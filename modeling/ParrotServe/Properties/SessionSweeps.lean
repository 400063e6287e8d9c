import ParrotServe.Model.SessionManager

/-!
# Detecting and sweeping sessions

In every run the manager is `Consistent`: sessions, access times, namespaces and allocated ids
are about the same sessions, so neither loop of `serve_loop` looks up a key that is not there.

What `check_running_sessions` does to one session is `Session.checked`, and what it may raise is
the first argument of an exception.  It does not look at the exception of the native executor.
`sweeps_iff_exceptionsSeen` is the exact condition under which every failed or expired session is
found and removed: an exception of the graph executor has a first argument that can be formatted,
and a native function fails only in a session whose graph executor has failed too.
-/

namespace ParrotServe

/-! ## The variables of requests leave the sessions -/

namespace SemanticVariableManager

variable {uuid3 : ℕ → Text → VarId} {m : SemanticVariableManager}

/-- A session gets its namespace back. -/
lemma keys_set_session {sessionId : ℕ} {ns ns' : SemanticVariableNamespace}
    (h : m.sessionNamespaces.get? sessionId = some ns) :
    (m.sessionNamespaces.set sessionId ns').keys = m.sessionNamespaces.keys :=
  Dict.keys_set_of_mem _ _ (Dict.mem_keys_of_get? _ h)

lemma newVarByContent_sessionNamespaces (ns : SemanticVariableNamespace) (content : Text)
    (isConstantPrefix : Bool) :
    (m.newVarByContent uuid3 ns content isConstantPrefix).2.2.sessionNamespaces =
      m.sessionNamespaces := by
  unfold newVarByContent
  dsimp only
  split <;> rfl

lemma newVarByName_sessionNamespaces (ns : SemanticVariableNamespace) (name : Text)
    (isConstantPrefix : Bool) :
    (m.newVarByName uuid3 ns name isConstantPrefix).2.2.sessionNamespaces =
      m.sessionNamespaces := by
  unfold newVarByName
  split
  · rfl
  · dsimp only
    split <;> rfl

lemma setContent_sessionNamespaces {r : SvRef} {content : Text} {result : Except PyError Unit}
    {m' : SemanticVariableManager} (h : m.setContent r content = (result, m')) :
    m'.sessionNamespaces = m.sessionNamespaces := by
  have hsnd : m' = (m.setContent r content).2 := by rw [h]
  rw [hsnd]
  unfold setContent
  split <;> rfl

lemma createLocalVarByName_keys (sessionId : ℕ) (varName : Text) :
    (m.createLocalVarByName uuid3 sessionId varName).2.sessionNamespaces.keys =
      m.sessionNamespaces.keys := by
  unfold createLocalVarByName
  split
  · rfl
  · rename_i ns hns
    dsimp only
    rw [newVarByName_sessionNamespaces, keys_set_session hns]

lemma getLocalVarByContent_keys (sessionId : ℕ) (content : Text) :
    (m.getLocalVarByContent uuid3 sessionId content).2.sessionNamespaces.keys =
      m.sessionNamespaces.keys := by
  unfold getLocalVarByContent
  split
  · rfl
  · rename_i ns hns
    dsimp only
    rw [newVarByContent_sessionNamespaces, keys_set_session hns]

lemma createVarForNode_keys (sessionId now : ℕ) (flag : Bool) (kind : NodeKind) :
    (m.createVarForNode uuid3 sessionId now flag kind).2.sessionNamespaces.keys =
      m.sessionNamespaces.keys := by
  cases kind with
  | constantFill text =>
      simp only [createVarForNode]
      split
      · exact congrArg Dict.keys (newVarByContent_sessionNamespaces _ _ _)
      · exact getLocalVarByContent_keys _ _
  | placeholderFill param =>
      have hname : (m.createLocalVarByName uuid3 sessionId param.name).2.sessionNamespaces.keys =
          m.sessionNamespaces.keys := createLocalVarByName_keys _ _
      simp only [createVarForNode]
      split
      · split
        · rename_i hok
          rwa [hok] at hname
        · rename_i hok
          rw [hok] at hname
          split
          · exact hname
          · split
            all_goals
              rename_i hset
              rw [← hname]
              exact congrArg Dict.keys (setContent_sessionNamespaces hset)
      · rfl
  | placeholderGen param => exact createLocalVarByName_keys _ _

lemma createVarsLoop_keys (sessionId now : ℕ) (kinds : List NodeKind) :
    ∀ (flag : Bool) (rs : List SvRef) (m : SemanticVariableManager),
      (createVarsLoop uuid3 sessionId now flag kinds rs m).2.sessionNamespaces.keys =
        m.sessionNamespaces.keys := by
  induction kinds with
  | nil => exact fun _ _ _ => rfl
  | cons kind kinds ih =>
      intro flag rs m
      have hkeys : (m.createVarForNode uuid3 sessionId now
          (if kind.hasPlaceholder then false else flag) kind).2.sessionNamespaces.keys =
          m.sessionNamespaces.keys := createVarForNode_keys _ _ _ _
      simp only [createVarsLoop]
      split
      · rename_i hok
        rwa [hok] at hkeys
      · rename_i hok
        rw [hok] at hkeys
        rw [ih, hkeys]

lemma createVarForParam_keys (sessionId : ℕ) (key : Text) (param : NativeFunctionParameter) :
    (m.createVarForParam uuid3 sessionId key param).2.sessionNamespaces.keys =
      m.sessionNamespaces.keys := by
  have hname : (m.createLocalVarByName uuid3 sessionId key).2.sessionNamespaces.keys =
      m.sessionNamespaces.keys := createLocalVarByName_keys _ _
  unfold createVarForParam
  split
  · split
    · rename_i hok
      rwa [hok] at hname
    · rename_i hok
      rw [hok] at hname
      split
      · exact hname
      · split
        all_goals
          rename_i hset
          rw [← hname]
          exact congrArg Dict.keys (setContent_sessionNamespaces hset)
  · rfl

lemma createVarsForPynativeFunc_keys (sessionId : ℕ)
    (params : List (Text × NativeFunctionParameter)) :
    ∀ (inputVars outputVars : List (Text × SvRef)) (m : SemanticVariableManager),
      (createVarsForPynativeFunc uuid3 sessionId params inputVars outputVars
        m).2.sessionNamespaces.keys = m.sessionNamespaces.keys := by
  induction params with
  | nil => exact fun _ _ _ => rfl
  | cons p params ih =>
      obtain ⟨key, param⟩ := p
      intro inputVars outputVars m
      have hkeys : (m.createVarForParam uuid3 sessionId key param).2.sessionNamespaces.keys =
          m.sessionNamespaces.keys := createVarForParam_keys _ _ _
      simp only [createVarsForPynativeFunc]
      split
      · rename_i hok
        rwa [hok] at hkeys
      · rename_i hok
        rw [hok] at hkeys
        split <;> rw [ih, hkeys]

lemma freeExpired_sessionNamespaces (curTime : ℕ) (items : List (VarId × ℕ)) :
    ∀ (ret : List SvRef) (m : SemanticVariableManager),
      (freeExpired curTime items ret m).2.sessionNamespaces = m.sessionNamespaces := by
  induction items with
  | nil => exact fun _ _ => rfl
  | cons item items ih =>
      intro ret m
      simp only [freeExpired]
      split
      · split
        · rfl
        · split
          · rfl
          · split
            · exact ih _ _
            · rfl
      · exact ih _ _

/-- Requests, writers and expiry leave the sessions that have a namespace. -/
lemma apply_keys {a : VariableAction} (hregister : ∀ id, a ≠ .registerLocalVarSpace id)
    (hfree : ∀ id, a ≠ .freeLocalVarSpace id) :
    (m.apply uuid3 a).sessionNamespaces.keys = m.sessionNamespaces.keys := by
  cases a with
  | registerLocalVarSpace id => exact absurd rfl (hregister id)
  | freeLocalVarSpace id => exact absurd rfl (hfree id)
  | createVar sessionId varName =>
      simp only [apply, createVar]
      split
      · exact createLocalVarByName_keys _ _
      · rfl
  | createVarsForSemanticRequestChain sessionId now cachePrefix kinds =>
      exact createVarsLoop_keys _ _ _ _ _ _
  | createVarsForPynativeFunc sessionId params => exact createVarsForPynativeFunc_keys _ _ _ _ _
  | set r content => exact congrArg Dict.keys (setContent_sessionNamespaces rfl)
  | freeExpiredConstantPrefixVars curTime =>
      exact congrArg Dict.keys (freeExpired_sessionNamespaces _ _ _ _)

end SemanticVariableManager

namespace SessionManager

open TransitionSystem

variable {α : Type} {uuid3 : ℕ → Text → VarId} {s s' : SessionManager α} {sessionId : ℕ}

/-! ## One table of sessions -/

/-- All tables are about the same sessions, which hold no contexts of their own. -/
structure Consistent (s : SessionManager α) : Prop where
  times : ∀ id, id ∈ s.sessionLastAccessTime.keys ↔ id ∈ s.sessions.keys
  namespaces : ∀ id, id ∈ s.vars.sessionNamespaces.keys ↔ id ∈ s.sessions.keys
  ids : ∀ id session, s.sessions.get? id = some session → session.sessionId = id
  pool : s.sessionIdPool.Owns {id | id ∈ s.sessions.keys}
  contexts : ∀ id refs, s.sessionContexts.get? id = some refs → refs = []

/-- The session of an id is replaced by one with the same id. -/
lemma Consistent.setSession (h : s.Consistent) {session : Session}
    (hget : sessionId ∈ s.sessions.keys) (hid : session.sessionId = sessionId) :
    Consistent { s with sessions := s.sessions.set sessionId session } := by
  have hkeys := s.sessions.keys_set_of_mem session hget
  refine ⟨fun id => ?_, fun id => ?_, fun id x hx => ?_, ?_, h.contexts⟩
  · rw [hkeys]
    exact h.times id
  · rw [hkeys]
    exact h.namespaces id
  · dsimp only at hx
    rw [Dict.get?_set] at hx
    split_ifs at hx with heq
    · obtain rfl := Option.some.inj hx
      rw [hid, heq]
    · exact h.ids id x hx
  · rw [hkeys]
    exact h.pool

/-- The other components change, the sessions do not. -/
lemma Consistent.withVars (h : s.Consistent) {vars : SemanticVariableManager}
    (hkeys : vars.sessionNamespaces.keys = s.vars.sessionNamespaces.keys) :
    Consistent { s with vars } :=
  ⟨h.times, fun id => by rw [hkeys]; exact h.namespaces id, h.ids, h.pool, h.contexts⟩

/-! ## Registering and removing -/

/-- A session that registers gets an id that no session has. -/
lemma registerSession_spec (h : s.Consistent) (now : ℤ) : (s.registerSession now).2.Consistent := by
  unfold registerSession
  split
  · rename_i e pool hpool
    exact ⟨h.times, h.namespaces, h.ids, h.pool.allocate_error hpool, h.contexts⟩
  · rename_i sessionId pool hpool
    obtain ⟨hnew, hpool⟩ := h.pool.allocate_ok hpool
    have hnot : sessionId ∉ s.vars.sessionNamespaces.keys := by
      rw [h.namespaces]
      exact hnew
    simp only [registerSessionResources, SemanticVariableManager.registerLocalVarSpace, if_neg hnot]
    refine ⟨fun id => ?_, fun id => ?_, fun id x hx => ?_, ?_, fun id refs hrefs => ?_⟩
    · rw [Dict.mem_keys_set, Dict.mem_keys_set, h.times]
    · rw [Dict.mem_keys_set, Dict.mem_keys_set, h.namespaces]
    · dsimp only at hx
      rw [Dict.get?_set] at hx
      split_ifs at hx with heq
      · obtain rfl := Option.some.inj hx
        exact heq.symm
      · exact h.ids id x hx
    · have hset : {id | id ∈ (s.sessions.set sessionId
            { sessionId, lifeSpan := s.lifeSpan }).keys} =
          insert sessionId {id | id ∈ s.sessions.keys} := by
        ext id
        exact Dict.mem_keys_set _
      rw [hset]
      exact hpool
    · dsimp only at hrefs
      rw [Dict.get?_set] at hrefs
      split_ifs at hrefs
      · exact (Option.some.inj hrefs).symm
      · exact h.contexts id refs hrefs

/-- A session without contexts of its own frees its namespace only. -/
lemma freeSessionResources_spec (s : SessionManager α) (sessionId : ℕ)
    (hcontexts : ∀ id refs, s.sessionContexts.get? id = some refs → refs = [])
    (hmem : sessionId ∈ s.vars.sessionNamespaces.keys) :
    ∃ s', s.freeSessionResources sessionId = (.ok (), s') ∧ s'.sessions = s.sessions ∧
      s'.sessionLastAccessTime = s.sessionLastAccessTime ∧ s'.sessionIdPool = s.sessionIdPool ∧
      s'.vars.sessionNamespaces = s.vars.sessionNamespaces.erase sessionId ∧
      ∀ id refs, s'.sessionContexts.get? id = some refs → refs = [] := by
  unfold freeSessionResources freeSessionContexts SemanticVariableManager.freeLocalVarSpace
  cases hget : s.sessionContexts.get? sessionId with
  | none =>
      simp only [if_pos hmem]
      exact ⟨_, rfl, rfl, rfl, rfl, rfl, hcontexts⟩
  | some refs =>
      obtain rfl := hcontexts _ _ hget
      simp only [ContextWorld.freeAll, if_pos hmem]
      refine ⟨_, rfl, rfl, rfl, rfl, rfl, fun id refs hrefs => ?_⟩
      dsimp only at hrefs
      rw [Dict.get?_erase] at hrefs
      split_ifs at hrefs
      exact hcontexts id refs hrefs

/-- `_remove_session` releases what a session holds, and raises nothing. -/
lemma removeSessionCore_spec (h : s.Consistent) (hmem : sessionId ∈ s.sessions.keys) :
    ∃ s', s.removeSessionCore sessionId = (.ok (), s') ∧ s'.Consistent ∧
      s'.sessions = s.sessions.erase sessionId := by
  obtain ⟨session, hget⟩ := s.sessions.mem_keys.mp hmem
  have hid := h.ids _ _ hget
  have htime := (h.times sessionId).mpr hmem
  obtain ⟨s₁, hfree, hsessions, htimes, hpool, hnamespaces, hcontexts⟩ :=
    freeSessionResources_spec { s with
      sessions := s.sessions.erase sessionId
      sessionLastAccessTime := s.sessionLastAccessTime.erase sessionId } sessionId
      h.contexts ((h.namespaces sessionId).mpr hmem)
  obtain ⟨hok, -, howns⟩ := h.pool.free_ok hmem
  refine ⟨{ s₁ with sessionIdPool := (s₁.sessionIdPool.free sessionId).2 }, ?_,
    ⟨fun id => ?_, fun id => ?_, fun id x hx => ?_, ?_, hcontexts⟩, hsessions⟩
  · simp only [removeSessionCore, hget, htime, not_true, if_false, hid, hfree]
    rw [hpool, hok]
  · simp only [hsessions, htimes, Dict.mem_keys_erase, h.times]
  · simp only [hsessions, hnamespaces, Dict.mem_keys_erase, h.namespaces]
  · rw [hsessions, Dict.get?_erase] at hx
    split_ifs at hx
    exact h.ids id x hx
  · have hset : {id | id ∈ (s.sessions.erase sessionId).keys} =
        {id | id ∈ s.sessions.keys} \ {sessionId} := by
      ext id
      exact Dict.mem_keys_erase _
    rw [hsessions, hset, hpool]
    exact howns

/-! ## Checking -/

end SessionManager

namespace Session

variable (session : Session) (currentTime lastAccessTime : ℤ)

/-- What `check_running_sessions` makes of a session. -/
def checked : Session :=
  if !session.isRunning then session
  else if session.expired currentTime lastAccessTime then { session with status := .dead }
  else
    match session.executorException with
    | none => session
    | some _ => { session with status := .bad }

/-- What the message about a session raises. -/
def checkResult : Except PyError Unit :=
  if session.isRunning && !session.expired currentTime lastAccessTime then
    match session.executorException with
    | none => .ok ()
    | some exception => exception.formatFirst.map fun _ => ()
  else .ok ()

lemma checked_sessionId : (session.checked currentTime lastAccessTime).sessionId =
    session.sessionId := by
  unfold checked
  split
  · rfl
  · split
    · rfl
    · split <;> rfl

/-- The exception of the native executor plays no part. -/
lemma checked_isRunning : (session.checked currentTime lastAccessTime).isRunning = true ↔
    session.isRunning = true ∧ session.expired currentTime lastAccessTime = false ∧
      session.executorException = none := by
  unfold checked
  cases hrun : session.isRunning
  · simp [hrun]
  · cases hexp : session.expired currentTime lastAccessTime
    · cases hexc : session.executorException with
      | none => simpa using hrun
      | some exception => simp [isRunning]
    · simp [isRunning]

end Session

namespace SessionManager

open TransitionSystem

variable {α : Type} {uuid3 : ℕ → Text → VarId} {s s' : SessionManager α} {sessionId : ℕ}

/-- The check of one session: its result, and the session afterwards. -/
lemma checkSession_spec {session : Session} (hget : s.sessions.get? sessionId = some session)
    (currentTime lastAccessTime : ℤ) :
    ∃ sessions, s.checkSession currentTime sessionId lastAccessTime =
        (session.checkResult currentTime lastAccessTime, { s with sessions }) ∧
      sessions.keys = s.sessions.keys ∧ ∀ id, sessions.get? id =
        if id = sessionId then some (session.checked currentTime lastAccessTime)
        else s.sessions.get? id := by
  have hkeys : ∀ x, (s.sessions.set sessionId x).keys = s.sessions.keys := fun x =>
    Dict.keys_set_of_mem _ x (Dict.mem_keys_of_get? _ hget)
  have hsame : ∀ id, s.sessions.get? id =
      if id = sessionId then some session else s.sessions.get? id := by
    intro id
    split_ifs with heq
    · rw [heq, hget]
    · rfl
  simp only [checkSession, hget, setStatus, Session.checkResult, Session.checked]
  cases hrun : session.isRunning
  · exact ⟨s.sessions, rfl, rfl, hsame⟩
  · cases hexp : session.expired currentTime lastAccessTime
    · cases hexc : session.executorException with
      | none => exact ⟨s.sessions, rfl, rfl, hsame⟩
      | some exception => exact ⟨_, rfl, hkeys _, fun id => Dict.get?_set _ _ _ _⟩
    · exact ⟨_, rfl, hkeys _, fun id => Dict.get?_set _ _ _ _⟩

/-- The loop raises nothing exactly when no check of a session does.  The induction is over the
sessions left; those that were checked are not looked at again. -/
lemma checkSessions_ok (currentTime : ℤ) (items : List (ℕ × ℤ)) :
    (items.map Prod.fst).Nodup → ∀ s : SessionManager α,
      (∀ item ∈ items, item.1 ∈ s.sessions.keys) →
      ((checkSessions currentTime items s).1 = .ok () ↔ ∀ id last session, (id, last) ∈ items →
        s.sessions.get? id = some session → session.checkResult currentTime last = .ok ()) := by
  induction items with
  | nil => simp [checkSessions]
  | cons item items ih =>
      obtain ⟨id, last⟩ := item
      intro hnodup s hmem
      rw [List.map_cons, List.nodup_cons] at hnodup
      obtain ⟨session, hget⟩ := s.sessions.mem_keys.mp (hmem _ List.mem_cons_self)
      obtain ⟨sessions, hcheck, hkeys, hsessions⟩ := checkSession_spec hget currentTime last
      have hothers : ∀ id' ∈ items.map Prod.fst, sessions.get? id' = s.sessions.get? id' := by
        intro id' hid'
        rw [hsessions, if_neg]
        rintro rfl
        exact hnodup.1 hid'
      simp only [checkSessions, hcheck]
      cases hresult : session.checkResult currentTime last with
      | error e =>
          constructor
          · intro h
            cases h
          · intro hall
            rw [hall _ _ _ List.mem_cons_self hget] at hresult
            cases hresult
      | ok _ =>
          have hrest := ih hnodup.2 { s with sessions } fun item hitem => by
            rw [hkeys]
            exact hmem item (List.mem_cons_of_mem _ hitem)
          rw [hrest]
          constructor
          · intro hall id' last' session' hitem hget'
            rcases List.mem_cons.mp hitem with heq | htail
            · cases heq
              obtain rfl := Option.some.inj (hget.symm.trans hget')
              exact hresult
            · refine hall id' last' session' htail ?_
              rw [hothers id' (List.mem_map_of_mem htail)]
              exact hget'
          · intro hall id' last' session' htail hget'
            refine hall id' last' session' (List.mem_cons_of_mem _ htail) ?_
            rw [← hothers id' (List.mem_map_of_mem htail)]
            exact hget'

/-- The sessions after a loop that raised nothing. -/
lemma checkSessions_spec (currentTime : ℤ) (items : List (ℕ × ℤ)) :
    (items.map Prod.fst).Nodup → ∀ s s' : SessionManager α,
      (∀ item ∈ items, item.1 ∈ s.sessions.keys) →
      checkSessions currentTime items s = (.ok (), s') →
      ∃ sessions, s' = { s with sessions } ∧ sessions.keys = s.sessions.keys ∧
        (∀ id last session, (id, last) ∈ items → s.sessions.get? id = some session →
          sessions.get? id = some (session.checked currentTime last)) ∧
        ∀ id, id ∉ items.map Prod.fst → sessions.get? id = s.sessions.get? id := by
  induction items with
  | nil =>
      intro _ s s' _ hok
      simp only [checkSessions, Prod.mk.injEq, true_and] at hok
      exact ⟨s.sessions, hok.symm, rfl, by simp, fun _ _ => rfl⟩
  | cons item items ih =>
      obtain ⟨id, last⟩ := item
      intro hnodup s s' hmem hok
      rw [List.map_cons, List.nodup_cons] at hnodup
      obtain ⟨session, hget⟩ := s.sessions.mem_keys.mp (hmem _ List.mem_cons_self)
      obtain ⟨sessions, hcheck, hkeys, hsessions⟩ := checkSession_spec hget currentTime last
      simp only [checkSessions, hcheck] at hok
      cases hresult : session.checkResult currentTime last with
      | error e =>
          rw [hresult] at hok
          cases hok
      | ok _ =>
          rw [hresult] at hok
          obtain ⟨sessions', rfl, hkeys', hchecked, hothers⟩ :=
            ih hnodup.2 { s with sessions } s' (fun item hitem => by
              rw [hkeys]
              exact hmem item (List.mem_cons_of_mem _ hitem)) hok
          refine ⟨sessions', rfl, hkeys'.trans hkeys, ?_, fun id' hid' => ?_⟩
          · intro id' last' session' hitem hget'
            rcases List.mem_cons.mp hitem with heq | htail
            · cases heq
              obtain rfl := Option.some.inj (hget.symm.trans hget')
              rw [hothers _ hnodup.1, hsessions, if_pos rfl]
            · refine hchecked id' last' session' htail ?_
              rw [hsessions, if_neg]
              · exact hget'
              · rintro rfl
                exact hnodup.1 (List.mem_map.mpr ⟨_, htail, rfl⟩)
          · rw [List.map_cons, List.mem_cons, not_or] at hid'
            rw [hothers id' hid'.2, hsessions, if_neg hid'.1]

/-- A check leaves the sessions there are. -/
lemma checkRunningSessions_consistent (h : s.Consistent) {currentTime : ℤ}
    (hok : s.checkRunningSessions currentTime = (.ok (), s')) : s'.Consistent := by
  have hmem : ∀ item ∈ s.sessionLastAccessTime.entries, item.1 ∈ s.sessions.keys :=
    fun item hitem => (h.times _).mp (List.mem_map_of_mem hitem)
  obtain ⟨sessions, rfl, hkeys, hchecked, -⟩ :=
    checkSessions_spec currentTime _ s.sessionLastAccessTime.nodup s s' hmem hok
  refine ⟨fun id => ?_, fun id => ?_, fun id session hget => ?_, ?_, h.contexts⟩
  · rw [hkeys]
    exact h.times id
  · rw [hkeys]
    exact h.namespaces id
  · have hid : id ∈ s.sessions.keys := hkeys ▸ Dict.mem_keys_of_get? _ hget
    obtain ⟨old, hold⟩ := s.sessions.mem_keys.mp hid
    obtain ⟨last, hlast⟩ := Dict.mem_keys _ |>.mp ((h.times id).mpr hid)
    have hnew := hchecked id last old (Dict.mem_entries _ |>.mpr hlast) hold
    obtain rfl := Option.some.inj (hget.symm.trans hnew)
    rw [Session.checked_sessionId]
    exact h.ids id old hold
  · rw [hkeys]
    exact h.pool

/-! ## Sweeping -/

/-- The loop removes the sessions of its list that are not running, and raises nothing. -/
lemma sweepSessions_spec (items : List (ℕ × Session)) :
    (items.map Prod.fst).Nodup → ∀ s : SessionManager α, s.Consistent →
      (∀ id session, (id, session) ∈ items → s.sessions.get? id = some session) →
      ∃ s', sweepSessions items s = (.ok (), s') ∧ s'.Consistent ∧
        (∀ id session, (id, session) ∈ items →
          s'.sessions.get? id = if session.isRunning then some session else none) ∧
        ∀ id, id ∉ items.map Prod.fst → s'.sessions.get? id = s.sessions.get? id := by
  induction items with
  | nil => exact fun _ s h _ => ⟨s, rfl, h, by simp, fun _ _ => rfl⟩
  | cons item items ih =>
      obtain ⟨id, session⟩ := item
      intro hnodup s h hmem
      rw [List.map_cons, List.nodup_cons] at hnodup
      have hget := hmem id session List.mem_cons_self
      simp only [sweepSessions]
      cases hrun : session.isRunning with
      | true =>
          obtain ⟨s', hok, h', hswept, hothers⟩ := ih hnodup.2 s h fun id' session' htail =>
            hmem id' session' (List.mem_cons_of_mem _ htail)
          refine ⟨s', hok, h', fun id' session' hitem => ?_, fun id' hid' => ?_⟩
          · rcases List.mem_cons.mp hitem with heq | htail
            · cases heq
              rw [hothers id hnodup.1, hget, hrun, if_pos rfl]
            · exact hswept id' session' htail
          · rw [List.map_cons, List.mem_cons, not_or] at hid'
            exact hothers id' hid'.2
      | false =>
          obtain ⟨s₁, hremove, h₁, hsessions⟩ :=
            removeSessionCore_spec h (Dict.mem_keys_of_get? _ hget)
          obtain ⟨s', hok, h', hswept, hothers⟩ := ih hnodup.2 s₁ h₁ fun id' session' htail => by
            have hne : id' ≠ id := by
              rintro rfl
              exact hnodup.1 (List.mem_map.mpr ⟨_, htail, rfl⟩)
            rw [hsessions, Dict.get?_erase_ne _ hne]
            exact hmem id' session' (List.mem_cons_of_mem _ htail)
          simp only [hremove]
          refine ⟨s', hok, h', fun id' session' hitem => ?_, fun id' hid' => ?_⟩
          · rcases List.mem_cons.mp hitem with heq | htail
            · cases heq
              rw [hothers id hnodup.1, hsessions, Dict.get?_erase_self, hrun]
              rfl
            · exact hswept id' session' htail
          · rw [List.map_cons, List.mem_cons, not_or] at hid'
            rw [hothers id' hid'.2, hsessions, Dict.get?_erase_ne _ hid'.1]

/-- `sweep_not_running_sessions` raises nothing and leaves exactly the running sessions. -/
lemma sweepNotRunningSessions_spec (h : s.Consistent) :
    ∃ s', s.sweepNotRunningSessions = (.ok (), s') ∧ s'.Consistent ∧
      ∀ id, s'.sessions.get? id = (s.sessions.get? id).filter Session.isRunning := by
  obtain ⟨s', hok, h', hswept, hothers⟩ := sweepSessions_spec s.sessions.entries
    s.sessions.nodup s h fun id session hmem => (Dict.mem_entries _).mp hmem
  refine ⟨s', hok, h', fun id => ?_⟩
  cases hget : s.sessions.get? id with
  | none =>
      rw [hothers id ((Dict.get?_eq_none _).mp hget), hget]
      rfl
  | some session =>
      rw [hswept id session ((Dict.mem_entries _).mpr hget), Option.filter_some]

/-! ## Runs -/

lemma consistent_start (lifeSpan : ℤ) (timeout : ℕ) (world : ContextWorld α) :
    (start lifeSpan timeout world).Consistent := by
  refine ⟨fun _ => Iff.rfl, fun _ => Iff.rfl, fun _ _ hget => ?_, ?_, fun _ _ hget => ?_⟩
  · cases hget
  · exact (RecyclePool.owns_empty "pool" none false).mono fun id hid => by cases hid
  · cases hget

/-- The tables agree in every run. -/
theorem consistent_invariant (lifeSpan : ℤ) (timeout : ℕ) (world : ContextWorld α) :
    (system uuid3 lifeSpan timeout world).IsInvariantUnder (fun _ _ => True) Consistent where
  init := by
    rintro s rfl
    exact consistent_start lifeSpan timeout world
  step s a s' h _ hstep := by
    obtain ⟨hen, hok⟩ := hstep
    cases a with
    | registerSession now =>
        obtain rfl := Except.ok.inj hok
        exact registerSession_spec h now
    | removeSession sessionId =>
        simp only [apply] at hok
        split at hok <;> obtain rfl := Except.ok.inj hok
        · exact h
        · unfold removeSession
          split_ifs with hmem
          · obtain ⟨s₁, hremove, h₁, -⟩ := removeSessionCore_spec h hmem
            rw [hremove]
            exact h₁
          · exact h
    | access sessionId now =>
        simp only [apply] at hok
        split at hok <;> obtain rfl := Except.ok.inj hok
        · exact h
        · unfold sessionAccessUpdate
          split_ifs with hmem
          · refine ⟨fun id => ?_, h.namespaces, h.ids, h.pool, h.contexts⟩
            rw [Dict.keys_set_of_mem _ _ ((h.times sessionId).mpr hmem)]
            exact h.times id
          · exact h
    | executorInterrupt sessionId exception =>
        obtain rfl := Except.ok.inj hok
        unfold interrupt
        split
        · exact h
        · rename_i session hget
          exact h.setSession (Dict.mem_keys_of_get? _ hget) (h.ids _ session hget)
    | nativeInterrupt sessionId exception =>
        obtain rfl := Except.ok.inj hok
        unfold interrupt
        split
        · exact h
        · rename_i session hget
          exact h.setSession (Dict.mem_keys_of_get? _ hget) (h.ids _ session hget)
    | vars a =>
        obtain rfl := Except.ok.inj hok
        refine h.withVars (SemanticVariableManager.apply_keys ?_ ?_)
        all_goals
          rintro id rfl
          exact hen
    | contexts world =>
        obtain rfl := Except.ok.inj hok
        exact ⟨h.times, h.namespaces, h.ids, h.pool, h.contexts⟩
    | checkRunningSessions currentTime =>
        simp only [apply] at hok
        split at hok
        · cases hok
        · rename_i s₁ hcheck
          obtain rfl := Except.ok.inj hok
          exact checkRunningSessions_consistent h hcheck
    | sweepNotRunningSessions =>
        obtain ⟨s₁, hsweep, h₁, -⟩ := sweepNotRunningSessions_spec h
        simp only [apply, hsweep] at hok
        obtain rfl := Except.ok.inj hok
        exact h₁

/-! ## Failed and expired sessions -/

/-- There is a running session with this id. -/
def Runs (s : SessionManager α) (id : ℕ) : Prop :=
  ∃ session, s.sessions.get? id = some session ∧ session.isRunning = true

/-- A running session that is not past its life span, with no recorded exception. -/
def Sound (s : SessionManager α) (currentTime : ℤ) (id : ℕ) : Prop :=
  ∃ session last, s.sessions.get? id = some session ∧ s.sessionLastAccessTime.get? id = some last ∧
    session.isRunning = true ∧ session.expired currentTime last = false ∧
    session.executorException = none ∧ session.nativeException = none

/-- The check raises nothing and leaves exactly the sound sessions running, and the sweep that
follows removes exactly the others. -/
def DetectsAndSweeps (s : SessionManager α) (currentTime : ℤ) : Prop :=
  ∃ s₁ s₂, s.checkRunningSessions currentTime = (.ok (), s₁) ∧
    s₁.sessions.keys = s.sessions.keys ∧ (∀ id, s₁.Runs id ↔ s.Sound currentTime id) ∧
    s₁.sweepNotRunningSessions = (.ok (), s₂) ∧
    ∀ id, s₂.sessions.get? id = (s₁.sessions.get? id).filter Session.isRunning

/-- In a running session that is not past its life span, the exception of the graph executor has
a first argument that can be formatted, and without it there is no native one. -/
def ExceptionsSeen (s : SessionManager α) (currentTime : ℤ) : Prop :=
  ∀ id session last, s.sessions.get? id = some session →
    s.sessionLastAccessTime.get? id = some last → session.isRunning = true →
    session.expired currentTime last = false →
    match session.executorException with
    | none => session.nativeException = none
    | some exception => ∃ text, exception.formatFirst = .ok text

lemma checkResult_ok {session : Session} {currentTime last : ℤ} :
    session.checkResult currentTime last = .ok () ↔ (session.isRunning = true →
      session.expired currentTime last = false → ∀ exception,
        session.executorException = some exception → ∃ text, exception.formatFirst = .ok text) := by
  unfold Session.checkResult
  cases session.isRunning
  · simp
  · cases session.expired currentTime last
    · cases session.executorException with
      | none => simp
      | some exception => cases hfirst : exception.formatFirst <;> simp [Except.map, hfirst]
    · simp

/-- When the check raises nothing, a session runs afterwards as its `checked` says. -/
lemma runs_checked (h : s.Consistent) {currentTime : ℤ}
    (hok : s.checkRunningSessions currentTime = (.ok (), s')) (id : ℕ) :
    s'.sessions.keys = s.sessions.keys ∧ (s'.Runs id ↔ ∃ session last,
      s.sessions.get? id = some session ∧ s.sessionLastAccessTime.get? id = some last ∧
        session.isRunning = true ∧ session.expired currentTime last = false ∧
        session.executorException = none) := by
  have hmem : ∀ item ∈ s.sessionLastAccessTime.entries, item.1 ∈ s.sessions.keys :=
    fun item hitem => (h.times _).mp (List.mem_map_of_mem hitem)
  obtain ⟨sessions, rfl, hkeys, hchecked, -⟩ :=
    checkSessions_spec currentTime _ s.sessionLastAccessTime.nodup s s' hmem hok
  refine ⟨hkeys, ?_, ?_⟩
  · rintro ⟨session', hget', hrun⟩
    have hid : id ∈ s.sessions.keys := hkeys ▸ Dict.mem_keys_of_get? _ hget'
    obtain ⟨session, hget⟩ := s.sessions.mem_keys.mp hid
    obtain ⟨last, hlast⟩ := (Dict.mem_keys _).mp ((h.times id).mpr hid)
    have hnew := hchecked id last session ((Dict.mem_entries _).mpr hlast) hget
    obtain rfl := Option.some.inj (hget'.symm.trans hnew)
    exact ⟨session, last, hget, hlast, (session.checked_isRunning _ _).mp hrun⟩
  · rintro ⟨session, last, hget, hlast, hrun⟩
    exact ⟨_, hchecked id last session ((Dict.mem_entries _).mpr hlast) hget,
      (session.checked_isRunning _ _).mpr hrun⟩

/-- Failed and expired sessions are detected and swept exactly when their exceptions are seen. -/
theorem sweeps_iff_exceptionsSeen (lifeSpan : ℤ) (timeout : ℕ) (world : ContextWorld α)
    (hs : (system uuid3 lifeSpan timeout world).Reachable s) (currentTime : ℤ) :
    s.DetectsAndSweeps currentTime ↔ s.ExceptionsSeen currentTime := by
  have h := (consistent_invariant lifeSpan timeout world).holds hs
  have hmem : ∀ item ∈ s.sessionLastAccessTime.entries, item.1 ∈ s.sessions.keys :=
    fun item hitem => (h.times _).mp (List.mem_map_of_mem hitem)
  have hraises := checkSessions_ok currentTime _ s.sessionLastAccessTime.nodup s hmem
  constructor
  · rintro ⟨s₁, s₂, hok, -, hruns, -⟩ id session last hget hlast hrun hexp
    have hresult := hraises.mp (congrArg Prod.fst hok) id last session
      ((Dict.mem_entries _).mpr hlast) hget
    cases hexc : session.executorException with
    | none =>
        -- the check leaves this session running, so it has no native exception either
        obtain ⟨session', last', hget', -, -, -, -, hnative⟩ := (hruns id).mp
          ((runs_checked h hok id).2.mpr ⟨session, last, hget, hlast, hrun, hexp, hexc⟩)
        obtain rfl := Option.some.inj (hget.symm.trans hget')
        exact hnative
    | some exception => exact checkResult_ok.mp hresult hrun hexp exception hexc
  · intro hseen
    have hcheck : (checkSessions currentTime s.sessionLastAccessTime.entries s).1 = .ok () := by
      refine hraises.mpr fun id last session hitem hget => checkResult_ok.mpr ?_
      intro hrun hexp exception hexc
      have := hseen id session last hget ((Dict.mem_entries _).mp hitem) hrun hexp
      rwa [hexc] at this
    obtain ⟨s₁, hok⟩ : ∃ s₁, s.checkRunningSessions currentTime = (.ok (), s₁) :=
      ⟨_, Prod.ext hcheck rfl⟩
    obtain ⟨s₂, hsweep, -, hswept⟩ :=
      sweepNotRunningSessions_spec (checkRunningSessions_consistent h hok)
    refine ⟨s₁, s₂, hok, (runs_checked h hok 0).1, fun id => ?_, hsweep, hswept⟩
    rw [(runs_checked h hok id).2]
    constructor
    · rintro ⟨session, last, hget, hlast, hrun, hexp, hexc⟩
      have hnative := hseen id session last hget hlast hrun hexp
      rw [hexc] at hnative
      exact ⟨session, last, hget, hlast, hrun, hexp, hexc, hnative⟩
    · rintro ⟨session, last, hget, hlast, hrun, hexp, hexc, -⟩
      exact ⟨session, last, hget, hlast, hrun, hexp, hexc⟩

/-! ## A session that failed -/

/-- No contexts, no engines. -/
def noContexts : ContextWorld Unit where
  mgr := .empty
  backend _ _ := none
  orphaned := []

/-- No variable is created here. -/
def noUuid : ℕ → Text → VarId := fun _ _ => SemanticVariableManager.noVar.id

/-- A manager with one session, of a minute. -/
def opened : SessionManager Unit := ((start 60 0 noContexts).registerSession 0).2

lemma opened_reachable : (system noUuid 60 0 noContexts).Reachable opened :=
  .step (a := .registerSession 0) (.init rfl) trivial ⟨trivial, rfl⟩

/-- Two more sessions after fifty seconds, the first of which failed. -/
def threeSessions : SessionManager Unit :=
  ((opened.registerSession 50000000000).2.registerSession 50000000000).2.interrupt 1
    fun session => { session with executorException := some ⟨[.ok ['e']]⟩ }

/-- One session has expired, one has failed, and one is left. -/
theorem sweeps_opened : threeSessions.DetectsAndSweeps 70000000000 ∧
    (threeSessions.checkRunningSessions 70000000000).2.sweepNotRunningSessions.2.sessions.keys =
      [2] := by
  have hreach : (system noUuid 60 0 noContexts).Reachable threeSessions :=
    .step (a := .executorInterrupt 1 ⟨[.ok ['e']]⟩)
      (.step (a := .registerSession 50000000000)
        (.step (a := .registerSession 50000000000) opened_reachable trivial ⟨trivial, rfl⟩)
        trivial ⟨trivial, rfl⟩) trivial ⟨trivial, rfl⟩
  refine ⟨(sweeps_iff_exceptionsSeen 60 0 noContexts hreach 70000000000).mpr ?_, by decide +kernel⟩
  have hrecorded : ∀ item ∈ threeSessions.sessions.entries, item.2.nativeException = none ∧
      ∀ exception ∈ item.2.executorException, exception = ⟨[.ok ['e']]⟩ := by
    decide +kernel
  intro id session last hget _ _ _
  obtain ⟨hnative, hexc⟩ := hrecorded (id, session) ((Dict.mem_entries _).mpr hget)
  cases hrec : session.executorException with
  | none => exact hnative
  | some exception =>
      rw [hexc exception hrec]
      exact ⟨['e'], rfl⟩

/-- Its native function raised `ValueError("")`. -/
def nativeFailed : SessionManager Unit :=
  opened.interrupt 0 fun session => { session with nativeException := some ⟨[.ok []]⟩ }

/-- Its graph executor recorded an exception without arguments, such as a timeout of HTTP. -/
def timedOut : SessionManager Unit :=
  opened.interrupt 0 fun session => { session with executorException := some ⟨[]⟩ }

/-- The first of these sessions keeps running, and the second one raises `IndexError`. -/
theorem unseen_exceptions :
    ((system noUuid 60 0 noContexts).Reachable nativeFailed ∧ ¬ nativeFailed.DetectsAndSweeps 1) ∧
      (system noUuid 60 0 noContexts).Reachable timedOut ∧ ¬ timedOut.DetectsAndSweeps 1 := by
  refine ⟨⟨.step (a := .nativeInterrupt 0 ⟨[.ok []]⟩) opened_reachable trivial ⟨trivial, rfl⟩, ?_⟩,
    .step (a := .executorInterrupt 0 ⟨[]⟩) opened_reachable trivial ⟨trivial, rfl⟩, ?_⟩
  · rintro ⟨s₁, s₂, hok, -, hruns, -⟩
    have hsame : nativeFailed.checkRunningSessions 1 = (.ok (), nativeFailed) := rfl
    obtain rfl : nativeFailed = s₁ := congrArg Prod.snd (hsame.symm.trans hok)
    obtain ⟨session, last, hget, -, -, -, -, hnative⟩ := (hruns 0).mp ⟨_, rfl, rfl⟩
    obtain rfl := Option.some.inj hget
    cases hnative
  · rintro ⟨s₁, s₂, hok, -⟩
    have hraises : (timedOut.checkRunningSessions 1).1 = .error .indexError := rfl
    rw [hok] at hraises
    cases hraises

end SessionManager

end ParrotServe
