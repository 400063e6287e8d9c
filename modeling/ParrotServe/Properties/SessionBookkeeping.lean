import ParrotServe.Properties.SessionSweeps

/-!
# The bookkeeping of sessions

Four tables in three managers and an id pool are about sessions: the sessions themselves, their
access times, the namespaces of their variables and the lists of their contexts.  The methods of
the manager are called here directly and in any order, and a call that raises does not end the
run.

`Booked` says that the keys of the four tables are the live ids of the pool.  A registration takes
an id that is not live, so no table has it, and a removal finds the id in every table.
-/

namespace ParrotServe

namespace SessionManager

open TransitionSystem

variable {α : Type} {uuid3 : ℕ → Text → VarId} {s s' : SessionManager α} {sessionId : ℕ}

/-- The tables have the same keys, which are the live ids. -/
structure Booked (s : SessionManager α) : Prop where
  consistent : s.Consistent
  contexts : ∀ id, id ∈ s.sessionContexts.keys ↔ id ∈ s.sessions.keys
  live : ∀ id, id ∈ s.sessionIdPool.liveIds ↔ id ∈ s.sessions.keys
  unbounded : s.sessionIdPool.poolSize = none

/-! ## Registering -/

/-- `register_session` never raises: the id is new to every table, and its namespace is empty. -/
lemma registerSession_booked (h : s.Booked) (now : ℤ) :
    ∃ id s', s.registerSession now = (.ok id, s') ∧ s'.Booked ∧ id ∉ s.sessions.keys ∧
      s'.vars.sessionNamespaces.get? id = some { namespaceUuid := s.vars.nextUuid } := by
  obtain ⟨id, pool, hpool⟩ := RecyclePool.allocate_unbounded h.unbounded
  have hlive := fun x => h.consistent.pool.mem_liveIds_allocate (x := x) hpool
  obtain ⟨hnew, -⟩ := h.consistent.pool.allocate_ok hpool
  have hnot : id ∉ s.vars.sessionNamespaces.keys := by
    rw [h.consistent.namespaces]
    exact hnew
  have hok : s.registerSession now = (.ok id, (s.registerSession now).2) := by
    simp only [registerSession, hpool, registerSessionResources,
      SemanticVariableManager.registerLocalVarSpace, if_neg hnot]
  refine ⟨id, _, hok, ⟨registerSession_spec h.consistent now, fun x => ?_, fun x => ?_, ?_⟩, hnew,
    ?_⟩ <;>
    simp only [registerSession, hpool, registerSessionResources,
      SemanticVariableManager.registerLocalVarSpace, if_neg hnot]
  · rw [Dict.mem_keys_set, Dict.mem_keys_set, h.contexts]
  · rw [Dict.mem_keys_set, hlive, h.live]
  · have hsize := RecyclePool.allocate_poolSize s.sessionIdPool
    rw [hpool] at hsize
    exact hsize.trans h.unbounded
  · exact Dict.get?_set_self _ _ _

/-! ## Removing -/

/-- What a removal does to the pool and to the lists of contexts. -/
lemma removeSessionCore_tables (h : s.Consistent) (hmem : sessionId ∈ s.sessions.keys) :
    (s.removeSessionCore sessionId).2.sessionIdPool = (s.sessionIdPool.free sessionId).2 ∧
      ∀ id, id ∈ (s.removeSessionCore sessionId).2.sessionContexts.keys ↔
        id ∈ s.sessionContexts.keys ∧ id ≠ sessionId := by
  obtain ⟨session, hget⟩ := s.sessions.mem_keys.mp hmem
  have hid := h.ids _ _ hget
  have htime := (h.times sessionId).mpr hmem
  have hspace := (h.namespaces sessionId).mpr hmem
  simp only [removeSessionCore, hget, htime, not_true, if_false, hid, freeSessionResources,
    freeSessionContexts, SemanticVariableManager.freeLocalVarSpace]
  cases hrefs : s.sessionContexts.get? sessionId with
  | none =>
      simp only [if_pos hspace, true_and]
      intro id
      refine ⟨fun hkey => ⟨hkey, ?_⟩, fun hkey => hkey.1⟩
      rintro rfl
      exact (Dict.get?_eq_none _).mp hrefs hkey
  | some refs =>
      obtain rfl := h.contexts _ _ hrefs
      simp only [ContextWorld.freeAll, if_pos hspace, true_and]
      intro id
      rw [Dict.mem_keys_erase]

/-- `_remove_session` of a session there is. -/
lemma removeSessionCore_booked (h : s.Booked) (hmem : sessionId ∈ s.sessions.keys) :
    ∃ s', s.removeSessionCore sessionId = (.ok (), s') ∧ s'.Booked ∧
      s'.sessions = s.sessions.erase sessionId := by
  obtain ⟨s', hok, hconsistent, hsessions⟩ := removeSessionCore_spec h.consistent hmem
  obtain ⟨hpool, hcontexts⟩ := removeSessionCore_tables h.consistent hmem
  rw [hok] at hpool hcontexts
  have hlive := fun x => h.consistent.pool.mem_liveIds_free (x := x) hmem
  refine ⟨s', hok, ⟨hconsistent, fun x => ?_, fun x => ?_, ?_⟩, hsessions⟩
  · rw [hcontexts, h.contexts, hsessions, Dict.mem_keys_erase]
  · rw [hpool, hlive, h.live, hsessions, Dict.mem_keys_erase]
  · rw [hpool, RecyclePool.free_poolSize]
    exact h.unbounded

lemma removeSession_booked (h : s.Booked) (sessionId : ℕ) :
    (s.removeSession sessionId).2.Booked := by
  unfold removeSession
  split_ifs with hmem
  · obtain ⟨s', hok, h', -⟩ := removeSessionCore_booked h hmem
    rw [hok]
    exact h'
  · exact h

/-- The loop of the sweep, by induction on the copy: a session that is left in it is still
there. -/
lemma sweepSessions_booked (items : List (ℕ × Session)) :
    (items.map Prod.fst).Nodup → ∀ s : SessionManager α, s.Booked →
      (∀ id ∈ items.map Prod.fst, id ∈ s.sessions.keys) → (sweepSessions items s).2.Booked := by
  induction items with
  | nil => exact fun _ s h _ => h
  | cons item items ih =>
      obtain ⟨id, session⟩ := item
      intro hnodup s h hmem
      rw [List.map_cons, List.nodup_cons] at hnodup
      simp only [sweepSessions]
      split
      · exact ih hnodup.2 s h fun id' hid' => hmem id' (List.mem_cons_of_mem _ hid')
      · obtain ⟨s₁, hremove, h₁, hsessions⟩ :=
          removeSessionCore_booked h (hmem id List.mem_cons_self)
        rw [hremove]
        refine ih hnodup.2 s₁ h₁ fun id' hid' => ?_
        rw [hsessions, Dict.mem_keys_erase]
        refine ⟨hmem id' (List.mem_cons_of_mem _ hid'), ?_⟩
        rintro rfl
        exact hnodup.1 hid'

/-! ## Checking -/

/-- A check changes the status of sessions, also when it raises. -/
lemma checkSession_frame (s : SessionManager α) (currentTime : ℤ) (sessionId : ℕ) (last : ℤ) :
    (s.checkSession currentTime sessionId last).2 = s ∨
      ∃ session status, s.sessions.get? sessionId = some session ∧
        (s.checkSession currentTime sessionId last).2 = s.setStatus sessionId session status := by
  unfold checkSession
  split
  · exact .inl rfl
  · rename_i session hget
    split
    · exact .inl rfl
    · split
      · exact .inr ⟨session, .dead, hget, rfl⟩
      · split
        · exact .inl rfl
        · exact .inr ⟨session, .bad, hget, rfl⟩

/-- A session is replaced by one with the same id. -/
lemma Booked.setSession (h : s.Booked) {session : Session} (hmem : sessionId ∈ s.sessions.keys)
    (hid : session.sessionId = sessionId) :
    Booked { s with sessions := s.sessions.set sessionId session } := by
  have hkeys := s.sessions.keys_set_of_mem session hmem
  refine ⟨h.consistent.setSession hmem hid, fun id => ?_, fun id => ?_, h.unbounded⟩
  · rw [hkeys]
    exact h.contexts id
  · rw [hkeys]
    exact h.live id

lemma checkSessions_booked (currentTime : ℤ) (items : List (ℕ × ℤ)) :
    ∀ s : SessionManager α, s.Booked → (checkSessions currentTime items s).2.Booked := by
  induction items with
  | nil => exact fun s h => h
  | cons item items ih =>
      obtain ⟨id, last⟩ := item
      intro s h
      have hcheck : (s.checkSession currentTime id last).2.Booked := by
        obtain heq | ⟨session, status, hget, heq⟩ := s.checkSession_frame currentTime id last
        · rwa [heq]
        · rw [heq]
          exact h.setSession (Dict.mem_keys_of_get? _ hget) (h.consistent.ids id session hget)
      simp only [checkSessions]
      split
      · rename_i hok
        rwa [hok] at hcheck
      · rename_i hok
        rw [hok] at hcheck
        exact ih _ hcheck

/-! ## Runs -/

lemma Booked.interrupt (h : s.Booked) {record : Session → Session}
    (hrecord : ∀ session, (record session).sessionId = session.sessionId) :
    (s.interrupt sessionId record).Booked := by
  unfold SessionManager.interrupt
  split
  · exact h
  · rename_i session hget
    exact h.setSession (Dict.mem_keys_of_get? _ hget)
      ((hrecord session).trans (h.consistent.ids _ session hget))

/-- **One call.** -/
lemma booked_call (h : s.Booked) {a : Action α} (ha : Enabled a) : (s.call uuid3 a).Booked := by
  cases a with
  | registerSession now =>
      obtain ⟨id, s', hok, h', -⟩ := registerSession_booked h now
      simp only [call, hok]
      exact h'
  | removeSession sessionId => exact removeSession_booked h sessionId
  | access sessionId now =>
      simp only [call, sessionAccessUpdate]
      split_ifs with hmem
      · have hkeys := s.sessionLastAccessTime.keys_set_of_mem now
          ((h.consistent.times sessionId).mpr hmem)
        refine ⟨⟨fun id => ?_, h.consistent.namespaces, h.consistent.ids, h.consistent.pool,
          h.consistent.contexts⟩, h.contexts, h.live, h.unbounded⟩
        rw [hkeys]
        exact h.consistent.times id
      · exact h
  | executorInterrupt sessionId exception => exact h.interrupt fun _ => rfl
  | nativeInterrupt sessionId exception => exact h.interrupt fun _ => rfl
  | vars a =>
      refine ⟨h.consistent.withVars (SemanticVariableManager.apply_keys ?_ ?_), h.contexts, h.live,
        h.unbounded⟩
      all_goals
        rintro id rfl
        exact ha
  | contexts world =>
      exact ⟨⟨h.consistent.times, h.consistent.namespaces, h.consistent.ids, h.consistent.pool,
        h.consistent.contexts⟩, h.contexts, h.live, h.unbounded⟩
  | checkRunningSessions currentTime => exact checkSessions_booked currentTime _ s h
  | sweepNotRunningSessions =>
      exact sweepSessions_booked s.sessions.entries s.sessions.nodup s h fun _ hid => hid

/-- The tables agree in every run of calls. -/
theorem booked_invariant (lifeSpan : ℤ) (timeout : ℕ) (world : ContextWorld α) :
    (callSystem uuid3 lifeSpan timeout world).IsInvariantUnder (fun _ _ => True) Booked where
  init := by
    rintro s rfl
    refine ⟨consistent_start lifeSpan timeout world, fun _ => Iff.rfl, fun id => ?_, rfl⟩
    refine iff_of_false (fun hid => ?_) List.not_mem_nil
    exact Nat.not_lt_zero _ hid.1
  step s a s' h _ hstep := by
    obtain ⟨ha, rfl⟩ := hstep
    exact booked_call h ha

/-- **Sessions stay booked.**  The keys of the four tables are the live ids; a registration gets an
id that none of them has, with an empty namespace; and no removal of a session raises. -/
theorem sessions_booked (lifeSpan : ℤ) (timeout : ℕ) (world : ContextWorld α)
    (hs : (callSystem uuid3 lifeSpan timeout world).Reachable s) :
    (∀ id, (id ∈ s.sessions.keys ↔ id ∈ s.sessionIdPool.liveIds) ∧
      (id ∈ s.sessionLastAccessTime.keys ↔ id ∈ s.sessionIdPool.liveIds) ∧
      (id ∈ s.vars.sessionNamespaces.keys ↔ id ∈ s.sessionIdPool.liveIds) ∧
      (id ∈ s.sessionContexts.keys ↔ id ∈ s.sessionIdPool.liveIds)) ∧
    (∀ now, ∃ id s', s.registerSession now = (.ok id, s') ∧ id ∉ s.sessions.keys ∧
      ∃ ns, s'.vars.sessionNamespaces.get? id = some ns ∧ ns.vars = .empty) ∧
    (∀ id ∈ s.sessions.keys, (s.removeSession id).1 = .ok ()) ∧
    s.sweepNotRunningSessions.1 = .ok () := by
  have h := (booked_invariant lifeSpan timeout world).holds hs
  refine ⟨fun id => ?_, fun now => ?_, fun id hid => ?_, ?_⟩
  · rw [h.consistent.times, h.consistent.namespaces, h.contexts, h.live]
    exact ⟨Iff.rfl, Iff.rfl, Iff.rfl, Iff.rfl⟩
  · obtain ⟨id, s', hok, -, hnew, hns⟩ := registerSession_booked h now
    exact ⟨id, s', hok, hnew, _, hns, rfl⟩
  · obtain ⟨s', hok, -⟩ := removeSessionCore_booked h hid
    rw [removeSession, if_pos hid, hok]
  · obtain ⟨s', hok, -⟩ := sweepNotRunningSessions_spec h.consistent
    rw [hok]

/-- A session that registered, expired and was swept leaves its id to the next one. -/
theorem sessions_booked_reused :
    let s := ((((start 60 0 noContexts).call noUuid (.registerSession 0)).call noUuid
      (.checkRunningSessions 60000000001)).call noUuid .sweepNotRunningSessions).call noUuid
      (.registerSession 60000000002)
    (∀ id, (id ∈ s.sessions.keys ↔ id ∈ s.sessionIdPool.liveIds) ∧
      (id ∈ s.sessionLastAccessTime.keys ↔ id ∈ s.sessionIdPool.liveIds) ∧
      (id ∈ s.vars.sessionNamespaces.keys ↔ id ∈ s.sessionIdPool.liveIds) ∧
      (id ∈ s.sessionContexts.keys ↔ id ∈ s.sessionIdPool.liveIds)) ∧
    (s.removeSession 0).1 = .ok () := by
  intro s
  have hs : (callSystem noUuid 60 0 noContexts).Reachable s :=
    .step (a := .registerSession 60000000002) (.step (a := .sweepNotRunningSessions)
      (.step (a := .checkRunningSessions 60000000001) (.step (a := .registerSession 0)
        (.init rfl) trivial ⟨trivial, rfl⟩) trivial ⟨trivial, rfl⟩) trivial ⟨trivial, rfl⟩)
      trivial ⟨trivial, rfl⟩
  obtain ⟨htables, -, hremove, -⟩ := sessions_booked 60 0 noContexts hs
  exact ⟨htables, hremove 0 (by decide)⟩

end SessionManager

end ParrotServe
