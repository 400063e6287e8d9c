import ParrotServe.Framework.Selection
import ParrotServe.Properties.TaskAccounting

/-!
# Which of the available engines a group goes to

`_find_engine` dispatches a group to one engine of the list it got, always, `findEngine_spec`: the
one that a scan of the list leaves, for the comparison `Stays` of the best engine so far with the
next one.  Its three parts are all needed for the best engine to stay: a cached prefix if the next
engine has one, an upper bound that is not larger, and a remaining capacity that is not larger.

An engine with a cached prefix takes the place of one without, and an engine without one takes it
back when one of its two numbers is smaller: `context_aware_iff` says when the choice still has a
prefix.  An engine with a smaller bound takes the place of another, and the other takes it back
when its capacity is smaller: `lex_least_iff` says when the choice is the minimum of the two
numbers in this order, and when it does not depend on the order of registration.
-/

namespace ParrotServe

namespace GlobalScheduler

variable {s : GlobalScheduler}

/-! ## The list of the available engines -/

/-- The engine passes a check. -/
def passes (s : GlobalScheduler) (check : ExecutionEngine → Except PyError Bool)
    (g : EngineRef) : Bool :=
  match check (s.engine g) with
  | .ok b => b
  | .error _ => false

/-- The list comprehension keeps what passes, if no check raises. -/
lemma filterEngines_eq_ok_iff {check : ExecutionEngine → Except PyError Bool}
    (gs : List EngineRef) : ∀ {l : List EngineRef}, s.filterEngines check gs = .ok l ↔
      (∀ g ∈ gs, ∃ b, check (s.engine g) = .ok b) ∧ l = gs.filter (s.passes check) := by
  induction gs with
  | nil =>
      intro l
      simp [filterEngines, eq_comm]
  | cons g gs ih =>
      intro l
      unfold filterEngines
      cases hg : check (s.engine g) with
      | error e => simp [hg]
      | ok b =>
          have hpass : s.passes check g = b := by simp [passes, hg]
          cases hrest : s.filterEngines check gs with
          | error e =>
              have hnot : ¬ ∀ x ∈ gs, ∃ b, check (s.engine x) = .ok b := fun hall => by
                have := ih.mpr ⟨hall, rfl⟩
                rw [hrest] at this
                cases this
              simp only [reduceCtorEq, false_iff, not_and]
              exact fun hall _ => hnot fun x hx => hall x (List.mem_cons_of_mem g hx)
          | ok rest =>
              obtain ⟨hall, rfl⟩ := ih.mp hrest
              have hcons : ∀ x ∈ g :: gs, ∃ b, check (s.engine x) = .ok b := fun x hx => by
                rcases List.mem_cons.mp hx with rfl | hx
                · exact ⟨b, hg⟩
                · exact hall x hx
              rw [List.filter_cons, hpass, Except.ok.injEq]
              exact ⟨fun h => ⟨hcons, h.symm⟩, fun h => h.2.symm⟩

/-- The tokens of a group are counted only if those of its tasks are. -/
lemma getTokenNums_of_total {name : Text} (ts : List TaskRef) :
    ∀ {total : ℕ}, s.totalTokensNum name ts = .ok total →
      ∀ t ∈ ts, ∃ n, (s.task t).getTokenNums name = .ok n := by
  induction ts with
  | nil => exact fun _ t ht => absurd ht List.not_mem_nil
  | cons t ts ih =>
      intro total h t' ht'
      unfold totalTokensNum at h
      split at h
      · cases h
      · rename_i n hn
        split at h
        · cases h
        · rename_i rest hrest
          rcases List.mem_cons.mp ht' with rfl | ht'
          · exact ⟨n, hn⟩
          · exact ih hrest t' ht'

/-- What a task counts for on an available engine is known. -/
lemma Available.tokensOf {tasks : List TaskRef} {models : List Text} {modelType : ModelType}
    {bound : ℤ} {g : EngineRef} (h : Available s tasks models modelType bound (s.engine g))
    {t : TaskRef} (ht : t ∈ tasks) : ∃ n, (s.engine g).tokensOf (s.task t) = .ok n := by
  unfold ExecutionEngine.tokensOf
  rw [← h.type_eq]
  cases hm : modelType with
  | text => exact ⟨0, rfl⟩
  | tokenId =>
      obtain ⟨total, htotal, -⟩ := h.tokens_le hm
      exact getTokenNums_of_total tasks htotal t ht

/-- A group is dispatched, one task after the other, if what they count for is known. -/
lemma dispatch_total {g : EngineRef} (ts : List TaskRef) : ∀ {s : GlobalScheduler},
    (∀ t ∈ ts, ∃ n, (s.engine g).tokensOf (s.task t) = .ok n) →
      ∃ s', dispatch g ts s = .ok s' ∧
        s'.dispatches = s.dispatches ++ ts.map fun t => (t, g) := by
  induction ts with
  | nil => exact fun {s} _ => ⟨s, rfl, (List.append_nil _).symm⟩
  | cons t ts ih =>
      intro s h
      obtain ⟨n, hn⟩ := h t List.mem_cons_self
      have hf := scheduled_frame s t g n
      obtain ⟨s', hs', hdis⟩ := ih (s := s.scheduled t g n) fun t' ht' => by
        obtain ⟨n', hn'⟩ := h t' (List.mem_cons_of_mem _ ht')
        exact ⟨n', (tokensOf_congr (hf.model g) (hf.tokenizedResult t')
          (congrArg TaskChain.maxGenLength (hf.chain t'))).trans hn'⟩
      refine ⟨s', by simp only [dispatch, scheduleTo_eq hn, hs'], ?_⟩
      rw [hdis]
      simp [scheduled]

/-! ## The scan -/

/-- A prefix of the chain of a task is cached in the engine. -/
def HasPrefix (s : GlobalScheduler) (t : TaskRef) (g : EngineRef) : Prop :=
  s.engineMgr.contextMgr.queryPrefixesInEngines (s.task t).chain.nodes (s.engine g).engineId = true

instance (s : GlobalScheduler) (t : TaskRef) (g : EngineRef) : Decidable (s.HasPrefix t g) :=
  inferInstanceAs (Decidable (_ = true))

/-- The bound of an engine, and what it can still take. -/
abbrev upperbound (s : GlobalScheduler) (g : EngineRef) : ℤ := (s.engine g).getTasksNumUpperbound

@[inherit_doc upperbound]
abbrev remaining (s : GlobalScheduler) (g : EngineRef) : ℤ := (s.engine g).getRemainTokensCapacity

/-- The best engine so far stays the best after a look at `g`. -/
def Stays (s : GlobalScheduler) (first : TaskRef) (best g : EngineRef) : Prop :=
  (s.config.ctxAware = true → s.HasPrefix first g → s.HasPrefix first best) ∧
    KeysLe s.upperbound s.remaining best g

instance (s : GlobalScheduler) (first : TaskRef) : DecidableRel (s.Stays first) :=
  fun _ _ => inferInstanceAs (Decidable ((_ → _) ∧ _))

lemma Stays.refl (first : TaskRef) (g : EngineRef) : s.Stays first g g := ⟨fun _ h => h, .refl g⟩

lemma Stays.trans (first : TaskRef) (a b c : EngineRef) (h : s.Stays first a b)
    (h' : s.Stays first b c) : s.Stays first a c :=
  ⟨fun hctx hc => h.1 hctx (h'.1 hctx hc), h.2.trans a b c h'.2⟩

lemma stays_iff_keysLe (hctx : s.config.ctxAware = false) {first : TaskRef} {a b : EngineRef} :
    s.Stays first a b ↔ KeysLe s.upperbound s.remaining a b := by
  simp [Stays, hctx]

/-- The loop body as a comparison. -/
lemma betterEngine_eq_keep (first : TaskRef) :
    s.betterEngine (s.engineMgr.contextMgr.queryPrefixesInEngines (s.task first).chain.nodes) =
      keep (s.Stays first) := by
  funext best g
  unfold betterEngine keep
  split
  · rename_i hctx
    exact (if_neg fun hs => hctx.2.2 (hs.1 hctx.1 hctx.2.1)).symm
  · rename_i hctx
    split
    · rename_i hub
      exact (if_neg fun hs => absurd hub (not_lt.mpr hs.2.1)).symm
    · rename_i hub
      split
      · rename_i hcap
        exact (if_neg fun hs => absurd hcap (not_lt.mpr hs.2.2)).symm
      · rename_i hcap
        refine (if_pos ⟨fun hc hg => not_not.mp fun hb => hctx ⟨hc, hg, hb⟩, ?_, ?_⟩).symm
        · exact not_lt.mp hub
        · exact not_lt.mp hcap

/-- `_find_engine` dispatches the group to `g`. -/
def FindsEngine (s : GlobalScheduler) (tasks : List TaskRef) (g : EngineRef) : Prop :=
  ∃ s', s.findEngine tasks = .ok s' ∧ s'.dispatches = s.dispatches ++ tasks.map fun t => (t, g)

instance (s : GlobalScheduler) (tasks : List TaskRef) (g : EngineRef) :
    Decidable (s.FindsEngine tasks g) :=
  match h : s.findEngine tasks with
  | .error e => .isFalse fun ⟨_, hs', _⟩ => by cases h.symm.trans hs'
  | .ok s' => decidable_of_iff (s'.dispatches = s.dispatches ++ tasks.map fun t => (t, g))
      ⟨fun hdis => ⟨s', h, hdis⟩, fun ⟨_, hs', hdis⟩ => by cases h.symm.trans hs'; exact hdis⟩

/-- With an available engine, the group goes to the one that the scan leaves. -/
lemma findEngine_spec {first : TaskRef} {rest : List TaskRef} {x : EngineRef}
    {gs : List EngineRef} (hfree : s.config.ctxAware = true → (s.task first).isScheduled = false)
    (hlist : s.getEngineList (first :: rest) (s.groupBound (first :: rest)) = .ok (x :: gs)) :
    s.FindsEngine (first :: rest) (gs.foldl (keep (s.Stays first)) x) := by
  have hfor : s.engineFor (first :: rest) = .ok (some (gs.foldl (keep (s.Stays first)) x)) := by
    unfold engineFor
    unfold groupBound at hlist
    dsimp only
    rw [hlist]
    dsimp only [bestEngine]
    rw [if_neg fun h => by simp [hfree h.1] at h, betterEngine_eq_keep]
  obtain ⟨first', rest', modelType, heq, -, -, hav⟩ := engineFor_ok hfor
  obtain ⟨s', hs', hdis⟩ := dispatch_total (first :: rest) fun t ht => hav.tokensOf ht
  exact ⟨s', by simp only [findEngine, hfor, hs'], hdis⟩

/-- The engine of a group is determined. -/
lemma FindsEngine.unique {tasks : List TaskRef} {g h : EngineRef} (hne : tasks ≠ [])
    (hg : s.FindsEngine tasks g) (hh : s.FindsEngine tasks h) : g = h := by
  obtain ⟨s₁, hs₁, hd₁⟩ := hg
  obtain ⟨s₂, hs₂, hd₂⟩ := hh
  obtain ⟨t, ts, rfl⟩ := List.exists_cons_of_ne_nil hne
  rw [hs₁, Except.ok.injEq] at hs₂
  subst hs₂
  rw [hd₁, List.append_cancel_left_eq] at hd₂
  simp only [List.map_cons, List.cons.injEq, Prod.mk.injEq, true_and] at hd₂
  exact hd₂.1

/-- The engine of a group is the first of the list that stays the best to its end. -/
lemma findEngine_survives {first : TaskRef} {rest : List TaskRef} {list : List EngineRef}
    (hfree : s.config.ctxAware = true → (s.task first).isScheduled = false)
    (hlist : s.getEngineList (first :: rest) (s.groupBound (first :: rest)) = .ok list)
    (hne : list ≠ []) :
    ∃ g, s.FindsEngine (first :: rest) g ∧ Survives (s.Stays first) g list ∧
      ∀ h, Survives (s.Stays first) h list → s.Stays first g h := by
  obtain ⟨x, gs, rfl⟩ := List.exists_cons_of_ne_nil hne
  exact ⟨_, findEngine_spec hfree hlist, survives_foldl_keep gs x,
    foldl_keep_beats (Stays.refl first) (Stays.trans first) gs x⟩

/-! ## Cached prefixes -/

/-- With `ctx_aware` and a prefix cached in an available engine: the group goes to an engine with
a cached prefix exactly when one of them has no engine behind it, in the order of the list, with
a smaller bound or a smaller remaining capacity. -/
theorem context_aware_iff (s : GlobalScheduler) (hctx : s.config.ctxAware = true)
    {first : TaskRef} {rest : List TaskRef} {list : List EngineRef}
    (hfree : (s.task first).isScheduled = false)
    (hlist : s.getEngineList (first :: rest) (s.groupBound (first :: rest)) = .ok list)
    (hpre : ∃ g ∈ list, s.HasPrefix first g) :
    ∃ g ∈ list, s.FindsEngine (first :: rest) g ∧
      (s.HasPrefix first g ↔ ∃ pre h post, list = pre ++ h :: post ∧ s.HasPrefix first h ∧
        ∀ x ∈ post, s.upperbound h ≤ s.upperbound x ∧ s.remaining h ≤ s.remaining x) := by
  obtain ⟨x, hx, -⟩ := hpre
  obtain ⟨g, hg, hs, hbeats⟩ := findEngine_survives (fun _ => hfree) hlist (List.ne_nil_of_mem hx)
  refine ⟨g, hs.mem, hg, fun hprefix => ?_, ?_⟩
  · obtain ⟨pre, post, heq, hpost⟩ := hs
    exact ⟨pre, g, post, heq, hprefix, fun y hy => (hpost y hy).2⟩
  · rintro ⟨pre, h, post, heq, hh, hpost⟩
    have hsurvives : Survives (s.Stays first) h list :=
      ⟨pre, post, heq, fun y hy => ⟨fun _ _ => hh, hpost y hy⟩⟩
    exact (hbeats h hsurvives).1 hctx hh

/-- Two engines with room for `m` and `n` tokens, a prefix of the request in the cache of the
first one, and the request. -/
def cachedInFirst (m n : ℕ) : List Action :=
  [.engineMgr (.registerEngine { model := ['a'], tokenizer := ['t'], tokensCapacity := m } 0),
    .engineMgr (.registerEngine { model := ['a'], tokenizer := ['t'], tokensCapacity := n } 0),
    .cachePrefixes fun e =>
      { PrefixCache.empty with
        prefixCtxMap := fun h =>
          if e = 0 ∧ h = hashVarId ⟨['x'], by decide⟩ then some 0 else none },
    .submitChain { groupChain 0 [] with nodes := [{ varId := ⟨['x'], by decide⟩ }] } 256]

/-- With the same capacities the request goes to the engine with the cached prefix. -/
theorem context_aware_iff_equal :
    ∃ s : GlobalScheduler, s.FindsEngine [0] 0 ∧ s.HasPrefix 0 0 ∧ ¬ s.HasPrefix 0 1 := by
  obtain ⟨s, -, ⟨hctx, hfree, hlist⟩, h0, h1, hkeys⟩ := TransitionSystem.RunsTo.reachable
    (P := fun s : GlobalScheduler => (s.config.ctxAware = true ∧ (s.task 0).isScheduled = false ∧
      s.getEngineList [0] (s.groupBound [0]) = .ok [0, 1]) ∧ s.HasPrefix 0 0 ∧ ¬ s.HasPrefix 0 1 ∧
      ∀ x ∈ ([1] : List EngineRef), s.upperbound 0 ≤ s.upperbound x ∧
        s.remaining 0 ≤ s.remaining x)
    (cachedInFirst 2000 2000)
    (show (system EngineManager.charTokenizer { ctxAware := true } 3).Reachable _ from .init rfl)
    (by decide +kernel)
  obtain ⟨g, hg, hfinds, hiff⟩ := context_aware_iff s hctx hfree hlist ⟨0, by decide, h0⟩
  have hprefix := hiff.mpr ⟨[], 0, [1], rfl, h0, hkeys⟩
  rcases List.mem_pair.mp hg with rfl | rfl
  · exact ⟨s, hfinds, h0, h1⟩
  · exact absurd hprefix h1

/-- With less room in the engine behind it, the request goes to that one. -/
theorem cached_prefix_lost :
    ∃ s, (system EngineManager.charTokenizer { ctxAware := true } 3).Reachable s ∧
      s.getEngineList [0] (s.groupBound [0]) = .ok [0, 1] ∧ s.HasPrefix 0 0 ∧
      s.FindsEngine [0] 1 ∧ ¬ s.HasPrefix 0 1 :=
  TransitionSystem.RunsTo.reachable
    (P := fun s : GlobalScheduler => s.getEngineList [0] (s.groupBound [0]) = .ok [0, 1] ∧
      s.HasPrefix 0 0 ∧ s.FindsEngine [0] 1 ∧ ¬ s.HasPrefix 0 1)
    (cachedInFirst 2000 1000)
    (show (system EngineManager.charTokenizer { ctxAware := true } 3).Reachable _ from .init rfl)
    (by decide +kernel)

/-! ## The order of registration -/

/-- The scheduler with its engines registered in another order. -/
def withEngines (s : GlobalScheduler) (engines : Dict ℕ EngineRef) : GlobalScheduler :=
  { s with engineMgr := { s.engineMgr with engines } }

/-- The check looks at the tasks, not at the registry. -/
lemma checkEngineAvailable_withEngines (engines : Dict ℕ EngineRef) :
    (s.withEngines engines).checkEngineAvailable = s.checkEngineAvailable := by
  have htotal : ∀ name ts, (s.withEngines engines).totalTokensNum name ts =
      s.totalTokensNum name ts := by
    intro name ts
    induction ts with
    | nil => rfl
    | cons t ts ih =>
        simp only [totalTokensNum, ih]
        rfl
  funext tasks models modelType bound engine
  unfold checkEngineAvailable
  rw [htotal]

/-- The list of the available engines: those that pass the check, when no check raises. -/
lemma getEngineList_eq_ok_iff {first : TaskRef} {rest : List TaskRef} {bound : ℤ}
    {list : List EngineRef} :
    s.getEngineList (first :: rest) bound = .ok list ↔
      ∃ modelType, getModelType (s.task first).chain.modelType = .ok modelType ∧
        s.filterEngines (s.checkEngineAvailable (first :: rest) (s.task first).chain.models
          modelType bound) s.engineMgr.getLiveEngines = .ok list := by
  simp only [getEngineList]
  cases getModelType (s.task first).chain.modelType with
  | error e => simp
  | ok modelType => simp

/-- The last element of a list is the last of what a filter keeps. -/
lemma exists_filter_concat {α : Type*} {p : α → Bool} {l pre : List α} {a : α}
    (hl : l = pre ++ [a]) (ha : p a = true) : ∃ pre', l.filter p = pre' ++ [a] :=
  ⟨pre.filter p, by rw [hl, List.filter_append, List.filter_cons_of_pos ha, List.filter_nil]⟩

/-- Registered in another order, the same engines are available; and the one that was registered
last is the last of the list. -/
lemma getEngineList_withEngines {first : TaskRef} {rest : List TaskRef} {bound : ℤ}
    {list : List EngineRef} (hlist : s.getEngineList (first :: rest) bound = .ok list)
    {engines : Dict ℕ EngineRef} (hperm : engines.entries.Perm s.engineMgr.engines.entries) :
    ∃ list', (s.withEngines engines).getEngineList (first :: rest) bound = .ok list' ∧
      list'.Perm list ∧
      ∀ pre k, ∀ g ∈ list, engines.entries = pre ++ [(k, g)] → ∃ pre', list' = pre' ++ [g] := by
  obtain ⟨modelType, htype, hfilter⟩ := getEngineList_eq_ok_iff.mp hlist
  obtain ⟨hall, rfl⟩ := (filterEngines_eq_ok_iff _).mp hfilter
  have hvalues : engines.values.Perm s.engineMgr.engines.values := hperm.map Prod.snd
  have hlive : (s.withEngines engines).engineMgr.getLiveEngines.Perm s.engineMgr.getLiveEngines :=
    hvalues.filter _
  refine ⟨List.filter (s.passes (s.checkEngineAvailable (first :: rest)
    (s.task first).chain.models modelType bound)) (s.withEngines engines).engineMgr.getLiveEngines,
    getEngineList_eq_ok_iff.mpr ⟨modelType, htype, ?_⟩, hlive.filter _, ?_⟩
  · rw [checkEngineAvailable_withEngines]
    exact (filterEngines_eq_ok_iff _).mpr ⟨fun g hg => hall g (hlive.mem_iff.mp hg), rfl⟩
  intro pre k g hg hlast
  obtain ⟨hg, hpass⟩ := List.mem_filter.mp hg
  obtain ⟨-, hrun⟩ := List.mem_filter.mp hg
  have hvals : engines.values = pre.map Prod.snd ++ [g] := by
    unfold Dict.values
    rw [hlast, List.map_append]
    rfl
  have hlive' : ∃ l, (s.withEngines engines).engineMgr.getLiveEngines = l ++ [g] :=
    exists_filter_concat (p := fun g => (s.engineMgr.obj g).isRunning) hvals hrun
  obtain ⟨l, hl⟩ := hlive'
  exact exists_filter_concat hl hpass

/-- An engine can be registered last. -/
lemma exists_registered_last {g : EngineRef} (hg : g ∈ s.engineMgr.engines.values) :
    ∃ engines : Dict ℕ EngineRef, engines.entries.Perm s.engineMgr.engines.entries ∧
      ∃ pre k, engines.entries = pre ++ [(k, g)] := by
  obtain ⟨⟨k, g⟩, hmem, rfl⟩ := List.mem_map.mp hg
  obtain ⟨pre, post, heq⟩ := List.append_of_mem hmem
  have hperm : (pre ++ post ++ [(k, g)]).Perm s.engineMgr.engines.entries := by
    rw [heq, List.append_assoc]
    exact List.perm_append_left_iff pre |>.mpr (List.perm_append_singleton _ _)
  refine ⟨⟨pre ++ post ++ [(k, g)], ?_⟩, hperm, pre ++ post, k, rfl⟩
  exact (hperm.map Prod.fst).nodup_iff.mpr s.engineMgr.engines.nodup

/-- In every order of registration, the group goes to an engine with the two numbers of `g`. -/
def OrderFree (s : GlobalScheduler) (tasks : List TaskRef) (g : EngineRef) : Prop :=
  ∀ engines : Dict ℕ EngineRef, engines.entries.Perm s.engineMgr.engines.entries →
    ∃ h, (s.withEngines engines).FindsEngine tasks h ∧
      s.upperbound h = s.upperbound g ∧ s.remaining h = s.remaining g

/-- In another order of registration the group goes to an engine of the same list. -/
lemma exists_findsEngine_withEngines (hctx : s.config.ctxAware = false) {first : TaskRef}
    {rest : List TaskRef} {list : List EngineRef}
    (hlist : s.getEngineList (first :: rest) (s.groupBound (first :: rest)) = .ok list)
    (hne : list ≠ []) {engines : Dict ℕ EngineRef}
    (hperm : engines.entries.Perm s.engineMgr.engines.entries) :
    ∃ h list', (s.withEngines engines).FindsEngine (first :: rest) h ∧ list'.Perm list ∧
      Survives (KeysLe s.upperbound s.remaining) h list' ∧
      (∀ x, Survives (KeysLe s.upperbound s.remaining) x list' →
        KeysLe s.upperbound s.remaining h x) ∧
      ∀ pre k, ∀ g ∈ list, engines.entries = pre ++ [(k, g)] → ∃ pre', list' = pre' ++ [g] := by
  obtain ⟨list', hlist', hperm', hlast⟩ := getEngineList_withEngines hlist hperm
  have hne' : list' ≠ [] := fun hnil => hne (List.nil_perm.mp (hnil ▸ hperm'))
  have hstays : (s.withEngines engines).Stays first = KeysLe s.upperbound s.remaining := by
    funext a b
    exact propext (stays_iff_keysLe hctx)
  obtain ⟨h, hh, hs, hbeats⟩ := findEngine_survives (s := s.withEngines engines)
    (fun hc => absurd (hctx.symm.trans hc) Bool.false_ne_true) hlist' hne'
  rw [hstays] at hs hbeats
  exact ⟨h, list', hh, hperm', hs, hbeats, hlast⟩

/-- Without `ctx_aware`, the group goes to the engine with the smallest bound, and of those the
smallest remaining capacity, exactly when one such engine has no engine with a smaller remaining
capacity behind it; and this is so in every order of registration, with the same two numbers,
exactly when one engine has the smallest bound and the smallest remaining capacity. -/
theorem lex_least_iff (s : GlobalScheduler) (hctx : s.config.ctxAware = false)
    {first : TaskRef} {rest : List TaskRef} {list : List EngineRef}
    (hlist : s.getEngineList (first :: rest) (s.groupBound (first :: rest)) = .ok list)
    (hne : list ≠ []) :
    ∃ g, s.FindsEngine (first :: rest) g ∧
      (LexLeast s.upperbound s.remaining g list ↔ ∃ pre m post, list = pre ++ m :: post ∧
        LexLeast s.upperbound s.remaining m list ∧ ∀ x ∈ post, s.remaining m ≤ s.remaining x) ∧
      (LexLeast s.upperbound s.remaining g list ∧ s.OrderFree (first :: rest) g ↔
        ∃ m ∈ list, ∀ x ∈ list, s.upperbound m ≤ s.upperbound x ∧
          s.remaining m ≤ s.remaining x) := by
  have hstays : s.Stays first = KeysLe s.upperbound s.remaining := by
    funext a b
    exact propext (stays_iff_keysLe hctx)
  obtain ⟨g, hg, hs, hbeats⟩ := findEngine_survives
    (fun hc => absurd (hctx.symm.trans hc) Bool.false_ne_true) hlist hne
  rw [hstays] at hs hbeats
  refine ⟨g, hg, ?_, ?_⟩
  · exact lexLeast_iff_of_first hs hbeats
  · constructor
    · -- registered last, no engine has a number smaller than those of `g`
      rintro ⟨-, hfree⟩
      refine ⟨g, hs.mem, fun y hy => ?_⟩
      obtain ⟨modelType, -, hfilter⟩ := getEngineList_eq_ok_iff.mp hlist
      have hlive := (filterEngines_ok _ hfilter y hy).1
      obtain ⟨engines, hperm, pre, k, hlast⟩ :=
        exists_registered_last (List.mem_filter.mp hlive).1
      obtain ⟨h, list', hh, -, hs', -, hlast'⟩ :=
        exists_findsEngine_withEngines hctx hlist hne hperm
      obtain ⟨pre', rfl⟩ := hlast' pre k y hy hlast
      obtain ⟨h', hh', hub, hcap⟩ := hfree engines hperm
      obtain rfl := hh.unique (List.cons_ne_nil _ _) hh'
      rw [← hub, ← hcap]
      exact hs'.beats_last KeysLe.refl
    · rintro ⟨m, hm, hleast⟩
      have hsurvives : ∀ l : List EngineRef, l.Perm list →
          Survives (KeysLe s.upperbound s.remaining) m l := by
        intro l hl
        obtain ⟨pre, post, rfl⟩ := List.append_of_mem (hl.mem_iff.mpr hm)
        exact ⟨pre, post, rfl, fun y hy =>
          hleast y (hl.mem_iff.mp (List.mem_append_right _ (List.mem_cons_of_mem _ hy)))⟩
      have hgm := hbeats m (hsurvives _ (.refl _))
      refine ⟨⟨hs.mem, fun y hy => Prod.Lex.toLex_mono (hgm.trans g m y (hleast y hy))⟩, ?_⟩
      intro engines hperm
      obtain ⟨h, list', hh, hperm', hs', hbeats', -⟩ :=
        exists_findsEngine_withEngines hctx hlist hne hperm
      have hhm := hbeats' m (hsurvives _ hperm')
      have hmh := hleast h (hperm'.mem_iff.mp hs'.mem)
      have hmg := hleast g hs.mem
      exact ⟨h, hh, le_antisymm (hhm.1.trans hmg.1) (hgm.1.trans hmh.1),
        le_antisymm (hhm.2.trans hmg.2) (hgm.2.trans hmh.2)⟩

/-- An engine with room for `m` tokens and a task that wants at most four there, an engine with room
for `n` tokens and none, and a request. -/
def boundInFirst (m n : ℕ) : List Action :=
  [.engineMgr (.registerEngine { model := ['a'], tokenizer := ['t'], tokensCapacity := m } 0),
    .submitChain (groupChain 0 []) 4, .schedule,
    .engineMgr (.registerEngine { model := ['a'], tokenizer := ['t'], tokensCapacity := n } 0),
    .submitChain (groupChain 0 []) 256]

/-- The first engine has the smallest bound and the smallest remaining capacity: the request goes
there in every order. -/
theorem lex_least_iff_both :
    ∃ s : GlobalScheduler, s.FindsEngine [1] 0 ∧ s.OrderFree [1] 0 := by
  obtain ⟨s, -, hctx, hlist, hkeys, hub⟩ := TransitionSystem.RunsTo.reachable
    (P := fun s : GlobalScheduler => s.config.ctxAware = false ∧
      s.getEngineList [1] (s.groupBound [1]) = .ok [0, 1] ∧
      (∀ x ∈ ([0, 1] : List EngineRef), s.upperbound 0 ≤ s.upperbound x ∧
        s.remaining 0 ≤ s.remaining x) ∧ s.upperbound 0 < s.upperbound 1)
    (boundInFirst 2000 2000)
    (show (system EngineManager.charTokenizer {} 3).Reachable _ from .init rfl)
    (by decide +kernel)
  obtain ⟨g, hfinds, -, hiff⟩ := lex_least_iff s hctx hlist (List.cons_ne_nil _ _)
  obtain ⟨hleast, hfree⟩ := hiff.mpr ⟨0, by decide, hkeys⟩
  rcases List.mem_pair.mp hleast.1 with rfl | rfl
  · exact ⟨s, hfinds, hfree⟩
  · exact absurd hub (not_lt.mpr (hleast.fst_le (by decide)))

/-- The second engine has less room: the request goes there, and not to the one with the smallest
bound. -/
theorem not_lex_least :
    ∃ s, (system EngineManager.charTokenizer {} 3).Reachable s ∧
      s.getEngineList [1] (s.groupBound [1]) = .ok [0, 1] ∧ s.FindsEngine [1] 1 ∧
      ¬ LexLeast s.upperbound s.remaining 1 [0, 1] := by
  obtain ⟨s, hs, hlist, hfinds, hub⟩ := TransitionSystem.RunsTo.reachable
    (P := fun s : GlobalScheduler => s.getEngineList [1] (s.groupBound [1]) = .ok [0, 1] ∧
      s.FindsEngine [1] 1 ∧ s.upperbound 0 < s.upperbound 1)
    (boundInFirst 2000 1000)
    (show (system EngineManager.charTokenizer {} 3).Reachable _ from .init rfl)
    (by decide +kernel)
  exact ⟨s, hs, hlist, hfinds, fun h => absurd hub (not_lt.mpr (h.fst_le (by decide)))⟩

end GlobalScheduler

end ParrotServe
