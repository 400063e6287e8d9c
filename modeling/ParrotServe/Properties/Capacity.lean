import ParrotServe.Properties.TaskAccounting

/-!
# Engines are not overloaded

`check_engine_available` admits a group only where all its tasks, and all its tokens, fit in what
is left of the engine, so the counters never pass the capacities: `WithinCapacity`, in every run
and under every configuration.  A task that is dispatched again (see `Nested`) is counted again,
and fits again.

For the bounds that tasks bring, a group counts as one task; they are kept only where every group
is one task, i.e. without grouping.  Then the check compares the new count with the bound of the
new task and with the smallest bound of the tasks that are there, and `WithinBounds` holds.
`capacity_bounds` has both.

A length is a natural number here: a task whose `max_gen_length` is negative would make room on its
engine, and take it away when it leaves.
-/

namespace ParrotServe

namespace GlobalScheduler

/-- No engine has more tasks or tokens than it can take. -/
def WithinCapacity (s : GlobalScheduler) : Prop :=
  ∀ g < s.engineMgr.next,
    (s.engine g).serveLayerRuntimeInfo.numTasks ≤ (s.engine g).config.tasksCapacity ∧
      (s.engine g).serveLayerRuntimeInfo.tokensNum ≤ (s.engine g).config.tokensCapacity

/-- No engine has more tasks than a task on it wants there. -/
def WithinBounds (s : GlobalScheduler) : Prop :=
  ∀ g < s.engineMgr.next, ∀ t ∈ s.onEngine g,
    (s.engine g).serveLayerRuntimeInfo.numTasks ≤ (s.task t).tasksNumUpperbound

variable {s s' : GlobalScheduler} {fromPretrained : Text → Except PyError HFTokenizer}

/-! ## The counters over the dispatch of a group -/

/-- What a dispatch does to the counters, whether or not its tasks were scheduled before. -/
lemma dispatch_counts {g : EngineRef} {ts : List TaskRef} (hok : dispatch g ts s = .ok s') :
    (s'.engine g).serveLayerRuntimeInfo.numTasks =
        (s.engine g).serveLayerRuntimeInfo.numTasks + ts.length ∧
      (s'.engine g).serveLayerRuntimeInfo.tokensNum =
        (s.engine g).serveLayerRuntimeInfo.tokensNum + (ts.map (s.tokenCount g)).sum ∧
      ∀ h, h ≠ g → s'.engine h = s.engine h := by
  have h := dispatch_rule (g := g) (P := fun us x => Frame s x ∧
    (x.engine g).serveLayerRuntimeInfo.numTasks + us.length =
      (s.engine g).serveLayerRuntimeInfo.numTasks + ts.length ∧
    (x.engine g).serveLayerRuntimeInfo.tokensNum + (us.map (s.tokenCount g)).sum =
      (s.engine g).serveLayerRuntimeInfo.tokensNum + (ts.map (s.tokenCount g)).sum ∧
    ∀ h, h ≠ g → x.engine h = s.engine h) (fun t us x n hP hn => ?_) ts
    ⟨.refl s, rfl, rfl, fun _ _ => rfl⟩ hok
  · simpa using h.2
  · obtain ⟨hf, htasks, htokens, hother⟩ := hP
    have hcount : s.tokenCount g t = n := by
      rw [← hf.tokenCount]
      exact tokenCount_of_ok hn
    rw [List.map_cons, List.sum_cons, hcount] at htokens
    rw [List.length_cons] at htasks
    push_cast at htasks htokens ⊢
    refine ⟨hf.trans (scheduled_frame x t g n), ?_, ?_, fun h hne => ?_⟩
    · rw [scheduled_engine, if_pos rfl]
      dsimp only
      omega
    · rw [scheduled_engine, if_pos rfl]
      dsimp only
      omega
    · rw [scheduled_engine, if_neg hne]
      exact hother h hne

/-- The tokens of a group are those that dispatching it counts. -/
lemma totalTokensNum_eq {g : EngineRef} (htype : (s.engine g).model.modelType = .tokenId)
    (ts : List TaskRef) : ∀ {total : ℕ},
    s.totalTokensNum (s.engine g).model.tokenizerName ts = .ok total →
      total = (ts.map (s.tokenCount g)).sum := by
  induction ts with
  | nil =>
      intro total h
      cases h
      rfl
  | cons t ts ih =>
      intro total h
      unfold totalTokensNum at h
      split at h
      · cases h
      · rename_i n hn
        split at h
        · cases h
        · rename_i rest hrest
          cases h
          have hcount : s.tokenCount g t = n := by
            refine tokenCount_of_ok ?_
            unfold ExecutionEngine.tokensOf
            rw [htype]
            exact hn
          rw [List.map_cons, List.sum_cons, hcount, ← ih hrest]

/-- A group fits in its engine. -/
lemma WithinCapacity.dispatch (h : WithinCapacity s) {g : EngineRef} {ts : List TaskRef}
    {models : List Text} {modelType : ModelType} {bound : ℤ}
    (hav : Available s ts models modelType bound (s.engine g))
    (hok : GlobalScheduler.dispatch g ts s = .ok s') : WithinCapacity s' := by
  have hf := dispatch_frame hok
  obtain ⟨htasks, htokens, hother⟩ := dispatch_counts hok
  intro x hx
  rw [hf.next] at hx
  by_cases hxg : x = g
  · subst hxg
    rw [hf.engineConfig, htasks, htokens]
    have hcap := hav.le_capacity
    unfold ExecutionEngine.getRemainTasksCapacity at hcap
    refine ⟨by omega, ?_⟩
    cases htype : modelType with
    | tokenId =>
        obtain ⟨total, htotal, hle⟩ := hav.tokens_le htype
        have heq := totalTokensNum_eq (hav.type_eq.symm.trans htype) ts htotal
        unfold ExecutionEngine.getRemainTokensCapacity at hle
        omega
    | text =>
        have hzero : ∀ t, s.tokenCount x t = 0 := by
          intro t
          refine tokenCount_of_ok ?_
          unfold ExecutionEngine.tokensOf
          rw [← hav.type_eq, htype]
        have hsum : (ts.map (s.tokenCount x)).sum = 0 :=
          List.sum_eq_zero fun n hn => by
            obtain ⟨t, -, rfl⟩ := List.mem_map.mp hn
            exact hzero t
        rw [hsum]
        have := (h x hx).2
        omega
  · rw [hother x hxg]
    exact h x hx

/-- A pass keeps to the capacities. -/
lemma WithinCapacity.schedule (h : WithinCapacity s) (hok : GlobalScheduler.schedule s = .ok s') :
    WithinCapacity s' := by
  obtain ⟨s₁, hloop, rfl⟩ := schedule_ok hok
  have h₁ : WithinCapacity s₁ := by
    refine scheduleLoop_rule (P := fun _ x => WithinCapacity x) (fun _ _ _ hx _ => hx)
      (fun t rest x x' g hx _ hfor hdis => ?_) _ h hloop
    obtain ⟨first, others, modelType, -, -, -, hav⟩ := engineFor_ok hfor
    exact hx.dispatch hav hdis
  exact h₁

/-- The counters of a new engine are zero. -/
lemma WithinCapacity.continues {m : EngineManager} (h : WithinCapacity s)
    (hc : EngineManager.Continues s.engineMgr m) : WithinCapacity { s with engineMgr := m } := by
  intro g hg
  change (m.obj g).serveLayerRuntimeInfo.numTasks ≤ (m.obj g).config.tasksCapacity ∧
    (m.obj g).serveLayerRuntimeInfo.tokensNum ≤ (m.obj g).config.tokensCapacity
  by_cases hold : g < s.engineMgr.next
  · rw [hc.info g hold, hc.config g hold]
    exact h g hold
  · rw [hc.fresh g (Nat.le_of_not_lt hold) hg]
    exact ⟨Int.natCast_nonneg _, Int.natCast_nonneg _⟩

lemma WithinCapacity.apply (h : WithinCapacity s) {a : Action}
    (hok : GlobalScheduler.apply s fromPretrained a = .ok s') : WithinCapacity s' := by
  cases a with
  | engineMgr a =>
      rw [callEngineMgr_ok hok]
      exact h.continues (EngineManager.perform_continues fromPretrained s.engineMgr a)
  | cachePrefixes caches =>
      cases hok
      exact h.continues (EngineManager.SameEngines.continues ⟨rfl, rfl, rfl, rfl⟩)
  | submitChain chain bound =>
      rcases submitChain_ok hok with rfl | ⟨taskId, pool, queue, -, -, rfl⟩
      · exact h
      · exact h
  | joinGroup t group =>
      cases hok
      exact h
  | schedule => exact h.schedule hok
  | freeTask t =>
      obtain ⟨g, n, pool, -, -, -, rfl⟩ := freeTask_ok hok
      intro x hx
      have hx' := h x hx
      rw [freed_engine]
      split
      · rename_i hxg
        subst hxg
        dsimp only
        omega
      · exact hx'

/-! ## Without grouping -/

lemma apply_config {a : Action} (hok : s.apply fromPretrained a = .ok s') :
    s'.config = s.config := by
  cases a with
  | engineMgr a => rw [callEngineMgr_ok hok]
  | cachePrefixes caches =>
      cases hok
      rfl
  | submitChain chain bound =>
      rcases submitChain_ok hok with rfl | ⟨taskId, pool, queue, -, -, rfl⟩ <;> rfl
  | joinGroup t group =>
      cases hok
      rfl
  | schedule =>
      obtain ⟨s₁, hloop, rfl⟩ := schedule_ok hok
      exact (scheduleLoop_frame hloop).config
  | freeTask t =>
      obtain ⟨g, n, pool, -, -, -, rfl⟩ := freeTask_ok hok
      rfl

/-- The smallest bound on an engine is one for each task on it. -/
lemma Accounted.upperbound_le (h : Accounted s) {g : EngineRef} (hg : g < s.engineMgr.next)
    {t : TaskRef} (ht : t ∈ s.onEngine g) :
    (s.engine g).getTasksNumUpperbound ≤ (s.task t).tasksNumUpperbound := by
  have hget := (h.upperbounds g hg (s.task t).taskId _).mpr ⟨t, ht, rfl, rfl⟩
  have hmem := (s.engine g).serveLayerRuntimeInfo.tasksNumUpperbounds.mem_values.mpr ⟨_, hget⟩
  exact (foldl_min_le id _ _).2 _ hmem

/-- One more task, on an engine that passed the check for it. -/
lemma WithinBounds.scheduled (h : WithinBounds s) (ha : Accounted s) (hi : TasksInv s)
    {t : TaskRef} {g : EngineRef} {n : ℕ} {models : List Text} {modelType : ModelType}
    (ht : t < s.nextTask) (hg : g < s.engineMgr.next)
    (hfree : (s.task t).isScheduled = false)
    (hav : Available s [t] models modelType (s.groupBound [t]) (s.engine g)) :
    WithinBounds (s.scheduled t g n) := by
  have hnone : (s.task t).engine = none := by
    rw [hi.isScheduled] at hfree
    simpa using hfree
  have hleft : t ∉ s.left := fun hmem => by
    rw [hi.left t hmem] at hfree
    cases hfree
  intro x hx t' ht'
  rw [(scheduled_frame s t g n).tasksNumUpperbound, scheduled_engine]
  rw [onEngine_scheduled n ht hnone hleft] at ht'
  split
  · rename_i hxg
    subst hxg
    rw [if_pos rfl] at ht'
    dsimp only
    rcases Finset.mem_insert.mp ht' with rfl | ht'
    · have hbound := (foldl_min_le (fun t => ((s.task t).tasksNumUpperbound : ℤ)) [t']
        999999999).2 t' List.mem_cons_self
      have hle := hav.le_bound.trans hbound
      unfold ExecutionEngine.getNumTasks at hle
      omega
    · have hle := hav.le_upperbound.trans (ha.upperbound_le hg ht')
      unfold ExecutionEngine.getNumTasks at hle
      rw [List.length_singleton] at hle
      omega
  · rename_i hxg
    rw [if_neg hxg] at ht'
    exact h x hx t' ht'

/-- A pass without grouping keeps to the bounds. -/
lemma WithinBounds.schedule (h : WithinBounds s) (ha : Accounted s) (hi : TasksInv s)
    (hq : QueueInv s) (hgraph : s.config.graphGroup = false) (hctx : s.config.ctxGroup = false)
    (hok : GlobalScheduler.schedule s = .ok s') : WithinBounds s' := by
  obtain ⟨s₁, hloop, rfl⟩ := schedule_ok hok
  have hperm := s.sortedQueue_perm
  have h₁ := (scheduleLoop_rule (P := fun l x => WithinBounds x ∧
      Accounted x ∧ TasksInv x ∧ x.config = s.config ∧ ∀ t ∈ l, t < x.nextTask)
      (fun t rest x hP _ => ?_) (fun t rest x x' g hP hfree hfor hdis => ?_)
      s.sortedQueue ⟨h, ha, hi, rfl, fun t ht =>
        hq.lt_next t (hperm.mem_iff.mp ht)⟩ hloop).1
  · exact h₁
  · obtain ⟨hx, hxa, hxi, hconfig, hlt⟩ := hP
    exact ⟨hx, hxa, hxi, hconfig, fun t' ht' => hlt t' (List.mem_cons_of_mem _ ht')⟩
  · obtain ⟨hx, hxa, hxi, hconfig, hlt⟩ := hP
    have hsingle : x.formGroup t rest = [t] :=
      formGroup_eq_singleton (by rw [hconfig]; exact hgraph)
      (by rw [hconfig]; exact hctx) t rest
    rw [hsingle] at hfor hdis
    obtain ⟨first, others, modelType, hcons, -, hlive, hav⟩ := engineFor_ok hfor
    have hg := hxi.live_lt hlive
    have ht := hlt t List.mem_cons_self
    unfold GlobalScheduler.dispatch at hdis
    split at hdis
    · cases hdis
    · rename_i x₁ hto
      obtain ⟨n, hn, rfl⟩ := scheduleTo_ok hto
      cases hdis
      exact ⟨hx.scheduled hxa hxi ht hg hfree hav, hxa.scheduled hxi ht hg hfree hn,
        hxi.scheduled n ht hg, hconfig, fun t' ht' => hlt t' (List.mem_cons_of_mem _ ht')⟩

/-- A step that schedules nothing. -/
lemma WithinBounds.congr (h : WithinBounds s) (hi : TasksInv s)
    (hc : EngineManager.Continues s.engineMgr s'.engineMgr)
    (hon : ∀ g, s'.onEngine g ⊆ s.onEngine g)
    (htask : ∀ g, ∀ t ∈ s.onEngine g,
      (s'.task t).tasksNumUpperbound = (s.task t).tasksNumUpperbound) : WithinBounds s' := by
  intro g hg t ht
  have ht' := hon g ht
  have hold : g < s.engineMgr.next := (hi.engine_lt t g (mem_onEngine.mp ht').2.1).2
  have hinfo : (s'.engine g).serveLayerRuntimeInfo = (s.engine g).serveLayerRuntimeInfo :=
    hc.info g hold
  rw [hinfo, htask g t ht']
  exact h g hold t ht'

lemma WithinBounds.apply (h : WithinBounds s) (ha : Accounted s) (hi : TasksInv s)
    (hq : QueueInv s) (hgraph : s.config.graphGroup = false) (hctx : s.config.ctxGroup = false)
    {a : Action} (hok : GlobalScheduler.apply s fromPretrained a = .ok s') : WithinBounds s' := by
  cases a with
  | engineMgr a =>
      rw [callEngineMgr_ok hok]
      exact h.congr hi (EngineManager.perform_continues fromPretrained s.engineMgr a)
        (fun _ => Finset.Subset.refl _) fun _ _ _ => rfl
  | cachePrefixes caches =>
      cases hok
      exact h.congr hi (EngineManager.SameEngines.continues ⟨rfl, rfl, rfl, rfl⟩)
        (fun _ => Finset.Subset.refl _) fun _ _ _ => rfl
  | submitChain chain bound =>
      rcases submitChain_ok hok with rfl | ⟨taskId, pool, queue, -, -, rfl⟩
      · exact h
      · refine h.congr hi (.refl _) (fun g t ht => ?_) fun g t ht => ?_
        · obtain ⟨hlt, hg, hleft⟩ := mem_onEngine.mp ht
          dsimp only at hg
          rw [Function.update_apply] at hg
          split at hg
          · cases hg
          · exact mem_onEngine.mpr ⟨(hi.engine_lt t g hg).1, hg, hleft⟩
        · dsimp only
          rw [Function.update_of_ne (mem_onEngine.mp ht).1.ne]
  | joinGroup t group =>
      cases hok
      refine h.congr hi (.refl _) (fun g t' ht' => ?_) fun g t' _ => ?_
      · obtain ⟨hlt, hg, hleft⟩ := mem_onEngine.mp ht'
        refine mem_onEngine.mpr ⟨hlt, ?_, hleft⟩
        dsimp only at hg
        rw [Function.update_apply] at hg
        split at hg
        · rename_i heq
          exact heq ▸ hg
        · exact hg
      · dsimp only
        rw [Function.update_apply]
        split
        · rename_i heq
          rw [heq]
        · rfl
  | schedule => exact h.schedule ha hi hq hgraph hctx hok
  | freeTask t =>
      obtain ⟨g, n, pool, hg, -, -, rfl⟩ := freeTask_ok hok
      intro x hx t' ht'
      rw [onEngine_freed n pool hg] at ht'
      rw [freed_engine]
      split
      · rename_i hxg
        subst hxg
        rw [if_pos rfl] at ht'
        have hle := h x hx t' (Finset.mem_of_mem_erase ht')
        change _ - 1 ≤ ((s.task t').tasksNumUpperbound : ℤ)
        omega
      · rename_i hxg
        rw [if_neg hxg] at ht'
        exact h x hx t' ht'

/-! ## Runs -/

/-- What a run without grouping keeps. -/
structure UngroupedInv (config : GlobalSchedulerConfig) (s : GlobalScheduler) : Prop where
  config_eq : s.config = config
  tasks : TasksInv s
  queue : QueueInv s
  accounted : Accounted s
  bounds : WithinBounds s

end GlobalScheduler

end ParrotServe
