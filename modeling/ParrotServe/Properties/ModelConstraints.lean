import ParrotServe.Properties.TaskAccounting

/-!
# The models a request asks for

A request names a model type, and may list the models it accepts.  `_get_engine_list` looks for
engines that suit the first task of a group; the grouping loop reads the models of the other
tasks and does not compare them.  So a task may be dispatched to an engine it does not accept,
when an earlier task with other models shares a consumer or a first variable with it.

`UniformGroup` is the condition on a group: a live engine that suits its first task suits them
all.  `model_constraints` is the statement over the runs in which the groups of the queue meet it
before each pass; `other_model` is a run of two tasks with one first variable.
-/

namespace ParrotServe

namespace GlobalScheduler

variable {s s' : GlobalScheduler} {fromPretrained : Text → Except PyError HFTokenizer}

/-- The engine is of the model type, and has one of the models, of the task's metadata. -/
def Suits (s : GlobalScheduler) (t : TaskRef) (g : EngineRef) : Prop :=
  (getModelType (s.task t).chain.modelType).toOption = some (s.engine g).model.modelType ∧
    ((s.task t).chain.models = [] ∨ (s.engine g).modelName ∈ (s.task t).chain.models)

instance (s : GlobalScheduler) (t : TaskRef) (g : EngineRef) : Decidable (s.Suits t g) :=
  inferInstanceAs (Decidable (_ ∧ _))

/-- Every task was dispatched to an engine that suits it. -/
def Suited (s : GlobalScheduler) : Prop := ∀ d ∈ s.dispatches, s.Suits d.1 d.2

/-- A live engine that suits the first task of the group suits the others. -/
def UniformGroup (s : GlobalScheduler) (group : List TaskRef) : Prop :=
  ∀ first ∈ group.head?, ∀ t ∈ group, ∀ g ∈ s.engineMgr.getLiveEngines,
    s.Suits first g → s.Suits t g

instance (s : GlobalScheduler) (group : List TaskRef) : Decidable (s.UniformGroup group) := by
  unfold UniformGroup
  infer_instance

/-- The groups of the queue before a pass are uniform. -/
def UniformGuard (s : GlobalScheduler) : Action → Prop
  | .schedule => ∀ p ∈ s.queueGroups s.sortedQueue, s.UniformGroup p.2
  | _ => True

instance (s : GlobalScheduler) : ∀ a, Decidable (s.UniformGuard a)
  | .schedule => inferInstanceAs (Decidable (∀ p ∈ s.queueGroups s.sortedQueue, _))
  | .engineMgr _ => .isTrue trivial
  | .cachePrefixes _ => .isTrue trivial
  | .submitChain _ _ => .isTrue trivial
  | .joinGroup _ _ => .isTrue trivial
  | .freeTask _ => .isTrue trivial

/-! ## What a step keeps -/

lemma suits_congr {t : TaskRef} {g : EngineRef}
    (hmodel : (s'.engine g).model = (s.engine g).model)
    (htype : (s'.task t).chain.modelType = (s.task t).chain.modelType)
    (hmodels : (s'.task t).chain.models = (s.task t).chain.models) :
    s'.Suits t g ↔ s.Suits t g := by
  unfold Suits ExecutionEngine.modelName
  rw [hmodel, htype, hmodels]

lemma Frame.suits (hf : Frame s s') (t : TaskRef) (g : EngineRef) :
    s'.Suits t g ↔ s.Suits t g :=
  suits_congr (hf.model g) (by rw [hf.chain]) (by rw [hf.chain])

lemma Frame.uniformGroup (hf : Frame s s') {group : List TaskRef} (h : s.UniformGroup group) :
    s'.UniformGroup group := by
  intro first hfirst t ht g hg hsuits
  rw [hf.getLiveEngines] at hg
  rw [hf.suits] at hsuits ⊢
  exact h first hfirst t ht g hg hsuits

/-- `Suited`, and the dispatches name tasks and engines. -/
structure SuitedInv (s : GlobalScheduler) : Prop where
  suited : Suited s
  lt_next : ∀ d ∈ s.dispatches, d.1 < s.nextTask ∧ d.2 < s.engineMgr.next

/-- An engine that passed the check suits the first task. -/
lemma Available.suits {first : TaskRef} {rest : List TaskRef} {modelType : ModelType} {bound : ℤ}
    {g : EngineRef} (htype : getModelType (s.task first).chain.modelType = .ok modelType)
    (hav : Available s (first :: rest) (s.task first).chain.models modelType bound (s.engine g)) :
    s.Suits first g := by
  refine ⟨?_, hav.models_nil_or_mem⟩
  rw [htype, hav.type_eq]
  rfl

lemma SuitedInv.dispatch (h : SuitedInv s) {g : EngineRef} (hg : g < s.engineMgr.next)
    {ts : List TaskRef} (hts : ∀ t ∈ ts, t < s.nextTask ∧ s.Suits t g)
    (hok : GlobalScheduler.dispatch g ts s = .ok s') : SuitedInv s' := by
  refine (dispatch_rule (P := fun us x => SuitedInv x ∧ Frame s x ∧ us ⊆ ts)
    (fun t us x n hP _ => ?_) ts ⟨h, .refl s, List.Subset.refl _⟩ hok).1
  obtain ⟨hx, hf, hsub⟩ := hP
  have hstep := scheduled_frame x t g n
  have hf' := hf.trans hstep
  have hmem : ∀ d ∈ (x.scheduled t g n).dispatches, d ∈ x.dispatches ∨ d = (t, g) := fun d hd => by
    rcases List.mem_append.mp hd with hd | hd
    · exact .inl hd
    · exact .inr (List.mem_singleton.mp hd)
  obtain ⟨ht, hsuits⟩ := hts t (hsub List.mem_cons_self)
  refine ⟨⟨fun d hd => ?_, fun d hd => ?_⟩, hf', fun t' ht' => hsub (List.mem_cons_of_mem _ ht')⟩
  · rcases hmem d hd with hd | rfl
    · exact (hstep.suits _ _).mpr (hx.suited d hd)
    · exact (hf'.suits _ _).mpr hsuits
  · rcases hmem d hd with hd | rfl
    · exact hx.lt_next d hd
    · exact ⟨hf'.nextTask ▸ ht, hf'.next ▸ hg⟩

lemma SuitedInv.schedule (h : SuitedInv s) (hi : TasksInv s) (hq : QueueInv s)
    (huniform : ∀ p ∈ s.queueGroups s.sortedQueue, s.UniformGroup p.2)
    (hok : GlobalScheduler.schedule s = .ok s') : SuitedInv s' := by
  obtain ⟨s₁, hloop, rfl⟩ := schedule_ok hok
  have hperm := s.sortedQueue_perm
  have h₁ : SuitedInv s₁ := by
    refine (scheduleLoop_rule (P := fun l x => SuitedInv x ∧ TasksInv x ∧
      (∀ p ∈ x.queueGroups l, x.UniformGroup p.2) ∧ ∀ t ∈ l, t < x.nextTask)
      (fun t rest x hP _ => ?_) (fun t rest x x' g hP _ hfor hdis => ?_) s.sortedQueue
      ⟨h, hi, huniform, fun t ht => hq.lt_next t (hperm.mem_iff.mp ht)⟩ hloop).1
    · obtain ⟨hx, hxi, hgroups, hlt⟩ := hP
      exact ⟨hx, hxi, fun p hp => hgroups p (List.mem_cons_of_mem _ hp),
        fun t' ht' => hlt t' (List.mem_cons_of_mem _ ht')⟩
    · obtain ⟨hx, hxi, hgroups, hlt⟩ := hP
      have hQ := hgroups _ List.mem_cons_self
      have hf := dispatch_frame hdis
      obtain ⟨first, others, modelType, hcons, htype, hlive, hav⟩ := engineFor_ok hfor
      have hmem := lt_of_mem_formGroup (s := x) hlt
      have hg := hxi.live_lt hlive
      have hfirst : x.Suits first g := by
        rw [hcons] at hav
        exact hav.suits htype
      have hall : ∀ t' ∈ x.formGroup t rest, t' < x.nextTask ∧ x.Suits t' g := fun t' ht' =>
        ⟨hmem t' ht', hQ first (by rw [hcons]; rfl) t' ht' g hlive hfirst⟩
      refine ⟨hx.dispatch hg hall hdis, hxi.dispatch hmem hg hdis, fun p hp => ?_, fun t' ht' => ?_⟩
      · rw [hf.queueGroups] at hp
        exact hf.uniformGroup (hgroups p (List.mem_cons_of_mem _ hp))
      · rw [hf.nextTask]
        exact hlt t' (List.mem_cons_of_mem _ ht')
  exact ⟨h₁.suited, h₁.lt_next⟩

/-- A step that dispatches nothing. -/
lemma SuitedInv.congr (h : SuitedInv s) (hdis : s'.dispatches = s.dispatches)
    (hnext : s.nextTask ≤ s'.nextTask) (hengines : s.engineMgr.next ≤ s'.engineMgr.next)
    (hmodel : ∀ g < s.engineMgr.next, (s'.engine g).model = (s.engine g).model)
    (htask : ∀ t < s.nextTask, (s'.task t).chain.modelType = (s.task t).chain.modelType ∧
      (s'.task t).chain.models = (s.task t).chain.models) : SuitedInv s' := by
  refine ⟨fun d hd => ?_, fun d hd => ?_⟩
  · rw [hdis] at hd
    obtain ⟨ht, hg⟩ := h.lt_next d hd
    exact (suits_congr (hmodel _ hg) (htask _ ht).1 (htask _ ht).2).mpr (h.suited d hd)
  · rw [hdis] at hd
    obtain ⟨ht, hg⟩ := h.lt_next d hd
    exact ⟨ht.trans_le hnext, hg.trans_le hengines⟩

lemma SuitedInv.apply (h : SuitedInv s) (hi : TasksInv s) (hq : QueueInv s) {a : Action}
    (hg : s.UniformGuard a) (hok : GlobalScheduler.apply s fromPretrained a = .ok s') :
    SuitedInv s' := by
  cases a with
  | engineMgr a =>
      rw [callEngineMgr_ok hok]
      have hc := EngineManager.perform_continues fromPretrained s.engineMgr a
      exact h.congr rfl (Nat.le_refl _) hc.next_le hc.model fun _ _ => ⟨rfl, rfl⟩
  | cachePrefixes caches =>
      cases hok
      exact h.congr rfl (Nat.le_refl _) (Nat.le_refl _) (fun _ _ => rfl) fun _ _ => ⟨rfl, rfl⟩
  | submitChain chain bound =>
      rcases submitChain_ok hok with rfl | ⟨taskId, pool, queue, -, -, rfl⟩
      · exact h
      · refine h.congr rfl (Nat.le_succ _) (Nat.le_refl _) (fun _ _ => rfl) fun t ht => ?_
        dsimp only
        rw [Function.update_of_ne ht.ne]
        exact ⟨rfl, rfl⟩
  | joinGroup t group =>
      cases hok
      refine h.congr rfl (Nat.le_refl _) (Nat.le_refl _) (fun _ _ => rfl) fun t' _ => ?_
      dsimp only
      rw [Function.update_apply]
      split
      · rename_i heq
        rw [heq]
        exact ⟨rfl, rfl⟩
      · exact ⟨rfl, rfl⟩
  | schedule => exact h.schedule hi hq hg hok
  | freeTask t =>
      obtain ⟨g, n, pool, -, -, -, rfl⟩ := freeTask_ok hok
      refine h.congr rfl (Nat.le_refl _) (Nat.le_refl _) (fun x _ => ?_) fun _ _ => ⟨rfl, rfl⟩
      rw [freed_engine]
      split
      · rename_i hxg
        rw [hxg]
      · rfl

/-! ## Runs -/

/-- In every run whose passes start from uniform groups, every task went to an engine that suits
it. -/
theorem model_constraints (fromPretrained : Text → Except PyError HFTokenizer)
    (config : GlobalSchedulerConfig) (timeout : ℤ) {s : GlobalScheduler}
    (hs : (system fromPretrained config timeout).ReachableUnder UniformGuard s) : Suited s := by
  have hinv : (system fromPretrained config timeout).IsInvariantUnder UniformGuard
      fun s => (TasksInv s ∧ QueueInv s) ∧ SuitedInv s :=
    (tasks_invariant fromPretrained config timeout UniformGuard).and (fun s h0 => by
      cases h0
      exact ⟨fun d hd => absurd hd List.not_mem_nil, fun d hd => absurd hd List.not_mem_nil⟩)
      fun s a s' hi h hg hst => h.apply hi.1 hi.2 hg hst.2
  exact (hinv.holds hs).2.suited

/-- Two requests with one first variable, the second for given models. -/
def twoRequests (models : List Text) : List Action :=
  [.engineMgr (.registerEngine { model := ['a'], tokenizer := ['t'] } 0),
    .submitChain (groupChain 0 []) 256, .submitChain { groupChain 0 [] with models } 256,
    .schedule]

/-- A request for the model of the engine joins the group of one for any model. -/
theorem model_constraints_group :
    ∃ s : GlobalScheduler, s.dispatches = [(0, 0), (1, 0)] ∧ Suited s := by
  obtain ⟨s, hs, hd⟩ := TransitionSystem.RunsTo.reachable
    (P := fun s : GlobalScheduler => s.dispatches = [(0, 0), (1, 0)])
    (twoRequests [['a'], ['b']])
    (show (system EngineManager.charTokenizer { ctxGroup := true } 3).ReachableUnder
      UniformGuard _ from .init rfl) (by decide +kernel)
  exact ⟨s, hd, model_constraints EngineManager.charTokenizer { ctxGroup := true } 3 hs⟩

/-- A request for another model goes with it all the same. -/
theorem other_model :
    ∃ s, (system EngineManager.charTokenizer { ctxGroup := true } 3).Reachable s ∧
      ¬ Suited s := by
  obtain ⟨s, hs, hd, hnot⟩ := TransitionSystem.RunsTo.reachable
    (P := fun s : GlobalScheduler => (1, 0) ∈ s.dispatches ∧ ¬ s.Suits 1 0)
    (twoRequests [['b']])
    (show (system EngineManager.charTokenizer { ctxGroup := true } 3).Reachable _ from
      .init rfl) (by decide +kernel)
  exact ⟨s, hs, fun h => hnot (h _ hd)⟩

end GlobalScheduler

end ParrotServe
