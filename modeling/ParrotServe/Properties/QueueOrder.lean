import ParrotServe.Properties.Capacity
import ParrotServe.Properties.EngineChoice
import ParrotServe.Properties.Tokenizations

/-!
# No overtaking in the queue

Without sorting and without grouping, of two tasks that the checks of the engines cannot tell
apart, `SameKind`, the one that was submitted later is not dispatched before the other.

A dispatch leaves every engine with at most the room it had: the numbers of tasks and tokens go up,
and the least bound does not rise, as the id of the task is new to the engine, `Fuller`.  So a
task that found no engine in a pass would find none in the rest of it, and nor would a later task
of its kind: `PassInv.refused`.  Between the passes the queue stays in the order of submission.

`no_overtaking` is the statement over runs.
-/

namespace ParrotServe

namespace GlobalScheduler

variable {s s' : GlobalScheduler} {fromPretrained : Text → Except PyError HFTokenizer}

/-! ## Engines fill up -/

/-- The engine is the same, with at most the room it had. -/
structure Fuller (e e' : ExecutionEngine) : Prop where
  model : e'.model = e.model
  numTasks_le : e.getNumTasks ≤ e'.getNumTasks
  upperbound_le : e'.getTasksNumUpperbound ≤ e.getTasksNumUpperbound
  tasksCapacity_le : e'.getRemainTasksCapacity ≤ e.getRemainTasksCapacity
  tokensCapacity_le : e'.getRemainTokensCapacity ≤ e.getRemainTokensCapacity

lemma Fuller.refl (e : ExecutionEngine) : Fuller e e := ⟨rfl, le_rfl, le_rfl, le_rfl, le_rfl⟩

/-- The id of a task that is not scheduled is new to every engine. -/
lemma Accounted.taskId_new (h : Accounted s) (hi : TasksInv s) {t : TaskRef}
    (ht : t < s.nextTask) (hfree : (s.task t).isScheduled = false) {g : EngineRef}
    (hg : g < s.engineMgr.next) :
    (s.task t).taskId ∉ (s.engine g).serveLayerRuntimeInfo.tasksNumUpperbounds.keys := by
  intro hmem
  obtain ⟨bound, hget⟩ := Dict.mem_keys _ |>.mp hmem
  obtain ⟨t', ht', hid, -⟩ := (h.upperbounds g hg _ bound).mp hget
  obtain ⟨hlt, hon, -⟩ := mem_onEngine.mp ht'
  obtain rfl := hi.taskId_inj t' hlt t ht hid
  rw [hi.isScheduled, hon] at hfree
  cases hfree

/-- A dispatch fills an engine. -/
lemma fuller_scheduled (h : Accounted s) (hi : TasksInv s) {t : TaskRef} (ht : t < s.nextTask)
    (hfree : (s.task t).isScheduled = false) {g : EngineRef} (hg : g < s.engineMgr.next) (n : ℕ)
    (x : EngineRef) : Fuller (s.engine x) ((s.scheduled t g n).engine x) := by
  rw [scheduled_engine]
  split
  · rename_i hxg
    subst hxg
    refine ⟨rfl, ?_, ?_, ?_, ?_⟩
    · unfold ExecutionEngine.getNumTasks
      dsimp only
      omega
    · unfold ExecutionEngine.getTasksNumUpperbound
      dsimp only
      rw [Dict.values_set_of_not_mem _ _ (h.taskId_new hi ht hfree hg), List.foldl_append]
      exact min_le_left _ _
    · unfold ExecutionEngine.getRemainTasksCapacity
      dsimp only
      omega
    · unfold ExecutionEngine.getRemainTokensCapacity
      dsimp only
      omega
  · exact .refl _

/-! ## Tasks of one kind -/

/-- The checks of the engines cannot tell the tasks apart. -/
structure SameKind (s : GlobalScheduler) (t₁ t₂ : TaskRef) : Prop where
  models : (s.task t₁).chain.models = (s.task t₂).chain.models
  modelType : (s.task t₁).chain.modelType = (s.task t₂).chain.modelType
  tasksNumUpperbound : (s.task t₁).tasksNumUpperbound = (s.task t₂).tasksNumUpperbound
  tokenNums : ∀ name, (s.task t₁).getTokenNums name = (s.task t₂).getTokenNums name

lemma SameKind.refl (t : TaskRef) : SameKind s t t := ⟨rfl, rfl, rfl, fun _ => rfl⟩

/-- Tasks of equal chains with equal token ids are of one kind. -/
lemma SameKind.of_eq {t₁ t₂ : TaskRef} (hchain : (s.task t₁).chain = (s.task t₂).chain)
    (hbound : (s.task t₁).tasksNumUpperbound = (s.task t₂).tasksNumUpperbound)
    (hres : (s.task t₁).tokenizedResult = (s.task t₂).tokenizedResult) : SameKind s t₁ t₂ := by
  refine ⟨by rw [hchain], by rw [hchain], hbound, fun name => ?_⟩
  unfold CompletionTask.getTokenNums
  rw [hres, hchain]

/-- What the checks read of two tasks stays as it is. -/
lemma SameKind.congr {t₁ t₂ : TaskRef} (h : SameKind s' t₁ t₂)
    (htask : ∀ t, t = t₁ ∨ t = t₂ → (s'.task t).chain.models = (s.task t).chain.models ∧
      (s'.task t).chain.modelType = (s.task t).chain.modelType ∧
      (s'.task t).tasksNumUpperbound = (s.task t).tasksNumUpperbound ∧
      ∀ name, (s'.task t).getTokenNums name = (s.task t).getTokenNums name) :
    SameKind s t₁ t₂ := by
  obtain ⟨hm₁, ht₁, hb₁, hn₁⟩ := htask t₁ (.inl rfl)
  obtain ⟨hm₂, ht₂, hb₂, hn₂⟩ := htask t₂ (.inr rfl)
  refine ⟨?_, ?_, ?_, fun name => ?_⟩
  · rw [← hm₁, ← hm₂]
    exact h.models
  · rw [← ht₁, ← ht₂]
    exact h.modelType
  · rw [← hb₁, ← hb₂]
    exact h.tasksNumUpperbound
  · rw [← hn₁, ← hn₂]
    exact h.tokenNums name

lemma Frame.getTokenNums (hf : Frame s s') (t : TaskRef) (name : Text) :
    (s'.task t).getTokenNums name = (s.task t).getTokenNums name := by
  unfold CompletionTask.getTokenNums
  rw [hf.tokenizedResult, hf.chain]

lemma Frame.sameKind (hf : Frame s s') {t₁ t₂ : TaskRef} (h : SameKind s' t₁ t₂) :
    SameKind s t₁ t₂ :=
  h.congr fun t _ => ⟨by rw [hf.chain], by rw [hf.chain], hf.tasksNumUpperbound t,
    hf.getTokenNums t⟩

/-! ## Finding an engine -/

/-- A live engine passes the check for the task. -/
def HasEngine (s : GlobalScheduler) (t : TaskRef) : Prop :=
  ∃ modelType, getModelType (s.task t).chain.modelType = .ok modelType ∧
    ∃ g ∈ s.engineMgr.getLiveEngines, Available s [t] (s.task t).chain.models modelType
      (s.groupBound [t]) (s.engine g)

lemma hasEngine_of_some {t : TaskRef} {g : EngineRef} (h : s.engineFor [t] = .ok (some g)) :
    HasEngine s t := by
  obtain ⟨first, rest, modelType, heq, htype, hlive, hav⟩ := engineFor_ok h
  obtain ⟨rfl, rfl⟩ : t = first ∧ [] = rest := by simpa using heq
  exact ⟨modelType, htype, g, hlive, hav⟩

/-- An engine with all that is checked passes the check. -/
lemma Available.check {tasks : List TaskRef} {models : List Text} {modelType : ModelType}
    {bound : ℤ} {engine : ExecutionEngine}
    (h : Available s tasks models modelType bound engine) :
    s.checkEngineAvailable tasks models modelType bound engine = .ok true := by
  have hmodels : ¬ (0 < models.length ∧ engine.modelName ∉ models) := by
    rintro ⟨hpos, hnot⟩
    rcases h.models_nil_or_mem with rfl | hmem
    · exact absurd hpos (Nat.lt_irrefl 0)
    · exact hnot hmem
  unfold checkEngineAvailable
  rw [if_neg (not_not.mpr h.type_eq), if_neg hmodels, if_neg (not_lt.mpr h.le_bound),
    if_neg (not_lt.mpr h.le_upperbound), if_neg (not_lt.mpr h.le_capacity)]
  cases hm : modelType with
  | text => rfl
  | tokenId =>
      obtain ⟨total, htotal, hle⟩ := h.tokens_le hm
      simp only [htotal, hle, decide_true]

/-- A task without an engine had none to find. -/
lemma not_hasEngine_of_none {t : TaskRef} (h : s.engineFor [t] = .ok none) : ¬ HasEngine s t := by
  rintro ⟨modelType, htype, g, hlive, hav⟩
  unfold engineFor at h
  dsimp only at h
  split at h
  · cases h
  · rename_i list hlist
    have hnil : list = [] := by
      cases list with
      | nil => rfl
      | cons x gs =>
          simp only [bestEngine] at h
          split at h <;> cases h
    obtain ⟨modelType', htype', hfilter⟩ := getEngineList_eq_ok_iff.mp hlist
    obtain rfl : modelType = modelType' := by simpa [htype] using htype'
    obtain ⟨-, heq⟩ := (filterEngines_eq_ok_iff _).mp hfilter
    have hpass : s.passes (s.checkEngineAvailable [t] (s.task t).chain.models modelType
        (s.groupBound [t])) g = true := by
      simp only [passes, hav.check]
    have hmem : g ∈ list := heq ▸ List.mem_filter.mpr ⟨hlive, hpass⟩
    exact absurd (hnil ▸ hmem) List.not_mem_nil

/-- When the engines have filled up, a task finds an engine only if one of its kind did before. -/
lemma HasEngine.mono (hf : Frame s s') (hfull : ∀ g, Fuller (s.engine g) (s'.engine g))
    {t₁ t₂ : TaskRef} (hkind : SameKind s t₁ t₂) (h : HasEngine s' t₂) : HasEngine s t₁ := by
  obtain ⟨modelType, htype, g, hlive, hav⟩ := h
  have hbound : s.groupBound [t₁] = s'.groupBound [t₂] := by
    simp only [groupBound, List.foldl_cons, List.foldl_nil, hf.tasksNumUpperbound,
      hkind.tasksNumUpperbound]
  have htotal : ∀ name, s.totalTokensNum name [t₁] = s'.totalTokensNum name [t₂] := fun name => by
    simp only [totalTokensNum, hf.getTokenNums, hkind.tokenNums]
  have hg := hfull g
  have hle₁ := hav.le_bound
  have hle₂ := hav.le_upperbound
  have hle₃ := hav.le_capacity
  rw [List.length_singleton] at hle₂ hle₃
  rw [hf.chain] at htype hav
  refine ⟨modelType, by rw [hkind.modelType]; exact htype, g, hf.getLiveEngines ▸ hlive,
    hav.type_eq.trans (by rw [hg.model]), ?_, ?_, ?_, ?_, fun hm => ?_⟩
  · have hname : (s'.engine g).modelName = (s.engine g).modelName :=
      congrArg LanguageModel.modelName hg.model
    rw [hkind.models, ← hname]
    exact hav.models_nil_or_mem
  · rw [hbound]
    exact (add_le_add_right hg.numTasks_le 1).trans hle₁
  · rw [List.length_singleton]
    exact (add_le_add_right hg.numTasks_le _).trans (hle₂.trans hg.upperbound_le)
  · rw [List.length_singleton]
    exact hle₃.trans hg.tasksCapacity_le
  · obtain ⟨total, hok, hle⟩ := hav.tokens_le hm
    rw [hg.model] at hok
    exact ⟨total, (htotal _).trans hok, hle.trans hg.tokensCapacity_le⟩

/-! ## A pass -/

/-- In the middle of a pass over `queue`, with the tasks of `l` still to come. -/
structure PassInv (config : GlobalSchedulerConfig) (queue l : List TaskRef)
    (s : GlobalScheduler) : Prop where
  config_eq : s.config = config
  tasks : TasksInv s
  accounted : Accounted s
  sorted : l.Pairwise (· < ·)
  lt_next : ∀ t ∈ l, t < s.nextTask
  /-- A task that was passed over and is not scheduled finds no engine. -/
  refused : ∀ t ∈ queue, t ∉ l → (s.task t).isScheduled = false → ¬ HasEngine s t
  order : ∀ t₁ ∈ queue, ∀ t₂, t₁ < t₂ → SameKind s t₁ t₂ → (s.task t₂).isScheduled = true →
    (s.task t₁).isScheduled = true

variable {config : GlobalSchedulerConfig} {queue l : List TaskRef}

/-- A task that is skipped. -/
lemma PassInv.skip {t : TaskRef} (h : PassInv config queue (t :: l) s)
    (hgraph : config.graphGroup = false) (hctx : config.ctxGroup = false)
    (hskip : (s.task t).isScheduled = true ∨ s.engineFor (s.formGroup t l) = .ok none) :
    PassInv config queue l s where
  config_eq := h.config_eq
  tasks := h.tasks
  accounted := h.accounted
  sorted := h.sorted.of_cons
  lt_next x hx := h.lt_next x (List.mem_cons_of_mem t hx)
  order := h.order
  refused x hx hnot hfree := by
    by_cases hxt : x = t
    · subst hxt
      rcases hskip with hs | hnone
      · rw [hfree] at hs
        cases hs
      · rw [formGroup_eq_singleton (by rw [h.config_eq]; exact hgraph)
          (by rw [h.config_eq]; exact hctx)] at hnone
        exact not_hasEngine_of_none hnone
    · exact h.refused x hx (by simp [hxt, hnot]) hfree

/-- A task that is dispatched: the earlier ones of its kind were before. -/
lemma PassInv.dispatch {t : TaskRef} {g : EngineRef} (h : PassInv config queue (t :: l) s)
    (hfree : (s.task t).isScheduled = false) (hfor : s.engineFor [t] = .ok (some g)) {n : ℕ}
    (hn : (s.engine g).tokensOf (s.task t) = .ok n) :
    PassInv config queue l (s.scheduled t g n) := by
  obtain ⟨-, -, -, -, -, hlive, -⟩ := engineFor_ok hfor
  have ht := h.lt_next t List.mem_cons_self
  have hg := h.tasks.live_lt hlive
  have hf := scheduled_frame s t g n
  have hfull := fuller_scheduled h.accounted h.tasks ht hfree hg n
  have hother : ∀ x ≠ t, ((s.scheduled t g n).task x).isScheduled = (s.task x).isScheduled :=
    fun x hx => by rw [scheduled_task, if_neg hx]
  have hself : ((s.scheduled t g n).task t).isScheduled = true := by
    rw [scheduled_task, if_pos rfl]
  refine ⟨h.config_eq, h.tasks.scheduled n ht hg, h.accounted.scheduled h.tasks ht hg hfree hn,
    h.sorted.of_cons, fun x hx => h.lt_next x (List.mem_cons_of_mem t hx), ?_, ?_⟩
  · intro x hx hnot hxfree hengine
    have hxt : x ≠ t := fun heq => by
      rw [heq, hself] at hxfree
      cases hxfree
    rw [hother x hxt] at hxfree
    exact h.refused x hx (by simp [hxt, hnot]) hxfree (hengine.mono hf hfull (.refl x))
  · intro t₁ ht₁ t₂ hlt hkind hsched
    have hk : SameKind s t₁ t₂ := hf.sameKind hkind
    by_cases ht₂ : t₂ = t
    · subst ht₂
      rw [hother t₁ hlt.ne]
      by_contra hnot
      have hpassed : t₁ ∉ t₂ :: l := fun hmem => by
        rcases List.mem_cons.mp hmem with rfl | hmem
        · exact Nat.lt_irrefl _ hlt
        · exact absurd (List.rel_of_pairwise_cons h.sorted hmem) (Nat.not_lt.mpr hlt.le)
      refine h.refused t₁ ht₁ hpassed (by simpa using hnot) ?_
      exact (hasEngine_of_some hfor).mono (.refl s) (fun x => .refl _) hk
    · rw [hother t₂ ht₂] at hsched
      have hs := h.order t₁ ht₁ t₂ hlt hk hsched
      by_cases ht₁t : t₁ = t
      · rw [ht₁t]
        exact hself
      · rw [hother t₁ ht₁t]
        exact hs

/-! ## Between the passes -/

/-- The queue in the order of submission, and no task of it overtaken. -/
structure InOrder (s : GlobalScheduler) : Prop where
  sorted : s.taskQueue.Pairwise (· < ·)
  order : ∀ t₁ ∈ s.taskQueue, ∀ t₂, t₁ < t₂ → SameKind s t₁ t₂ →
    (s.task t₂).isScheduled = false

lemma InOrder.schedule (h : InOrder s) (hu : UngroupedInv config s)
    (hfifo : config.appFifo = false) (hgraph : config.graphGroup = false)
    (hctx : config.ctxGroup = false) (hok : GlobalScheduler.schedule s = .ok s') : InOrder s' := by
  obtain ⟨s₁, hloop, rfl⟩ := schedule_ok hok
  have hqueue : s.sortedQueue = s.taskQueue := by
    unfold sortedQueue
    rw [hu.config_eq, hfifo]
    rfl
  rw [hqueue] at hloop ⊢
  have hstart : PassInv config s.taskQueue s.taskQueue s :=
    ⟨hu.config_eq, hu.tasks, hu.accounted, h.sorted, hu.queue.lt_next,
      fun t ht hnot => absurd ht hnot, fun t₁ ht₁ t₂ hlt hkind hsched => by
        rw [h.order t₁ ht₁ t₂ hlt hkind] at hsched
        cases hsched⟩
  have hpass : PassInv config s.taskQueue [] s₁ :=
    scheduleLoop_rule (P := fun l x => PassInv config s.taskQueue l x)
      (fun t rest x hP hskip => hP.skip hgraph hctx hskip)
      (fun t rest x x' g hP hfree hfor hdis => by
        rw [formGroup_eq_singleton (by rw [hP.config_eq]; exact hgraph)
          (by rw [hP.config_eq]; exact hctx)] at hfor hdis
        unfold GlobalScheduler.dispatch at hdis
        split at hdis
        · cases hdis
        · rename_i x₁ hto
          obtain ⟨n, hn, rfl⟩ := scheduleTo_ok hto
          cases hdis
          exact hP.dispatch hfree hfor hn)
      s.taskQueue hstart hloop
  refine ⟨h.sorted.filter _, fun t₁ ht₁ t₂ hlt hkind => ?_⟩
  obtain ⟨hmem, hfree⟩ := List.mem_filter.mp ht₁
  by_contra hsched
  have hs := hpass.order t₁ hmem t₂ hlt { hkind with } (by simpa using hsched)
  rw [hs] at hfree
  cases hfree

/-- A step that schedules nothing and adds nothing to the queue. -/
lemma InOrder.congr (h : InOrder s) (hqueue : s'.taskQueue = s.taskQueue)
    (hsched : ∀ t, (s'.task t).isScheduled = (s.task t).isScheduled)
    (hkind : ∀ t₁ t₂, SameKind s' t₁ t₂ → SameKind s t₁ t₂) : InOrder s' where
  sorted := hqueue ▸ h.sorted
  order t₁ ht₁ t₂ hlt hk := (hsched t₂).trans (h.order t₁ (hqueue ▸ ht₁) t₂ hlt (hkind t₁ t₂ hk))

/-- A new task is the last of the queue. -/
lemma InOrder.submitChain (h : InOrder s) (hi : TasksInv s) (hq : QueueInv s) {chain : TaskChain}
    {bound : ℕ} (hok : s.submitChain chain bound = .ok s') : InOrder s' := by
  rcases submitChain_ok hok with rfl | ⟨taskId, pool, queue, -, hqueue, rfl⟩
  · exact h
  · have hfresh : ∀ t, s.nextTask ≤ t → (s.task t).isScheduled = false := fun t ht => by
      rw [hi.isScheduled]
      cases hg : (s.task t).engine with
      | none => rfl
      | some g => exact absurd (hi.engine_lt t g hg).1 (Nat.not_lt.mpr ht)
    have hsched : ∀ t, ((Function.update s.task s.nextTask (newTask s.engineMgr.tokenizersWrapper
        taskId chain bound)) t).isScheduled = (s.task t).isScheduled := fun t => by
      rw [Function.update_apply]
      split
      · rename_i heq
        rw [heq, hfresh _ le_rfl]
        rfl
      · rfl
    have hsorted : queue.Pairwise (· < ·) := by
      rcases hqueue with rfl | rfl
      · exact h.sorted
      · refine List.pairwise_append.mpr ⟨h.sorted, List.pairwise_singleton _ _, ?_⟩
        intro t ht t' ht'
        rw [List.mem_singleton.mp ht']
        exact hq.lt_next t ht
    refine ⟨hsorted, fun t₁ ht₁ t₂ hlt hkind => (hsched t₂).trans ?_⟩
    by_cases ht₂ : s.nextTask ≤ t₂
    · exact hfresh t₂ ht₂
    · have hlt₂ := Nat.lt_of_not_le ht₂
      have hmem : t₁ ∈ s.taskQueue := by
        rcases hqueue with rfl | rfl
        · exact ht₁
        · rcases List.mem_append.mp ht₁ with ht₁ | ht₁
          · exact ht₁
          · exact absurd (List.mem_singleton.mp ht₁ ▸ hlt) (Nat.not_lt.mpr hlt₂.le)
      refine h.order t₁ hmem t₂ hlt (hkind.congr fun t ht => ?_)
      have hne : t ≠ s.nextTask := by
        rcases ht with rfl | rfl
        · exact (hlt.trans hlt₂).ne
        · exact hlt₂.ne
      dsimp only
      rw [Function.update_of_ne hne]
      exact ⟨rfl, rfl, rfl, fun _ => rfl⟩

lemma InOrder.apply (h : InOrder s) (hu : UngroupedInv config s) (hfifo : config.appFifo = false)
    (hgraph : config.graphGroup = false) (hctx : config.ctxGroup = false) {a : Action}
    (hok : GlobalScheduler.apply s fromPretrained a = .ok s') : InOrder s' := by
  cases a with
  | engineMgr a =>
      rw [callEngineMgr_ok hok]
      exact h.congr rfl (fun _ => rfl) fun _ _ hk => { hk with }
  | cachePrefixes caches =>
      cases hok
      exact h.congr rfl (fun _ => rfl) fun _ _ hk => { hk with }
  | submitChain chain bound => exact h.submitChain hu.tasks hu.queue hok
  | joinGroup t group =>
      cases hok
      have hsame : ∀ {β : Type} (f : CompletionTask → β),
          (∀ chainGroups, f { s.task t with chain := { (s.task t).chain with chainGroups } } =
            f (s.task t)) → ∀ t',
          f (Function.update s.task t { s.task t with chain := { (s.task t).chain with
            chainGroups := (s.task t).chain.chainGroups ++ [group] } } t') = f (s.task t') := by
        intro β f hf t'
        rw [Function.update_apply]
        split
        · rename_i heq
          rw [hf, heq]
        · rfl
      refine h.congr rfl (hsame CompletionTask.isScheduled fun _ => rfl) fun t₁ t₂ hk =>
        hk.congr fun t' _ => ⟨hsame (fun task => task.chain.models) (fun _ => rfl) t',
          hsame (fun task => task.chain.modelType) (fun _ => rfl) t',
          hsame CompletionTask.tasksNumUpperbound (fun _ => rfl) t',
          fun name => hsame (fun task => task.getTokenNums name) (fun _ => rfl) t'⟩
  | schedule => exact h.schedule hu hfifo hgraph hctx hok
  | freeTask t =>
      obtain ⟨g, n, pool, -, -, -, rfl⟩ := freeTask_ok hok
      exact h.congr rfl (fun _ => rfl) fun _ _ hk => { hk with }

/-! ## Runs -/

end GlobalScheduler

end ParrotServe
