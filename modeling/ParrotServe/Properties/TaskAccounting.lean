import ParrotServe.Properties.Dispatching
import Mathlib.Algebra.BigOperators.Group.Finset.Basic

/-!
# The accounting of scheduled tasks

An engine counts the tasks that were scheduled to it, their tokens, and the bounds they came
with.  `Accounts` says that the counts are right: they are those of the tasks whose engine it is
and that did not leave, and no task was dispatched twice.

`schedule` forms the group of a task from the whole rest of the queue, tasks that an earlier
group of the same pass already took included.  When such a group is dispatched the task moves to
another engine and the first one keeps counting it.  Only the task a group is formed for is
checked, so the pass is right where the groups of the queue are `Nested`: when two of them share a
task, the later of their two tasks is in the earlier group itself, and its group is not formed.
With grouping off they always are.

`TasksInv` and `QueueInv` are what every step keeps, `Accounted` what every step keeps under the
condition.  `task_accounting` is the statement over runs, and `scheduled_twice` a run of three
tasks of two groups in which one of them is dispatched to two engines.
-/

namespace ParrotServe

namespace GlobalScheduler

/-- The tasks whose engine it is and that have not left. -/
def onEngine (s : GlobalScheduler) (g : EngineRef) : Finset TaskRef :=
  (Finset.range s.nextTask).filter fun t => (s.task t).engine = some g ∧ t ∉ s.left

/-- What a task counts for on an engine. -/
def tokenCount (s : GlobalScheduler) (g : EngineRef) (t : TaskRef) : ℕ :=
  ((s.engine g).tokensOf (s.task t)).toOption.getD 0

/-- The counters of the engines are those of their tasks. -/
structure Accounts (s : GlobalScheduler) : Prop where
  /-- No task was dispatched twice. -/
  dispatched_le : ∀ t, (s.dispatches.map Prod.fst).count t ≤ 1
  numTasks : ∀ g < s.engineMgr.next,
    (s.engine g).serveLayerRuntimeInfo.numTasks = (s.onEngine g).card
  /-- What is counted for a task is its `get_token_nums`. -/
  tokens_ok : ∀ g < s.engineMgr.next, ∀ t ∈ s.onEngine g,
    (s.engine g).tokensOf (s.task t) = .ok (s.tokenCount g t)
  tokensNum : ∀ g < s.engineMgr.next,
    (s.engine g).serveLayerRuntimeInfo.tokensNum = ∑ t ∈ s.onEngine g, (s.tokenCount g t : ℤ)
  upperbounds : ∀ g < s.engineMgr.next, ∀ taskId bound,
    (s.engine g).serveLayerRuntimeInfo.tasksNumUpperbounds.get? taskId = some bound ↔
      ∃ t ∈ s.onEngine g, (s.task t).taskId = taskId ∧ (s.task t).tasksNumUpperbound = bound

/-- `Accounts`, with the number of dispatches of each task. -/
structure Accounted (s : GlobalScheduler) : Prop extends Accounts s where
  dispatched : ∀ t, (s.dispatches.map Prod.fst).count t = if (s.task t).isScheduled then 1 else 0

/-! ## What every step keeps -/

/-- Tasks have ids of their own, and an engine when they are scheduled. -/
structure TasksInv (s : GlobalScheduler) : Prop where
  identified : s.engineMgr.Identified
  debugMode : s.taskIdPool.debugMode = true
  taskId_lt : ∀ t < s.nextTask, (s.task t).taskId < s.taskIdPool.curMaxId
  taskId_inj : ∀ t < s.nextTask, ∀ t' < s.nextTask, (s.task t).taskId = (s.task t').taskId → t = t'
  engine_lt : ∀ t g, (s.task t).engine = some g → t < s.nextTask ∧ g < s.engineMgr.next
  isScheduled : ∀ t, (s.task t).isScheduled = (s.task t).engine.isSome
  left : ∀ t ∈ s.left, (s.task t).isScheduled = true

/-- The queue holds tasks that are not scheduled, each once. -/
structure QueueInv (s : GlobalScheduler) : Prop where
  nodup : s.taskQueue.Nodup
  lt_next : ∀ t ∈ s.taskQueue, t < s.nextTask
  unscheduled : ∀ t ∈ s.taskQueue, (s.task t).isScheduled = false

variable {s s' : GlobalScheduler} {fromPretrained : Text → Except PyError HFTokenizer}

lemma Frame.identified (hf : Frame s s') (h : s.engineMgr.Identified) :
    s'.engineMgr.Identified where
  engineId e g hget := (hf.engineId g).trans (h.engineId e g (hf.engines ▸ hget))
  lt_next e g hget := by
    rw [hf.next]
    exact h.lt_next e g (hf.engines ▸ hget)
  owns := by
    rw [hf.engineIdPool, hf.engines]
    exact h.owns
  later e h' hget g hg hlt := by
    rw [hf.next] at hlt
    exact fun heq => h.later e h' (hf.engines ▸ hget) g hg hlt ((hf.engineId g).symm.trans heq)

lemma Frame.tokensOf (hf : Frame s s') (g : EngineRef) (t : TaskRef) :
    (s'.engine g).tokensOf (s'.task t) = (s.engine g).tokensOf (s.task t) :=
  tokensOf_congr (hf.model g) (hf.tokenizedResult t) (by rw [hf.chain])

lemma Frame.tokenCount (hf : Frame s s') (g : EngineRef) (t : TaskRef) :
    s'.tokenCount g t = s.tokenCount g t := by
  unfold GlobalScheduler.tokenCount
  rw [hf.tokensOf]

lemma TasksInv.scheduled (h : TasksInv s) {t : TaskRef} {g : EngineRef} (n : ℕ)
    (ht : t < s.nextTask) (hg : g < s.engineMgr.next) : TasksInv (s.scheduled t g n) where
  identified := (scheduled_frame s t g n).identified h.identified
  debugMode := h.debugMode
  taskId_lt t' ht' := by
    rw [(scheduled_frame s t g n).taskId]
    exact h.taskId_lt t' ht'
  taskId_inj t₁ h₁ t₂ h₂ := by
    rw [(scheduled_frame s t g n).taskId, (scheduled_frame s t g n).taskId]
    exact h.taskId_inj t₁ h₁ t₂ h₂
  engine_lt t' g' := by
    rw [scheduled_task]
    split
    · rename_i heq
      subst heq
      rintro ⟨⟩
      exact ⟨ht, hg⟩
    · exact h.engine_lt t' g'
  isScheduled t' := by
    rw [scheduled_task]
    split
    · rfl
    · exact h.isScheduled t'
  left t' ht' := by
    rw [scheduled_task]
    split
    · rfl
    · exact h.left t' ht'

/-- The members of the groups of a pass are tasks. -/
lemma lt_of_mem_formGroup {t : TaskRef} {rest : List TaskRef}
    (hlt : ∀ x ∈ t :: rest, x < s.nextTask) : ∀ x ∈ s.formGroup t rest, x < s.nextTask := by
  obtain ⟨l, hl, heq⟩ := formGroup_sublist (s := s) t rest
  rw [heq]
  exact fun x hx => hlt x ((hl.cons_cons t).subset hx)

lemma nodup_formGroup {t : TaskRef} {rest : List TaskRef} (hnodup : (t :: rest).Nodup) :
    (s.formGroup t rest).Nodup := by
  obtain ⟨l, hl, heq⟩ := formGroup_sublist (s := s) t rest
  rw [heq]
  exact hnodup.sublist (hl.cons_cons t)

lemma TasksInv.live_lt (h : TasksInv s) {g : EngineRef} (hg : g ∈ s.engineMgr.getLiveEngines) :
    g < s.engineMgr.next := by
  obtain ⟨e, hget⟩ := s.engineMgr.engines.mem_values.mp (List.mem_of_mem_filter hg)
  exact h.identified.lt_next e g hget

lemma TasksInv.dispatch (h : TasksInv s) {g : EngineRef} {ts : List TaskRef}
    (ht : ∀ t ∈ ts, t < s.nextTask) (hg : g < s.engineMgr.next)
    (hok : GlobalScheduler.dispatch g ts s = .ok s') : TasksInv s' := by
  refine (dispatch_rule (P := fun ts x => TasksInv x ∧ (∀ t ∈ ts, t < x.nextTask) ∧
    g < x.engineMgr.next) (fun t ts x n hP _ => ?_) ts ⟨h, ht, hg⟩ hok).1
  obtain ⟨hinv, hlt, hnext⟩ := hP
  exact ⟨hinv.scheduled n (hlt t List.mem_cons_self) hnext,
    fun t' ht' => hlt t' (List.mem_cons_of_mem _ ht'), hnext⟩

/-- A pass keeps the tasks. -/
lemma TasksInv.scheduleLoop (h : TasksInv s) {l : List TaskRef} (hl : ∀ t ∈ l, t < s.nextTask)
    (hok : GlobalScheduler.scheduleLoop l s = .ok s') : TasksInv s' := by
  refine (scheduleLoop_rule (P := fun l x => TasksInv x ∧ ∀ t ∈ l, t < x.nextTask)
    (fun t rest x hP _ => ?_) (fun t rest x x' g hP _ hfor hdis => ?_) l ⟨h, hl⟩ hok).1
  · exact ⟨hP.1, fun t' ht' => hP.2 t' (List.mem_cons_of_mem _ ht')⟩
  · obtain ⟨hinv, hlt⟩ := hP
    obtain ⟨-, -, -, -, -, hlive, -⟩ := engineFor_ok hfor
    refine ⟨hinv.dispatch (lt_of_mem_formGroup hlt) (hinv.live_lt hlive) hdis, fun t' ht' => ?_⟩
    rw [(dispatch_frame hdis).nextTask]
    exact hlt t' (List.mem_cons_of_mem _ ht')

/-- A pass leaves in the queue what it did not schedule. -/
lemma schedule_inv (h : TasksInv s) (hq : QueueInv s) (hok : s.schedule = .ok s') :
    TasksInv s' ∧ QueueInv s' := by
  obtain ⟨s₁, hloop, rfl⟩ := schedule_ok hok
  have hperm := s.sortedQueue_perm
  have hlt : ∀ t ∈ s.sortedQueue, t < s.nextTask := fun t ht =>
    hq.lt_next t (hperm.mem_iff.mp ht)
  have h₁ := h.scheduleLoop hlt hloop
  refine ⟨{ h₁ with }, ⟨?_, fun t ht => ?_, fun t ht => ?_⟩⟩
  · exact (hperm.nodup_iff.mpr hq.nodup).filter _
  · dsimp only
    rw [(scheduleLoop_frame hloop).nextTask]
    exact hlt t (List.mem_of_mem_filter ht)
  · simpa using (List.mem_filter.mp ht).2

/-- A debug pool counts up. -/
lemma allocate_debug {p p' : RecyclePool} {id : ℕ} (hd : p.debugMode = true)
    (h : p.allocate = (.ok id, p')) :
    id = p.curMaxId ∧ p'.curMaxId = p.curMaxId + 1 ∧ p'.debugMode = true := by
  unfold RecyclePool.allocate at h
  dsimp only at h
  split at h
  · simp_all
  · split at h
    · simp at h
    · simp only [Prod.mk.injEq, Except.ok.injEq] at h
      obtain ⟨rfl, rfl⟩ := h
      exact ⟨rfl, rfl, hd⟩

lemma submitChain_inv (h : TasksInv s) (hq : QueueInv s) {chain : TaskChain} {bound : ℕ}
    (hok : s.submitChain chain bound = .ok s') : TasksInv s' ∧ QueueInv s' := by
  rcases submitChain_ok hok with rfl | ⟨taskId, pool, queue, ha, hqueue, rfl⟩
  · exact ⟨h, hq⟩
  · obtain ⟨rfl, hmax, hdebug⟩ := allocate_debug h.debugMode ha
    have hne : ∀ t, t < s.nextTask → t ≠ s.nextTask := fun t ht => ht.ne
    have hold : ∀ t, (s.task t).isScheduled = true → t < s.nextTask := by
      intro t ht
      rw [h.isScheduled] at ht
      obtain ⟨g, hg⟩ := Option.isSome_iff_exists.mp ht
      exact (h.engine_lt t g hg).1
    refine ⟨⟨h.identified, hdebug, fun t ht => ?_, fun t ht t' ht' heq => ?_, fun t g hg => ?_,
      fun t => ?_, fun t ht => ?_⟩, ?_⟩
    · dsimp only at ht ⊢
      rw [Function.update_apply]
      split
      · simp [newTask, hmax]
      · rename_i hnew
        rw [hmax]
        exact Nat.lt_succ_of_lt (h.taskId_lt t (Nat.lt_of_le_of_ne (Nat.lt_succ_iff.mp ht) hnew))
    · dsimp only at ht ht' heq
      have hlt : ∀ x, x < s.nextTask → (s.task x).taskId ≠ s.taskIdPool.curMaxId := fun x hx =>
        (h.taskId_lt x hx).ne
      rcases Nat.lt_succ_iff_lt_or_eq.mp ht with hlt₁ | rfl
      · rw [Function.update_of_ne (hne t hlt₁)] at heq
        rcases Nat.lt_succ_iff_lt_or_eq.mp ht' with hlt₂ | rfl
        · rw [Function.update_of_ne (hne t' hlt₂)] at heq
          exact h.taskId_inj t hlt₁ t' hlt₂ heq
        · rw [Function.update_self] at heq
          exact absurd heq (hlt t hlt₁)
      · rcases Nat.lt_succ_iff_lt_or_eq.mp ht' with hlt₂ | rfl
        · rw [Function.update_self, Function.update_of_ne (hne t' hlt₂)] at heq
          exact absurd heq.symm (hlt t' hlt₂)
        · rfl
    · dsimp only at hg ⊢
      rw [Function.update_apply] at hg
      split at hg
      · cases hg
      · exact ⟨Nat.lt_succ_of_lt (h.engine_lt t g hg).1, (h.engine_lt t g hg).2⟩
    · dsimp only
      rw [Function.update_apply]
      split
      · rfl
      · exact h.isScheduled t
    · dsimp only
      rw [Function.update_of_ne (hne t (hold t (h.left t ht)))]
      exact h.left t ht
    · have hunsched : ∀ t ∈ s.taskQueue, (Function.update s.task s.nextTask
          (newTask s.engineMgr.tokenizersWrapper s.taskIdPool.curMaxId chain bound)
          t).isScheduled = false := fun t ht => by
        rw [Function.update_of_ne (hne t (hq.lt_next t ht))]
        exact hq.unscheduled t ht
      rcases hqueue with rfl | rfl
      · exact ⟨hq.nodup, fun t ht => Nat.lt_succ_of_lt (hq.lt_next t ht), hunsched⟩
      · refine ⟨?_, fun t ht => ?_, fun t ht => ?_⟩
        · refine List.nodup_append.mpr ⟨hq.nodup, List.nodup_singleton _, ?_⟩
          rintro x hx y hy rfl
          exact hne x (hq.lt_next x hx) (List.mem_singleton.mp hy)
        · rcases List.mem_append.mp ht with ht | ht
          · exact Nat.lt_succ_of_lt (hq.lt_next t ht)
          · exact List.mem_singleton.mp ht ▸ Nat.lt_succ_self _
        · rcases List.mem_append.mp ht with ht | ht
          · exact hunsched t ht
          · dsimp only
            rw [List.mem_singleton.mp ht, Function.update_self]
            rfl

lemma freeTask_inv (h : TasksInv s) (hq : QueueInv s) {t : TaskRef}
    (hok : s.freeTask t = .ok s') : TasksInv s' ∧ QueueInv s' := by
  obtain ⟨g, n, pool, hg, -, hfree, rfl⟩ := freeTask_ok hok
  have hpool : pool.debugMode = s.taskIdPool.debugMode ∧ pool.curMaxId = s.taskIdPool.curMaxId := by
    unfold RecyclePool.free at hfree
    dsimp only at hfree
    split at hfree
    · simp at hfree
    · cases hfree
      exact ⟨rfl, rfl⟩
  refine ⟨⟨h.identified.setEngine ⟨rfl, rfl, rfl⟩, hpool.1.trans h.debugMode, fun t' ht' => ?_,
    h.taskId_inj, h.engine_lt, h.isScheduled, fun t' ht' => ?_⟩, ⟨hq.nodup, hq.lt_next,
    hq.unscheduled⟩⟩
  · change _ < pool.curMaxId
    rw [hpool.2]
    exact h.taskId_lt t' ht'
  · rcases List.mem_cons.mp ht' with rfl | ht'
    · change (s.task t').isScheduled = true
      rw [h.isScheduled, hg]
      rfl
    · exact h.left t' ht'

/-- Every step keeps the tasks and the queue. -/
lemma apply_inv (h : TasksInv s) (hq : QueueInv s) {a : Action}
    (hok : s.apply fromPretrained a = .ok s') : TasksInv s' ∧ QueueInv s' := by
  cases a with
  | engineMgr a =>
      rw [callEngineMgr_ok hok]
      have hc := EngineManager.perform_continues fromPretrained s.engineMgr a
      exact ⟨{ h with
        identified := h.identified.perform fromPretrained a
        engine_lt := fun t g hg => ⟨(h.engine_lt t g hg).1,
          (h.engine_lt t g hg).2.trans_le hc.next_le⟩ }, { hq with }⟩
  | cachePrefixes caches =>
      cases hok
      exact ⟨{ h with identified := h.identified.congr ⟨rfl, rfl, rfl, rfl⟩ }, { hq with }⟩
  | submitChain chain bound => exact submitChain_inv h hq hok
  | joinGroup t group =>
      cases hok
      have hsame : ∀ {β : Type} (f : CompletionTask → β),
          (∀ chain, f { s.task t with chain } = f (s.task t)) → ∀ t',
          f (Function.update s.task t { s.task t with chain := { (s.task t).chain with
            chainGroups := (s.task t).chain.chainGroups ++ [group] } } t') = f (s.task t') := by
        intro β f hf t'
        rw [Function.update_apply]
        split
        · rename_i heq
          rw [hf, heq]
        · rfl
      have hid := hsame CompletionTask.taskId fun _ => rfl
      have hengine := hsame CompletionTask.engine fun _ => rfl
      have hsched := hsame CompletionTask.isScheduled fun _ => rfl
      refine ⟨⟨h.identified, h.debugMode, fun t' ht' => ?_, fun t₁ h₁ t₂ h₂ heq => ?_,
        fun t' g hg => ?_, fun t' => ?_, fun t' ht' => ?_⟩, ⟨hq.nodup, hq.lt_next,
        fun t' ht' => (hsched t').trans (hq.unscheduled t' ht')⟩⟩
      · exact (hid t').symm ▸ h.taskId_lt t' ht'
      · exact h.taskId_inj t₁ h₁ t₂ h₂ ((hid t₁).symm.trans (heq.trans (hid t₂)))
      · exact h.engine_lt t' g ((hengine t').symm.trans hg)
      · exact (hsched t').trans ((h.isScheduled t').trans (by rw [← hengine t']))
      · exact (hsched t').trans (h.left t' ht')
  | schedule => exact schedule_inv h hq hok
  | freeTask t => exact freeTask_inv h hq hok

lemma start_inv (config : GlobalSchedulerConfig) (timeout : ℤ) :
    TasksInv (start config timeout) ∧ QueueInv (start config timeout) := by
  have hi := EngineManager.identified_invariant (fun _ => .error .typeError) timeout
  refine ⟨⟨hi.init _ rfl, rfl, ?_, ?_, ?_, fun _ => rfl, ?_⟩, ?_, ?_, ?_⟩ <;> simp [start]

/-- In every run tasks and queue are well formed. -/
lemma tasks_invariant (fromPretrained : Text → Except PyError HFTokenizer)
    (config : GlobalSchedulerConfig) (timeout : ℤ) (guard : GlobalScheduler → Action → Prop) :
    (system fromPretrained config timeout).IsInvariantUnder guard
      fun s => TasksInv s ∧ QueueInv s where
  init s hs := by
    cases hs
    exact start_inv config timeout
  step s a s' h _ hst := apply_inv h.1 h.2 hst.2

/-! ## The counts -/

lemma mem_onEngine {g : EngineRef} {t : TaskRef} :
    t ∈ s.onEngine g ↔ t < s.nextTask ∧ (s.task t).engine = some g ∧ t ∉ s.left := by
  simp [onEngine]

/-- Nothing is on an engine that is still to come. -/
lemma TasksInv.onEngine_eq_empty (hi : TasksInv s) {g : EngineRef} (hg : s.engineMgr.next ≤ g) :
    s.onEngine g = ∅ := by
  refine Finset.eq_empty_of_forall_notMem fun t ht => ?_
  exact absurd (hi.engine_lt t g (mem_onEngine.mp ht).2.1).2 (Nat.not_lt.mpr hg)

/-- A step that schedules nothing and lets nothing leave. -/
lemma Accounted.congr (h : Accounted s) (hi : TasksInv s)
    (hc : EngineManager.Continues s.engineMgr s'.engineMgr)
    (hdis : s'.dispatches = s.dispatches)
    (hsched : ∀ t, (s'.task t).isScheduled = (s.task t).isScheduled)
    (hon : ∀ g, s'.onEngine g = s.onEngine g)
    (htask : ∀ g, ∀ t ∈ s.onEngine g, (s'.task t).taskId = (s.task t).taskId ∧
      (s'.task t).tasksNumUpperbound = (s.task t).tasksNumUpperbound ∧
      (s'.task t).tokenizedResult = (s.task t).tokenizedResult ∧
      (s'.task t).chain.maxGenLength = (s.task t).chain.maxGenLength) : Accounted s' := by
  have htokens : ∀ g < s.engineMgr.next, ∀ t ∈ s.onEngine g,
      (s'.engine g).tokensOf (s'.task t) = (s.engine g).tokensOf (s.task t) := fun g hg t ht =>
    tokensOf_congr (hc.model g hg) (htask g t ht).2.2.1 (htask g t ht).2.2.2
  have hcount : ∀ g < s.engineMgr.next, ∀ t ∈ s.onEngine g,
      s'.tokenCount g t = s.tokenCount g t := fun g hg t ht => by
    unfold tokenCount
    rw [htokens g hg t ht]
  have hinfo : ∀ g < s.engineMgr.next,
      (s'.engine g).serveLayerRuntimeInfo = (s.engine g).serveLayerRuntimeInfo := hc.info
  have hfresh : ∀ g < s'.engineMgr.next, ¬ g < s.engineMgr.next →
      (s'.engine g).serveLayerRuntimeInfo = {} ∧ s'.onEngine g = ∅ := fun g hg hnew => by
    have hle := Nat.le_of_not_lt hnew
    exact ⟨hc.fresh g hle hg, (hon g).trans (hi.onEngine_eq_empty hle)⟩
  refine ⟨⟨fun t => hdis ▸ h.dispatched_le t, fun g hg => ?_, fun g hg t ht => ?_, fun g hg => ?_,
    fun g hg taskId bound => ?_⟩, fun t => by rw [hdis, hsched]; exact h.dispatched t⟩
  · by_cases hold : g < s.engineMgr.next
    · rw [hinfo g hold, hon]
      exact h.numTasks g hold
    · obtain ⟨hzero, hempty⟩ := hfresh g hg hold
      rw [hzero, hempty]
      rfl
  · by_cases hold : g < s.engineMgr.next
    · rw [hon] at ht
      rw [htokens g hold t ht, hcount g hold t ht]
      exact h.tokens_ok g hold t ht
    · rw [(hfresh g hg hold).2] at ht
      exact absurd ht (Finset.notMem_empty t)
  · by_cases hold : g < s.engineMgr.next
    · rw [hinfo g hold, hon, Finset.sum_congr rfl fun t ht => by rw [hcount g hold t ht]]
      exact h.tokensNum g hold
    · obtain ⟨hzero, hempty⟩ := hfresh g hg hold
      rw [hzero, hempty]
      rfl
  · by_cases hold : g < s.engineMgr.next
    · rw [hinfo g hold, hon, h.upperbounds g hold]
      refine exists_congr fun t => and_congr_right fun ht => ?_
      rw [(htask g t ht).1, (htask g t ht).2.1]
    · obtain ⟨hzero, hempty⟩ := hfresh g hg hold
      rw [hzero, hempty]
      simp

/-- A scheduled task is on its engine, one more than before. -/
lemma onEngine_scheduled {t : TaskRef} {g : EngineRef} (n : ℕ) (ht : t < s.nextTask)
    (hnone : (s.task t).engine = none) (hleft : t ∉ s.left) (h : EngineRef) :
    (s.scheduled t g n).onEngine h = if h = g then insert t (s.onEngine g) else s.onEngine h := by
  have hframe := scheduled_frame s t g n
  ext t'
  rw [mem_onEngine, hframe.nextTask, hframe.left, scheduled_task]
  by_cases htt : t' = t
  · subst htt
    by_cases hgh : h = g
    · subst hgh
      simp [ht, hleft]
    · simp [mem_onEngine, hnone, hgh, Ne.symm hgh]
  · by_cases hgh : h = g
    · subst hgh
      simp [mem_onEngine, htt]
    · simp [mem_onEngine, htt, hgh]

lemma tokenCount_of_ok {t : TaskRef} {g : EngineRef} {n : ℕ}
    (hn : (s.engine g).tokensOf (s.task t) = .ok n) : s.tokenCount g t = n := by
  unfold tokenCount
  rw [hn]
  rfl

/-- Scheduling a task that is not scheduled is counted. -/
lemma Accounted.scheduled (h : Accounted s) (hi : TasksInv s) {t : TaskRef} {g : EngineRef}
    {n : ℕ} (ht : t < s.nextTask) (hg : g < s.engineMgr.next)
    (hfree : (s.task t).isScheduled = false)
    (hn : (s.engine g).tokensOf (s.task t) = .ok n) : Accounted (s.scheduled t g n) := by
  have hnone : (s.task t).engine = none := by
    rw [hi.isScheduled] at hfree
    simpa using hfree
  have hleft : t ∉ s.left := fun hmem => by
    rw [hi.left t hmem] at hfree
    cases hfree
  have hframe := scheduled_frame s t g n
  have hon := onEngine_scheduled (s := s) (g := g) n ht hnone hleft
  have hnot : ∀ h, t ∉ s.onEngine h := fun h hmem => by
    rw [mem_onEngine, hnone] at hmem
    cases hmem.2.1
  have hcount := tokenCount_of_ok hn
  have hdispatched : ∀ t', ((s.scheduled t g n).dispatches.map Prod.fst).count t' =
      if ((s.scheduled t g n).task t').isScheduled then 1 else 0 := by
    intro t'
    have hdis : (s.scheduled t g n).dispatches = s.dispatches ++ [(t, g)] := rfl
    rw [hdis, List.map_append, List.count_append, h.dispatched, scheduled_task]
    by_cases heq : t' = t
    · subst heq
      simp [hfree]
    · simp [heq, Ne.symm heq]
  refine ⟨⟨fun t' => ?_, fun x hx => ?_, fun x hx t' ht' => ?_, fun x hx => ?_,
    fun x hx taskId bound => ?_⟩, hdispatched⟩
  · rw [hdispatched]
    split <;> omega
  · rw [hon, scheduled_engine]
    split
    · rw [Finset.card_insert_of_notMem (hnot g), h.numTasks g hg]
      push_cast
      rfl
    · exact h.numTasks x hx
  · rw [hframe.tokensOf, hframe.tokenCount]
    rw [hon] at ht'
    split at ht'
    · rename_i hxg
      subst hxg
      rcases Finset.mem_insert.mp ht' with rfl | ht'
      · rw [hcount]
        exact hn
      · exact h.tokens_ok x hg t' ht'
    · exact h.tokens_ok x hx t' ht'
  · rw [hon, scheduled_engine]
    simp only [hframe.tokenCount]
    split
    · rename_i hxg
      subst hxg
      rw [Finset.sum_insert (hnot x), hcount]
      dsimp only
      rw [h.tokensNum x hg]
      exact add_comm _ _
    · exact h.tokensNum x hx
  · rw [hon, scheduled_engine]
    simp only [hframe.taskId, hframe.tasksNumUpperbound]
    split
    · dsimp only
      rw [Dict.get?_set]
      split
      · rename_i hid
        constructor
        · rintro ⟨⟩
          exact ⟨t, Finset.mem_insert_self _ _, hid.symm, rfl⟩
        · rintro ⟨t', ht', hid', hb⟩
          rcases Finset.mem_insert.mp ht' with rfl | ht'
          · rw [hb]
          · have heq := hi.taskId_inj t' (mem_onEngine.mp ht').1 t ht (hid'.trans hid)
            exact absurd (heq ▸ ht') (hnot g)
      · rename_i hid
        rw [h.upperbounds g hg]
        constructor
        · rintro ⟨t', ht', hrest⟩
          exact ⟨t', Finset.mem_insert_of_mem ht', hrest⟩
        · rintro ⟨t', ht', hid', hb⟩
          rcases Finset.mem_insert.mp ht' with rfl | ht'
          · exact absurd hid'.symm hid
          · exact ⟨t', ht', hid', hb⟩
    · exact h.upperbounds x hx taskId bound

/-- A task that leaves is no longer on its engine. -/
lemma onEngine_freed {t : TaskRef} {g : EngineRef} (n : ℕ) (pool : RecyclePool)
    (hg : (s.task t).engine = some g) (h : EngineRef) :
    (s.freed t g n pool).onEngine h =
      if h = g then (s.onEngine g).erase t else s.onEngine h := by
  ext t'
  have hfreed : t' ∈ (s.freed t g n pool).onEngine h ↔
      t' < s.nextTask ∧ (s.task t').engine = some h ∧ t' ∉ t :: s.left := mem_onEngine
  rw [hfreed, List.mem_cons, not_or]
  by_cases hh : h = g
  · subst hh
    rw [if_pos rfl, Finset.mem_erase, mem_onEngine]
    exact ⟨fun hm => ⟨hm.2.2.1, hm.1, hm.2.1, hm.2.2.2⟩,
      fun hm => ⟨hm.2.1, hm.2.2.1, hm.1, hm.2.2.2⟩⟩
  · rw [if_neg hh, mem_onEngine]
    refine ⟨fun hm => ⟨hm.1, hm.2.1, hm.2.2.2⟩, fun hm => ⟨hm.1, hm.2.1, ?_, hm.2.2⟩⟩
    rintro rfl
    rw [hg, Option.some.injEq] at hm
    exact hh hm.2.1.symm

/-- Leaving is counted. -/
lemma Accounted.freed (h : Accounted s) (hi : TasksInv s) {t : TaskRef} {g : EngineRef}
    {n : ℕ} (pool : RecyclePool) (hg : (s.task t).engine = some g) (hleft : t ∉ s.left)
    (hn : (s.engine g).tokensOf (s.task t) = .ok n) : Accounted (s.freed t g n pool) := by
  obtain ⟨ht, hglt⟩ := hi.engine_lt t g hg
  have hmem : t ∈ s.onEngine g := mem_onEngine.mpr ⟨ht, hg, hleft⟩
  have hon := onEngine_freed (s := s) n pool hg
  have hcount := tokenCount_of_ok hn
  have htokens : ∀ x t', ((s.freed t g n pool).engine x).tokensOf (s.task t') =
      (s.engine x).tokensOf (s.task t') := by
    intro x t'
    refine tokensOf_congr ?_ rfl rfl
    rw [freed_engine]
    split
    · rename_i hxg
      rw [hxg]
    · rfl
  have hcounts : ∀ x t', (s.freed t g n pool).tokenCount x t' = s.tokenCount x t' := fun x t' =>
    congrArg (fun r : Except PyError ℕ => r.toOption.getD 0) (htokens x t')
  refine ⟨⟨h.dispatched_le, fun x hx => ?_, fun x hx t' ht' => ?_, fun x hx => ?_,
    fun x hx taskId bound => ?_⟩, h.dispatched⟩
  · rw [hon, freed_engine]
    split
    · dsimp only
      rw [Finset.card_erase_of_mem hmem, h.numTasks g hglt]
      have hpos := Finset.card_pos.mpr ⟨t, hmem⟩
      omega
    · exact h.numTasks x hx
  · rw [hcounts]
    refine (htokens x t').trans ?_
    rw [hon] at ht'
    split at ht'
    · rename_i hxg
      subst hxg
      exact h.tokens_ok x hx t' (Finset.mem_of_mem_erase ht')
    · exact h.tokens_ok x hx t' ht'
  · rw [hon, freed_engine]
    simp only [hcounts]
    split
    · rename_i hxg
      subst hxg
      have hsum := Finset.add_sum_erase (s.onEngine x) (fun t => (s.tokenCount x t : ℤ)) hmem
      dsimp only at hsum ⊢
      rw [h.tokensNum x hglt, ← hsum, hcount]
      omega
    · exact h.tokensNum x hx
  · rw [hon, freed_engine]
    split
    · dsimp only
      rw [Dict.get?_erase]
      split
      · rename_i hid
        constructor
        · rintro ⟨⟩
        · rintro ⟨t', ht', hid', -⟩
          have hmem' := Finset.mem_of_mem_erase ht'
          have heq := hi.taskId_inj t' (mem_onEngine.mp hmem').1 t ht (hid'.trans hid)
          exact absurd heq (Finset.ne_of_mem_erase ht')
      · rename_i hid
        rw [h.upperbounds g hglt]
        constructor
        · rintro ⟨t', ht', hid', hb⟩
          refine ⟨t', Finset.mem_erase.mpr ⟨?_, ht'⟩, hid', hb⟩
          rintro rfl
          exact hid hid'.symm
        · rintro ⟨t', ht', hrest⟩
          exact ⟨t', Finset.mem_of_mem_erase ht', hrest⟩
    · exact h.upperbounds x hx taskId bound

/-! ## Runs -/

/-- Of two groups that share a task, the earlier one has the task of the later one. -/
def Nested (groups : List (TaskRef × List TaskRef)) : Prop :=
  groups.Pairwise fun a b => (∃ t ∈ a.2, t ∈ b.2) → b.1 ∈ a.2

instance (groups : List (TaskRef × List TaskRef)) : Decidable (Nested groups) :=
  inferInstanceAs (Decidable (List.Pairwise _ _))

/-- The groups of the queue before a pass are nested. -/
def DispatchGuard (s : GlobalScheduler) : Action → Prop
  | .schedule => Nested (s.queueGroups s.sortedQueue)
  | _ => True

instance (s : GlobalScheduler) : ∀ a, Decidable (s.DispatchGuard a)
  | .schedule => inferInstanceAs (Decidable (Nested _))
  | .engineMgr _ => .isTrue trivial
  | .cachePrefixes _ => .isTrue trivial
  | .submitChain _ _ => .isTrue trivial
  | .joinGroup _ _ => .isTrue trivial
  | .freeTask _ => .isTrue trivial

lemma Accounted.dispatch (h : Accounted s) (hi : TasksInv s) {g : EngineRef}
    (hg : g < s.engineMgr.next) {ts : List TaskRef} (hnodup : ts.Nodup)
    (hts : ∀ t ∈ ts, t < s.nextTask ∧ (s.task t).isScheduled = false)
    (hok : GlobalScheduler.dispatch g ts s = .ok s') : Accounted s' := by
  refine (dispatch_rule (P := fun ts x => Accounted x ∧ TasksInv x ∧ g < x.engineMgr.next ∧
    ts.Nodup ∧ ∀ t ∈ ts, t < x.nextTask ∧ (x.task t).isScheduled = false)
    (fun t ts x n hP hn => ?_) ts ⟨h, hi, hg, hnodup, hts⟩ hok).1
  obtain ⟨hx, hxi, hxg, hxn, hxt⟩ := hP
  obtain ⟨ht, hfree⟩ := hxt t List.mem_cons_self
  rw [List.nodup_cons] at hxn
  refine ⟨hx.scheduled hxi ht hxg hfree hn, hxi.scheduled n ht hxg, hxg, hxn.2,
    fun t' ht' => ⟨(hxt t' (List.mem_cons_of_mem _ ht')).1, ?_⟩⟩
  rw [scheduled_task, if_neg]
  · exact (hxt t' (List.mem_cons_of_mem _ ht')).2
  · rintro rfl
    exact hxn.1 ht'

/-- What holds of the groups of the rest of the queue during a pass: they are nested, and one with
a task that is scheduled is not formed any more. -/
structure GroupsLeft (s : GlobalScheduler) (l : List TaskRef) : Prop where
  nested : Nested (s.queueGroups l)
  scheduled : ∀ p ∈ s.queueGroups l, (∃ t ∈ p.2, (s.task t).isScheduled = true) →
    (s.task p.1).isScheduled = true

lemma GroupsLeft.tail {t : TaskRef} {rest : List TaskRef} (h : GroupsLeft s (t :: rest)) :
    GroupsLeft s rest where
  nested := (List.pairwise_cons.mp h.nested).2
  scheduled p hp := h.scheduled p (List.mem_cons_of_mem _ hp)

/-- The group that is formed next has no task that is scheduled. -/
lemma GroupsLeft.fresh {t : TaskRef} {rest : List TaskRef} (h : GroupsLeft s (t :: rest))
    (hfree : (s.task t).isScheduled = false) :
    ∀ t' ∈ s.formGroup t rest, (s.task t').isScheduled = false := by
  intro t' ht'
  by_contra hnot
  have hsched := h.scheduled _ List.mem_cons_self ⟨t', ht', by simpa using hnot⟩
  rw [hfree] at hsched
  exact absurd hsched Bool.false_ne_true

/-- A group that shares a task with the one that is dispatched has its own task in it. -/
lemma GroupsLeft.dispatch {t : TaskRef} {rest : List TaskRef} {g : EngineRef}
    (h : GroupsLeft s (t :: rest))
    (hok : GlobalScheduler.dispatch g (s.formGroup t rest) s = .ok s') : GroupsLeft s' rest := by
  have hgroups := (dispatch_frame hok).queueGroups rest
  obtain ⟨hshared, hrest⟩ := List.pairwise_cons.mp h.nested
  refine ⟨hgroups ▸ hrest, fun p hp ⟨t', ht', hsched⟩ => ?_⟩
  rw [hgroups] at hp
  rw [dispatch_isScheduled hok] at hsched ⊢
  rcases hsched with hsched | hmem
  · exact .inl (h.tail.scheduled p hp ⟨t', ht', hsched⟩)
  · exact .inr (hshared p hp ⟨t', hmem, ht'⟩)

/-- A group of the queue is formed from tasks of the queue. -/
lemma mem_of_mem_queueGroups {l : List TaskRef} {p : TaskRef × List TaskRef}
    (hp : p ∈ s.queueGroups l) : p.1 ∈ l ∧ p.2 ⊆ l := by
  induction l with
  | nil => exact absurd hp List.not_mem_nil
  | cons t rest ih =>
      rcases List.mem_cons.mp hp with rfl | hp
      · obtain ⟨l, hl, heq⟩ := formGroup_sublist (s := s) t rest
        refine ⟨List.mem_cons_self, ?_⟩
        dsimp only
        rw [heq]
        exact List.cons_subset_cons t hl.subset
      · exact ⟨List.mem_cons_of_mem _ (ih hp).1,
          fun t' ht' => List.mem_cons_of_mem _ ((ih hp).2 ht')⟩

/-- Before a pass nothing in the queue is scheduled. -/
lemma QueueInv.groupsLeft (hq : QueueInv s) (hnested : Nested (s.queueGroups s.sortedQueue)) :
    GroupsLeft s s.sortedQueue := by
  refine ⟨hnested, fun p hp ⟨t, ht, hsched⟩ => ?_⟩
  have hmem := s.sortedQueue_perm.mem_iff.mp ((mem_of_mem_queueGroups hp).2 ht)
  rw [hq.unscheduled t hmem] at hsched
  exact absurd hsched Bool.false_ne_true

/-- A pass over a queue with nested groups is counted. -/
lemma Accounted.schedule (h : Accounted s) (hi : TasksInv s) (hq : QueueInv s)
    (hnested : Nested (s.queueGroups s.sortedQueue))
    (hok : GlobalScheduler.schedule s = .ok s') : Accounted s' := by
  obtain ⟨s₁, hloop, rfl⟩ := schedule_ok hok
  have hperm := s.sortedQueue_perm
  have h₁ := (scheduleLoop_rule (P := fun l x => Accounted x ∧ TasksInv x ∧ GroupsLeft x l ∧
      l.Nodup ∧ ∀ t ∈ l, t < x.nextTask)
      (fun t rest x hP _ => ?_) (fun t rest x x' g hP hfree hfor hdis => ?_)
      s.sortedQueue ⟨h, hi, hq.groupsLeft hnested, hperm.nodup_iff.mpr hq.nodup, fun t ht =>
        hq.lt_next t (hperm.mem_iff.mp ht)⟩ hloop).1
  · exact { h₁ with }
  · obtain ⟨hx, hxi, hgroups, hnodup, hlt⟩ := hP
    exact ⟨hx, hxi, hgroups.tail, (List.nodup_cons.mp hnodup).2, fun t' ht' =>
      hlt t' (List.mem_cons_of_mem _ ht')⟩
  · obtain ⟨hx, hxi, hgroups, hnodup, hlt⟩ := hP
    obtain ⟨-, -, -, -, -, hlive, -⟩ := engineFor_ok hfor
    have hmem := lt_of_mem_formGroup (s := x) hlt
    refine ⟨hx.dispatch hxi (hxi.live_lt hlive) (nodup_formGroup hnodup)
      (fun t' ht' => ⟨hmem t' ht', hgroups.fresh hfree t' ht'⟩) hdis,
      hxi.dispatch hmem (hxi.live_lt hlive) hdis, hgroups.dispatch hdis,
      (List.nodup_cons.mp hnodup).2, fun t' ht' => ?_⟩
    rw [(dispatch_frame hdis).nextTask]
    exact hlt t' (List.mem_cons_of_mem _ ht')

lemma Accounted.apply (h : Accounted s) (hi : TasksInv s) (hq : QueueInv s) {a : Action}
    (hen : s.Enabled a) (hg : s.DispatchGuard a)
    (hok : GlobalScheduler.apply s fromPretrained a = .ok s') : Accounted s' := by
  cases a with
  | engineMgr a =>
      rw [callEngineMgr_ok hok]
      exact h.congr hi (EngineManager.perform_continues fromPretrained s.engineMgr a) rfl
        (fun _ => rfl)
        (fun _ => rfl) fun _ _ _ => ⟨rfl, rfl, rfl, rfl⟩
  | cachePrefixes caches =>
      cases hok
      exact h.congr hi (EngineManager.SameEngines.continues ⟨rfl, rfl, rfl, rfl⟩) rfl
        (fun _ => rfl) (fun _ => rfl) fun _ _ _ => ⟨rfl, rfl, rfl, rfl⟩
  | submitChain chain bound =>
      rcases submitChain_ok hok with rfl | ⟨taskId, pool, queue, ha, hqueue, rfl⟩
      · exact h
      · have hnone : (s.task s.nextTask).engine = none := by
          refine Option.eq_none_iff_forall_ne_some.mpr fun g hg => ?_
          exact Nat.lt_irrefl _ (hi.engine_lt _ g hg).1
        refine h.congr hi (.refl _) rfl (fun t => ?_) (fun g => ?_) fun g t ht => ?_
        · dsimp only
          rw [Function.update_apply]
          split
          · rename_i heq
            rw [heq, hi.isScheduled, hnone]
            rfl
          · rfl
        · ext t
          rw [mem_onEngine, mem_onEngine]
          dsimp only
          rw [Function.update_apply]
          split
          · rename_i heq
            rw [heq, hnone]
            simp [newTask]
          · rename_i hne
            have hlt : t < s.nextTask + 1 ↔ t < s.nextTask := by
              rw [Nat.lt_succ_iff_lt_or_eq, or_iff_left hne]
            rw [hlt]
        · have hne : t ≠ s.nextTask := (mem_onEngine.mp ht).1.ne
          dsimp only
          rw [Function.update_of_ne hne]
          exact ⟨rfl, rfl, rfl, rfl⟩
  | joinGroup t group =>
      cases hok
      have hsame : ∀ {β : Type} (f : CompletionTask → β),
          (∀ chainGroups, f { s.task t with chain := { (s.task t).chain with chainGroups } } =
            f (s.task t)) → ∀ t',
          f (Function.update s.task t { s.task t with chain := { (s.task t).chain with
            chainGroups := (s.task t).chain.chainGroups ++ [group] } } t') = f (s.task t') := by
        intro β f hf t'
        rw [Function.update_apply]
        split
        · rename_i heq
          rw [hf, heq]
        · rfl
      have hengine := hsame CompletionTask.engine fun _ => rfl
      refine h.congr hi (.refl _) rfl (hsame CompletionTask.isScheduled fun _ => rfl) (fun g => ?_)
        fun g t' _ => ⟨hsame CompletionTask.taskId (fun _ => rfl) t',
          hsame CompletionTask.tasksNumUpperbound (fun _ => rfl) t',
          hsame CompletionTask.tokenizedResult (fun _ => rfl) t',
          hsame (fun task => task.chain.maxGenLength) (fun _ => rfl) t'⟩
      ext t'
      rw [mem_onEngine, mem_onEngine]
      dsimp only
      rw [hengine t']
  | schedule => exact h.schedule hi hq hg hok
  | freeTask t =>
      obtain ⟨g, n, pool, hgt, hn, -, rfl⟩ := freeTask_ok hok
      exact h.freed hi pool hgt hen.2 hn

/-- Nothing is scheduled at the start. -/
lemma accounted_start (config : GlobalSchedulerConfig) (timeout : ℤ) :
    Accounted (start config timeout) := by
  refine ⟨⟨?_, ?_, ?_, ?_, ?_⟩, ?_⟩ <;> simp [start, EngineManager.start]

/-- The accounting is exact in every run whose passes start from nested groups. -/
theorem task_accounting (fromPretrained : Text → Except PyError HFTokenizer)
    (config : GlobalSchedulerConfig) (timeout : ℤ) {s : GlobalScheduler}
    (hs : (system fromPretrained config timeout).ReachableUnder DispatchGuard s) :
    Accounts s := by
  have hinv : (system fromPretrained config timeout).IsInvariantUnder DispatchGuard
      fun s => (TasksInv s ∧ QueueInv s) ∧ Accounted s :=
    (tasks_invariant fromPretrained config timeout DispatchGuard).and (fun s h0 => by
      cases h0
      exact accounted_start config timeout) fun s a s' hi h hg hst =>
        h.apply hi.1 hi.2 hst.1 hg hst.2
  exact (hinv.holds hs).2.toAccounts

/-- A chain of the given groups. -/
def groupChain (firstNodeSv : ℕ) (chainGroups : List ℕ) : TaskChain where
  modelType := ['t', 'o', 'k', 'e', 'n', '_', 'i', 'd']
  chainGroups := chainGroups
  firstNodeSv := firstNodeSv
  fillTexts := [['h', 'i']]

/-- An engine, and three tasks of the given groups that are scheduled together. -/
def threeTasks (groups : List (List ℕ)) : List Action :=
  .engineMgr (.registerEngine { model := ['a'], tokenizer := ['t'] } 0) ::
    groups.map (fun chainGroups => .submitChain (groupChain 0 chainGroups) 256) ++ [.schedule]

/-- Three tasks with one group between them, two of which leave. -/
theorem task_accounting_leaving :
    ∃ s : GlobalScheduler, s.dispatches = [(0, 0), (1, 0), (2, 0)] ∧ s.left = [2, 0] ∧
      Accounts s := by
  obtain ⟨s, hs, hd, hl⟩ := TransitionSystem.RunsTo.reachable
    (P := fun s : GlobalScheduler => s.dispatches = [(0, 0), (1, 0), (2, 0)] ∧ s.left = [2, 0])
    (threeTasks [[1], [2, 1], [1]] ++ [.freeTask 0, .freeTask 2])
    (show (system EngineManager.charTokenizer { graphGroup := true } 3).ReachableUnder
      DispatchGuard _ from .init rfl) (by decide +kernel)
  exact ⟨s, hd, hl, task_accounting EngineManager.charTokenizer { graphGroup := true } 3 hs⟩

/-- The third task is in the group of the first and in that of the second: it is dispatched
twice, and the engine counts four tasks. -/
theorem scheduled_twice :
    ∃ s, (system EngineManager.charTokenizer { graphGroup := true } 3).Reachable s ∧
      ¬ Accounts s := by
  obtain ⟨s, hs, hP⟩ := TransitionSystem.RunsTo.reachable
    (P := fun s : GlobalScheduler => 1 < (s.dispatches.map Prod.fst).count 2)
    (threeTasks [[1], [2], [1, 2]])
    (show (system EngineManager.charTokenizer { graphGroup := true } 3).Reachable _ from
      .init rfl) (by decide +kernel)
  exact ⟨s, hs, fun h => absurd (h.dispatched_le 2) (Nat.not_le.mpr hP)⟩

end GlobalScheduler

end ParrotServe
