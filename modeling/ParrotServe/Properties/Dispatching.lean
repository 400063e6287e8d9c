import ParrotServe.Model.GlobalScheduler
import ParrotServe.Properties.StaleEngines

/-!
# What the registry and a scheduling pass do to engines and tasks

Three steps carry every result about the scheduler.

A call of the engine manager `Continues` the engines: what was scheduled to an engine stays, an
engine that stopped running does not run again, a new engine has nothing scheduled to it.

`schedule_to` has one effect, `scheduled`.  A pass dispatches groups: each is formed from the rest
of the queue, and its engine is a live one that passed the check, `engineFor_ok`.

`scheduleLoop_rule` is the induction over a pass.  Which groups it can dispatch is settled before
it begins, `queueGroups`: grouping does not read what a pass changes.
-/

namespace ParrotServe

/-! ## Calls of the engine manager -/

namespace EngineManager

/-- The engines of `m` go on in `m'`. -/
structure Continues (m m' : EngineManager) : Prop where
  next_le : m.next ≤ m'.next
  config : ∀ g < m.next, (m'.obj g).config = (m.obj g).config
  model : ∀ g < m.next, (m'.obj g).model = (m.obj g).model
  info : ∀ g < m.next, (m'.obj g).serveLayerRuntimeInfo = (m.obj g).serveLayerRuntimeInfo
  running : ∀ g < m.next, (m'.obj g).isRunning = true → (m.obj g).isRunning = true
  fresh : ∀ g, m.next ≤ g → g < m'.next → (m'.obj g).serveLayerRuntimeInfo = {}
  values : ∀ g ∈ m'.engines.values, g ∈ m.engines.values ∨ m.next ≤ g

variable {m m' m'' : EngineManager}

lemma Continues.refl (m : EngineManager) : Continues m m where
  next_le := Nat.le_refl _
  config _ _ := rfl
  model _ _ := rfl
  info _ _ := rfl
  running _ _ h := h
  fresh _ hle hlt := absurd hlt (Nat.not_lt.mpr hle)
  values _ hg := .inl hg

lemma Continues.trans (h : Continues m m') (h' : Continues m' m'') : Continues m m'' where
  next_le := h.next_le.trans h'.next_le
  config g hg := (h'.config g (hg.trans_le h.next_le)).trans (h.config g hg)
  model g hg := (h'.model g (hg.trans_le h.next_le)).trans (h.model g hg)
  info g hg := (h'.info g (hg.trans_le h.next_le)).trans (h.info g hg)
  running g hg hr := h.running g hg (h'.running g (hg.trans_le h.next_le) hr)
  fresh g hle hlt := by
    by_cases hg : g < m'.next
    · exact (h'.info g hg).trans (h.fresh g hle hg)
    · exact h'.fresh g (Nat.le_of_not_lt hg) hlt
  values g hg := by
    rcases h'.values g hg with hg' | hle
    · exact h.values g hg'
    · exact .inr (h.next_le.trans hle)

lemma SameEngines.continues (h : SameEngines m m') : Continues m m' := by
  obtain ⟨hobj, hnext, hengines, -⟩ := h
  refine ⟨hnext.ge, ?_, ?_, ?_, ?_, fun g hle hlt => ?_, fun g hg => .inl (hengines ▸ hg)⟩
  · rw [hobj]
    exact fun _ _ => rfl
  · rw [hobj]
    exact fun _ _ => rfl
  · rw [hobj]
    exact fun _ _ => rfl
  · rw [hobj]
    exact fun _ _ hr => hr
  · rw [hnext] at hlt
    exact absurd hlt (Nat.not_lt.mpr hle)

/-- A change of an engine that leaves what is scheduled to it, and does not start it. -/
lemma setEngine_continues {g : EngineRef} {engine : ExecutionEngine}
    (hconfig : engine.config = (m.obj g).config) (hmodel : engine.model = (m.obj g).model)
    (hinfo : engine.serveLayerRuntimeInfo = (m.obj g).serveLayerRuntimeInfo)
    (hrun : engine.isRunning = true → (m.obj g).isRunning = true) :
    Continues m (m.setEngine g engine) where
  next_le := Nat.le_refl _
  config h _ := by
    rw [setEngine_obj]
    split
    · subst h
      exact hconfig
    · rfl
  model h _ := by
    rw [setEngine_obj]
    split
    · subst h
      exact hmodel
    · rfl
  info h _ := by
    rw [setEngine_obj]
    split
    · subst h
      exact hinfo
    · rfl
  running h _ := by
    rw [setEngine_obj]
    split
    · subst h
      exact hrun
    · exact id
  fresh _ hle hlt := absurd hlt (Nat.not_lt.mpr hle)
  values _ hg := .inl hg

lemma erase_continues (m : EngineManager) (e : ℕ) :
    Continues m { m with engines := m.engines.erase e } :=
  { Continues.refl m with
    values := fun g hg => by
      obtain ⟨x, hget⟩ := (m.engines.erase e).mem_values.mp hg
      rw [Dict.get?_erase] at hget
      split at hget
      · cases hget
      · exact .inl (m.engines.mem_values.mpr ⟨x, hget⟩) }

lemma registerEngine_continues (fromPretrained : Text → Except PyError HFTokenizer)
    (m : EngineManager) (config : EngineConfig) (now : ℤ) :
    Continues m (registerEngine fromPretrained m config now).2 := by
  unfold registerEngine
  split
  · exact .refl m
  · rename_i model _
    have hs := (registerModel_same fromPretrained m model).continues
    split
    · rename_i heq
      rw [heq] at hs
      exact hs
    · rename_i model' m₁ heq
      rw [heq] at hs
      have hs : Continues m m₁ := hs
      refine hs.trans ?_
      split
      · exact { Continues.refl m₁ with }
      · rename_i engineId pool _
        have hold : ∀ k, k < m₁.next → Function.update m₁.obj m₁.next
            { engineId, config, model := model' } k = m₁.obj k := fun k hk =>
          Function.update_of_ne hk.ne _ _
        refine ⟨Nat.le_succ _, fun g hg => ?_, fun g hg => ?_, fun g hg => ?_, fun g hg => ?_,
          fun g hle hlt => ?_, fun g hg => ?_⟩
        · dsimp only
          rw [hold g hg]
        · dsimp only
          rw [hold g hg]
        · dsimp only
          rw [hold g hg]
        · dsimp only
          rw [hold g hg]
          exact id
        · have heq : g = m₁.next := Nat.le_antisymm (Nat.lt_succ_iff.mp hlt) hle
          dsimp only
          rw [heq, Function.update_self]
        · obtain ⟨x, hget⟩ := (m₁.engines.set engineId m₁.next).mem_values.mp hg
          rw [Dict.get?_set] at hget
          split at hget
          · cases hget
            exact .inr (Nat.le_refl _)
          · exact .inl (m₁.engines.mem_values.mpr ⟨x, hget⟩)

lemma removeEngine_continues (m : EngineManager) (engineId : ℕ) :
    Continues m (m.removeEngine engineId).2 := by
  unfold removeEngine
  split
  · exact .refl m
  · rename_i g _
    have hs := ((erase_continues m engineId).trans (removeModel_same (m := { m with
      engines := m.engines.erase engineId }) (m.obj g).modelName).continues)
    split
    · rename_i heq
      rw [heq] at hs
      exact hs
    · rename_i m₁ heq
      rw [heq] at hs
      have hs : Continues m m₁ := hs
      refine hs.trans ?_
      split
      · exact .refl m₁
      · dsimp only
        split
        · exact { Continues.refl m₁ with }
        · split <;> exact { Continues.refl m₁ with }

lemma sweepEngines_continues (l : List (ℕ × EngineRef)) : ∀ m : EngineManager,
    Continues m (sweepEngines l m).2 := by
  induction l with
  | nil => exact Continues.refl
  | cons e l ih =>
      intro m
      unfold sweepEngines
      split
      · exact ih m
      · have hs := removeEngine_continues m e.1
        split
        · rename_i heq
          rw [heq] at hs
          exact hs
        · rename_i heq
          rw [heq] at hs
          exact hs.trans (ih _)

lemma expireEngines_continues (now : ℤ) (l : List (ℕ × ℤ)) : ∀ m : EngineManager,
    Continues m (expireEngines now l m).2 := by
  induction l with
  | nil => exact Continues.refl
  | cons e l ih =>
      intro m
      unfold expireEngines
      split
      · exact .refl m
      · rename_i g _
        split
        · have h : Continues m (m.setEngine g { m.obj g with status := .dead }) :=
            setEngine_continues rfl rfl rfl fun hr => by simp [ExecutionEngine.isRunning] at hr
          exact h.trans (ih _)
        · exact ih m

lemma removeEngine_next (m : EngineManager) (engineId : ℕ) :
    (m.removeEngine engineId).2.next = m.next := by
  unfold removeEngine
  split
  · rfl
  · rename_i g _
    have hs := (removeModel_same (m := { m with engines := m.engines.erase engineId })
      (m.obj g).modelName).next
    split
    · rename_i heq
      rw [heq] at hs
      exact hs
    · rename_i heq
      rw [heq] at hs
      split
      · exact hs
      · dsimp only
        split
        · exact hs
        · split <;> exact hs

lemma sweepEngines_next (l : List (ℕ × EngineRef)) : ∀ m : EngineManager,
    (sweepEngines l m).2.next = m.next := by
  induction l with
  | nil => exact fun _ => rfl
  | cons e l ih =>
      intro m
      unfold sweepEngines
      split
      · exact ih m
      · have hs := removeEngine_next m e.1
        split
        · rename_i heq
          rw [heq] at hs
          exact hs
        · rename_i heq
          rw [heq] at hs
          exact (ih _).trans hs

lemma expireEngines_next (now : ℤ) (l : List (ℕ × ℤ)) : ∀ m : EngineManager,
    (expireEngines now l m).2.next = m.next := by
  induction l with
  | nil => exact fun _ => rfl
  | cons e l ih =>
      intro m
      unfold expireEngines
      split
      · rfl
      · split
        · exact ih _
        · exact ih m

/-- Every call continues the engines. -/
lemma perform_continues (fromPretrained : Text → Except PyError HFTokenizer) (m : EngineManager)
    (a : Action) :
    Continues m (perform fromPretrained m a).2 := by
  cases a with
  | registerEngine config now =>
      have h := registerEngine_continues fromPretrained m config now
      simp only [perform]
      split <;> simp_all
  | engineHeartbeat engineId info now =>
      simp only [perform, engineHeartbeat]
      split
      · exact .refl m
      · rename_i g _
        have h : Continues m (m.setEngine g ((m.obj g).updateRealtimeRuntimeInfo info)) :=
          setEngine_continues rfl rfl rfl id
        exact { h with }
  | updateExpiredEngines now => exact expireEngines_continues now _ m
  | sweepNotRunningEngines => exact sweepEngines_continues _ m
  | raiseException engineId exception =>
      simp only [perform, raiseException]
      split
      · exact .refl m
      · refine setEngine_continues rfl rfl rfl fun hr => ?_
        simp [ExecutionEngine.isRunning, ExecutionEngine.markBad] at hr

end EngineManager

namespace GlobalScheduler

variable {s s' : GlobalScheduler}

/-! ## `schedule_to` -/

/-- The effect of `schedule_to` for a task that counts `n` tokens. -/
def scheduled (s : GlobalScheduler) (t : TaskRef) (g : EngineRef) (n : ℕ) : GlobalScheduler :=
  let info := (s.engine g).serveLayerRuntimeInfo
  { s with
    task := Function.update s.task t { s.task t with engine := some g, isScheduled := true }
    engineMgr := s.engineMgr.setEngine g { s.engine g with serveLayerRuntimeInfo := {
      numTasks := info.numTasks + 1
      tokensNum := info.tokensNum + n
      tasksNumUpperbounds :=
        info.tasksNumUpperbounds.set (s.task t).taskId (s.task t).tasksNumUpperbound } }
    dispatches := s.dispatches ++ [(t, g)] }

/-- Being scheduled does not change what a task counts for. -/
lemma tokensOf_congr {e e' : ExecutionEngine} {task task' : CompletionTask}
    (hmodel : e'.model = e.model) (hres : task'.tokenizedResult = task.tokenizedResult)
    (hlen : task'.chain.maxGenLength = task.chain.maxGenLength) :
    e'.tokensOf task' = e.tokensOf task := by
  unfold ExecutionEngine.tokensOf CompletionTask.getTokenNums
  rw [hmodel, hres, hlen]

lemma scheduleTo_ok {t : TaskRef} {g : EngineRef} (h : s.scheduleTo t g = .ok s') :
    ∃ n, (s.engine g).tokensOf (s.task t) = .ok n ∧ s' = s.scheduled t g n := by
  have htok : (s.engine g).tokensOf { s.task t with engine := some g, isScheduled := true } =
      (s.engine g).tokensOf (s.task t) := tokensOf_congr rfl rfl rfl
  unfold scheduleTo ExecutionEngine.addTask at h
  dsimp only at h
  rw [htok] at h
  cases hn : (s.engine g).tokensOf (s.task t) with
  | error e => simp [hn, bind, Except.bind] at h
  | ok n =>
      simp only [hn, bind, Except.bind, parrotAssert_true, pure, Except.pure, Except.ok.injEq] at h
      exact ⟨n, rfl, h.symm⟩

lemma scheduleTo_eq {t : TaskRef} {g : EngineRef} {n : ℕ}
    (h : (s.engine g).tokensOf (s.task t) = .ok n) :
    s.scheduleTo t g = .ok (s.scheduled t g n) := by
  have htok : (s.engine g).tokensOf { s.task t with engine := some g, isScheduled := true } =
      (s.engine g).tokensOf (s.task t) := tokensOf_congr rfl rfl rfl
  unfold scheduleTo ExecutionEngine.addTask
  dsimp only
  rw [htok, h]
  rfl

/-- The induction over the dispatch of a group. -/
lemma dispatch_rule {g : EngineRef} {P : List TaskRef → GlobalScheduler → Prop}
    (hstep : ∀ t ts s n, P (t :: ts) s → (s.engine g).tokensOf (s.task t) = .ok n →
      P ts (s.scheduled t g n)) (ts : List TaskRef) :
    ∀ {s s' : GlobalScheduler}, P ts s → dispatch g ts s = .ok s' → P [] s' := by
  induction ts with
  | nil =>
      intro s s' hP h
      cases h
      exact hP
  | cons t ts ih =>
      intro s s' hP h
      unfold dispatch at h
      split at h
      · cases h
      · rename_i s₁ hto
        obtain ⟨n, hn, rfl⟩ := scheduleTo_ok hto
        exact ih (hstep t ts s n hP hn) h

/-- What scheduling leaves as it is. -/
structure Frame (s s' : GlobalScheduler) : Prop where
  config : s'.config = s.config
  nextTask : s'.nextTask = s.nextTask
  taskIdPool : s'.taskIdPool = s.taskIdPool
  taskQueue : s'.taskQueue = s.taskQueue
  left : s'.left = s.left
  taskId : ∀ t, (s'.task t).taskId = (s.task t).taskId
  chain : ∀ t, (s'.task t).chain = (s.task t).chain
  tokenizedResult : ∀ t, (s'.task t).tokenizedResult = (s.task t).tokenizedResult
  tasksNumUpperbound : ∀ t, (s'.task t).tasksNumUpperbound = (s.task t).tasksNumUpperbound
  next : s'.engineMgr.next = s.engineMgr.next
  engines : s'.engineMgr.engines = s.engineMgr.engines
  engineIdPool : s'.engineMgr.engineIdPool = s.engineMgr.engineIdPool
  tokenizersWrapper : s'.engineMgr.tokenizersWrapper = s.engineMgr.tokenizersWrapper
  engineId : ∀ g, (s'.engine g).engineId = (s.engine g).engineId
  engineConfig : ∀ g, (s'.engine g).config = (s.engine g).config
  model : ∀ g, (s'.engine g).model = (s.engine g).model
  status : ∀ g, (s'.engine g).status = (s.engine g).status

lemma Frame.refl (s : GlobalScheduler) : Frame s s := by
  constructor <;> simp

lemma Frame.trans {s'' : GlobalScheduler} (h : Frame s s') (h' : Frame s' s'') : Frame s s'' where
  config := h'.config.trans h.config
  nextTask := h'.nextTask.trans h.nextTask
  taskIdPool := h'.taskIdPool.trans h.taskIdPool
  taskQueue := h'.taskQueue.trans h.taskQueue
  left := h'.left.trans h.left
  taskId t := (h'.taskId t).trans (h.taskId t)
  chain t := (h'.chain t).trans (h.chain t)
  tokenizedResult t := (h'.tokenizedResult t).trans (h.tokenizedResult t)
  tasksNumUpperbound t := (h'.tasksNumUpperbound t).trans (h.tasksNumUpperbound t)
  next := h'.next.trans h.next
  engines := h'.engines.trans h.engines
  engineIdPool := h'.engineIdPool.trans h.engineIdPool
  tokenizersWrapper := h'.tokenizersWrapper.trans h.tokenizersWrapper
  engineId g := (h'.engineId g).trans (h.engineId g)
  engineConfig g := (h'.engineConfig g).trans (h.engineConfig g)
  model g := (h'.model g).trans (h.model g)
  status g := (h'.status g).trans (h.status g)

lemma Frame.getLiveEngines (h : Frame s s') :
    s'.engineMgr.getLiveEngines = s.engineMgr.getLiveEngines := by
  have hstatus : ∀ g, (s'.engineMgr.obj g).status = (s.engineMgr.obj g).status := h.status
  simp only [EngineManager.getLiveEngines, ExecutionEngine.isRunning, h.engines, hstatus]

lemma scheduled_task (s : GlobalScheduler) (t t' : TaskRef) (g : EngineRef) (n : ℕ) :
    (s.scheduled t g n).task t' =
      if t' = t then { s.task t with engine := some g, isScheduled := true } else s.task t' := by
  simp only [scheduled, Function.update_apply]

lemma scheduled_engine (s : GlobalScheduler) (t : TaskRef) (g h : EngineRef) (n : ℕ) :
    (s.scheduled t g n).engine h =
      if h = g then { s.engine g with serveLayerRuntimeInfo := {
        numTasks := (s.engine g).serveLayerRuntimeInfo.numTasks + 1
        tokensNum := (s.engine g).serveLayerRuntimeInfo.tokensNum + n
        tasksNumUpperbounds := (s.engine g).serveLayerRuntimeInfo.tasksNumUpperbounds.set
          (s.task t).taskId (s.task t).tasksNumUpperbound } }
      else s.engine h :=
  EngineManager.setEngine_obj _ _ _ _

lemma scheduled_frame (s : GlobalScheduler) (t : TaskRef) (g : EngineRef) (n : ℕ) :
    Frame s (s.scheduled t g n) := by
  have htask : ∀ {β : Type} (f : CompletionTask → β),
      f { s.task t with engine := some g, isScheduled := true } = f (s.task t) →
      ∀ t', f ((s.scheduled t g n).task t') = f (s.task t') := by
    intro β f hf t'
    rw [scheduled_task]
    split
    · rename_i heq
      rw [hf, heq]
    · rfl
  have hengine : ∀ {β : Type} (f : ExecutionEngine → β),
      (∀ info, f { s.engine g with serveLayerRuntimeInfo := info } = f (s.engine g)) →
      ∀ h, f ((s.scheduled t g n).engine h) = f (s.engine h) := by
    intro β f hf h
    rw [scheduled_engine]
    split
    · rename_i heq
      rw [hf, heq]
    · rfl
  refine ⟨rfl, rfl, rfl, rfl, rfl, htask CompletionTask.taskId rfl, htask CompletionTask.chain rfl,
    htask CompletionTask.tokenizedResult rfl, htask CompletionTask.tasksNumUpperbound rfl, rfl, rfl,
    rfl, rfl, hengine ExecutionEngine.engineId fun _ => rfl,
    hengine ExecutionEngine.config fun _ => rfl, hengine ExecutionEngine.model fun _ => rfl,
    hengine ExecutionEngine.status fun _ => rfl⟩

lemma dispatch_frame {g : EngineRef} {ts : List TaskRef} (h : dispatch g ts s = .ok s') :
    Frame s s' :=
  dispatch_rule (P := fun _ x => Frame s x) (fun t _ x n hf _ => hf.trans (scheduled_frame x t g n))
    ts (.refl s) h

/-- A dispatch schedules its tasks. -/
lemma dispatch_isScheduled {g : EngineRef} {ts : List TaskRef} (h : dispatch g ts s = .ok s')
    (t : TaskRef) :
    (s'.task t).isScheduled = true ↔ (s.task t).isScheduled = true ∨ t ∈ ts := by
  have hrun := dispatch_rule (P := fun us x => ((x.task t).isScheduled = true ∨ t ∈ us) ↔
      ((s.task t).isScheduled = true ∨ t ∈ ts))
    (fun u us x n hP _ => ?_) ts Iff.rfl h
  · simpa using hrun
  · rw [← hP, scheduled_task]
    by_cases htu : t = u <;> simp [htu]

/-! ## The check of an engine -/

/-- What `check_engine_available` checks. -/
structure Available (s : GlobalScheduler) (tasks : List TaskRef) (models : List Text)
    (modelType : ModelType) (bound : ℤ) (engine : ExecutionEngine) : Prop where
  type_eq : modelType = engine.model.modelType
  models_nil_or_mem : models = [] ∨ engine.modelName ∈ models
  le_bound : 1 + engine.getNumTasks ≤ bound
  le_upperbound : tasks.length + engine.getNumTasks ≤ engine.getTasksNumUpperbound
  le_capacity : tasks.length ≤ engine.getRemainTasksCapacity
  tokens_le : modelType = .tokenId → ∃ total, s.totalTokensNum engine.model.tokenizerName tasks =
    .ok total ∧ (total : ℤ) ≤ engine.getRemainTokensCapacity

lemma checkEngineAvailable_ok {tasks : List TaskRef} {models : List Text} {modelType : ModelType}
    {bound : ℤ} {engine : ExecutionEngine}
    (h : s.checkEngineAvailable tasks models modelType bound engine = .ok true) :
    Available s tasks models modelType bound engine := by
  unfold checkEngineAvailable at h
  split at h
  · cases h
  rename_i htype
  split at h
  · cases h
  rename_i hmodels
  split at h
  · cases h
  rename_i hbound
  split at h
  · cases h
  rename_i hupper
  split at h
  · cases h
  rename_i htasks
  refine ⟨not_not.mp htype, ?_, not_lt.mp hbound, not_lt.mp hupper, not_lt.mp htasks, ?_⟩
  · rcases models with _ | ⟨model, models⟩
    · exact .inl rfl
    · refine .inr (not_not.mp fun hnot => hmodels ⟨by simp, hnot⟩)
  · rintro rfl
    dsimp only at h
    split at h
    · cases h
    · rename_i total htotal
      exact ⟨total, htotal, by simpa using h⟩

lemma filterEngines_ok {check : ExecutionEngine → Except PyError Bool} (gs : List EngineRef) :
    ∀ {gs' : List EngineRef}, s.filterEngines check gs = .ok gs' →
      ∀ g ∈ gs', g ∈ gs ∧ check (s.engine g) = .ok true := by
  induction gs with
  | nil =>
      intro gs' h g hg
      cases h
      exact absurd hg List.not_mem_nil
  | cons x gs ih =>
      intro gs' h g hg
      unfold filterEngines at h
      split at h
      · cases h
      · rename_i available hcheck
        split at h
        · cases h
        · rename_i rest hrest
          cases h
          split at hg
          · rename_i htrue
            rcases List.mem_cons.mp hg with rfl | hg
            · exact ⟨List.mem_cons_self, htrue ▸ hcheck⟩
            · have := ih hrest g hg
              exact ⟨List.mem_cons_of_mem _ this.1, this.2⟩
          · have := ih hrest g hg
            exact ⟨List.mem_cons_of_mem _ this.1, this.2⟩

/-- The best engine is one of the list. -/
lemma foldl_betterEngine_mem {withPrefixes : ℕ → Bool} (gs : List EngineRef) :
    ∀ g, gs.foldl (s.betterEngine withPrefixes) g ∈ g :: gs := by
  induction gs with
  | nil => exact fun g => List.mem_cons_self
  | cons x gs ih =>
      intro g
      have hmem := ih (s.betterEngine withPrefixes g x)
      rw [List.foldl_cons]
      rcases List.mem_cons.mp hmem with heq | hmem
      · rw [heq]
        unfold betterEngine
        split
        · simp
        · split
          · simp
          · split <;> simp
      · exact List.mem_cons_of_mem _ (List.mem_cons_of_mem _ hmem)

lemma bestEngine_ok {first : TaskRef} {gs : List EngineRef} {g : EngineRef}
    (h : s.bestEngine first gs = .ok (some g)) : g ∈ gs := by
  cases gs with
  | nil => cases h
  | cons x gs =>
      simp only [bestEngine] at h
      split at h
      · cases h
      · rw [Except.ok.injEq, Option.some.injEq] at h
        exact h ▸ foldl_betterEngine_mem gs x

/-- The bound a group is checked with. -/
def groupBound (s : GlobalScheduler) (tasks : List TaskRef) : ℤ :=
  tasks.foldl (fun bound t => min bound ((s.task t).tasksNumUpperbound : ℤ)) 999999999

/-- The minimum of a list is a bound for each of its elements. -/
lemma foldl_min_le {ι : Type*} (f : ι → ℤ) (ts : List ι) : ∀ b : ℤ,
    ts.foldl (fun bound t => min bound (f t)) b ≤ b ∧
      ∀ t ∈ ts, ts.foldl (fun bound t => min bound (f t)) b ≤ f t := by
  induction ts with
  | nil => exact fun b => ⟨le_rfl, fun t ht => absurd ht List.not_mem_nil⟩
  | cons x ts ih =>
      intro b
      obtain ⟨hle, hall⟩ := ih (min b (f x))
      refine ⟨hle.trans (min_le_left _ _), fun t ht => ?_⟩
      rcases List.mem_cons.mp ht with rfl | ht
      · exact hle.trans (min_le_right _ _)
      · exact hall t ht

/-- The engine of a group is live and passed the check. -/
lemma engineFor_ok {tasks : List TaskRef} {g : EngineRef} (h : s.engineFor tasks = .ok (some g)) :
    ∃ first rest modelType, tasks = first :: rest ∧
      getModelType (s.task first).chain.modelType = .ok modelType ∧
      g ∈ s.engineMgr.getLiveEngines ∧
      Available s tasks (s.task first).chain.models modelType (s.groupBound tasks)
        (s.engine g) := by
  unfold engineFor getEngineList at h
  rcases tasks with _ | ⟨first, rest⟩
  · cases h
  · dsimp only at h
    split at h
    · cases h
    · rename_i gs hgs
      split at hgs
      · cases hgs
      · rename_i modelType htype
        have hfilter := filterEngines_ok _ hgs g (bestEngine_ok h)
        exact ⟨first, rest, modelType, rfl, htype, hfilter.1, checkEngineAvailable_ok hfilter.2⟩

/-! ## Groups -/

/-- A group is its task and some of the rest of the queue, in its order. -/
lemma foldl_groupTask_sublist {t : TaskRef} (rest : List TaskRef) : ∀ st : GroupState,
    ∃ l, l.Sublist rest ∧ (rest.foldl (s.groupTask t) st).curGroup = st.curGroup ++ l := by
  induction rest with
  | nil => exact fun st => ⟨[], .slnil, by simp⟩
  | cons j rest ih =>
      intro st
      obtain ⟨l, hl, heq⟩ := ih (s.groupTask t st j)
      have hstep : (s.groupTask t st j).curGroup = st.curGroup ∨
          (s.groupTask t st j).curGroup = st.curGroup ++ [j] := by
        unfold groupTask
        dsimp only
        split
        · simp
        · split <;> simp
      rw [List.foldl_cons, heq]
      rcases hstep with h | h
      · exact ⟨l, hl.cons j, by rw [h]⟩
      · exact ⟨j :: l, hl.cons_cons j, by rw [h, List.append_assoc, List.singleton_append]⟩

lemma formGroup_sublist (t : TaskRef) (rest : List TaskRef) :
    ∃ l, l.Sublist rest ∧ s.formGroup t rest = t :: l := by
  obtain ⟨l, hl, heq⟩ := foldl_groupTask_sublist (s := s) (t := t) rest
    { curGroup := [t], chainGroups := (s.task t).chain.chainGroups,
      graphGroupEnabled := s.config.graphGroup, ctxGroupEnabled := s.config.ctxGroup }
  exact ⟨l, hl, heq⟩

/-- Without grouping every task is a group. -/
lemma formGroup_eq_singleton (hgraph : s.config.graphGroup = false)
    (hctx : s.config.ctxGroup = false) (t : TaskRef) (rest : List TaskRef) :
    s.formGroup t rest = [t] := by
  have hfold : ∀ (rest : List TaskRef) (st : GroupState), st.graphGroupEnabled = false →
      st.ctxGroupEnabled = false → rest.foldl (s.groupTask t) st = st := by
    intro rest
    induction rest with
    | nil => exact fun _ _ _ => rfl
    | cons j rest ih =>
        intro st hg hc
        have hstep : s.groupTask t st j = st := by simp [groupTask, hg, hc]
        rw [List.foldl_cons, hstep]
        exact ih st hg hc
  unfold formGroup
  rw [hfold rest _ hgraph hctx]

/-- The tasks of a queue, each with the group that is formed for it from the rest. -/
def queueGroups (s : GlobalScheduler) : List TaskRef → List (TaskRef × List TaskRef)
  | [] => []
  | t :: rest => (t, s.formGroup t rest) :: s.queueGroups rest

/-- Grouping reads the configuration and the chains. -/
lemma Frame.formGroup (hf : Frame s s') (t : TaskRef) (rest : List TaskRef) :
    s'.formGroup t rest = s.formGroup t rest := by
  have hstep : s'.groupTask t = s.groupTask t := by
    funext st j
    simp only [groupTask, hf.chain]
  simp only [GlobalScheduler.formGroup, hstep, hf.config, hf.chain]

lemma Frame.queueGroups (hf : Frame s s') (l : List TaskRef) :
    s'.queueGroups l = s.queueGroups l := by
  induction l with
  | nil => rfl
  | cons t rest ih => rw [GlobalScheduler.queueGroups, GlobalScheduler.queueGroups,
      hf.formGroup, ih]

/-- The induction over a pass: what every dispatch of a group preserves, the pass does.  A task is
skipped when it is scheduled already, or when its group finds no engine. -/
lemma scheduleLoop_rule {P : List TaskRef → GlobalScheduler → Prop}
    (hskip : ∀ t rest s, P (t :: rest) s → (s.task t).isScheduled = true ∨
      s.engineFor (s.formGroup t rest) = .ok none → P rest s)
    (hgroup : ∀ t rest s s' g, P (t :: rest) s → (s.task t).isScheduled = false →
      s.engineFor (s.formGroup t rest) = .ok (some g) →
      dispatch g (s.formGroup t rest) s = .ok s' → P rest s')
    (l : List TaskRef) : ∀ {s s' : GlobalScheduler}, P l s →
      scheduleLoop l s = .ok s' → P [] s' := by
  induction l with
  | nil =>
      intro s s' hP h
      cases h
      exact hP
  | cons t rest ih =>
      intro s s' hP h
      unfold scheduleLoop findEngine at h
      split at h
      · rename_i hs
        exact ih (hskip t rest s hP (.inl hs)) h
      · rename_i hs
        have hs : (s.task t).isScheduled = false := by simpa using hs
        cases hfor : s.engineFor (s.formGroup t rest) with
        | error e => simp [hfor] at h
        | ok found =>
            cases found with
            | none =>
                simp only [hfor] at h
                exact ih (hskip t rest s hP (.inr hfor)) h
            | some g =>
                simp only [hfor] at h
                cases hdis : dispatch g (s.formGroup t rest) s with
                | error e => simp [hdis] at h
                | ok s₁ =>
                    simp only [hdis] at h
                    exact ih (hgroup t rest s s₁ g hP hs hfor hdis) h

lemma scheduleLoop_frame {l : List TaskRef} (h : scheduleLoop l s = .ok s') : Frame s s' :=
  scheduleLoop_rule (P := fun _ x => Frame s x) (fun _ _ _ hf _ => hf)
    (fun _ _ _ _ _ hf _ _ hdis => hf.trans (dispatch_frame hdis)) l (.refl s) h

/-- A pass sorts the queue. -/
lemma sortedQueue_perm (s : GlobalScheduler) : s.sortedQueue.Perm s.taskQueue := by
  unfold sortedQueue
  split
  · exact List.perm_insertionSort _ _
  · exact .refl _

lemma schedule_ok (h : s.schedule = .ok s') :
    ∃ s₁, scheduleLoop s.sortedQueue s = .ok s₁ ∧
      s' = { s₁ with taskQueue := s.sortedQueue.filter fun t => !(s₁.task t).isScheduled } := by
  unfold schedule at h
  split at h
  · cases h
  · rename_i s₁ hloop
    cases h
    exact ⟨s₁, hloop, rfl⟩

/-! ## The other steps -/

/-- A new task of `submit_chain`: it has a result for each tokenizer, and no engine. -/
def newTask (w : TokenizersWrapper) (taskId : ℕ) (chain : TaskChain) (tasksNumUpperbound : ℕ) :
    CompletionTask where
  taskId := taskId
  chain := chain
  tokenizedResult := some (chain.fillTexts.foldl
    (fun r text => CompletionTask.addTokenized r (w.tokenizeAll text)) .empty)
  tasksNumUpperbound := tasksNumUpperbound

lemma submitChain_ok {chain : TaskChain} {bound : ℕ} (h : s.submitChain chain bound = .ok s') :
    s' = s ∨ ∃ taskId pool queue, s.taskIdPool.allocate = (.ok taskId, pool) ∧
      (queue = s.taskQueue ∨ queue = s.taskQueue ++ [s.nextTask]) ∧
      s' = { s with
        task := Function.update s.task s.nextTask
          (newTask s.engineMgr.tokenizersWrapper taskId chain bound)
        nextTask := s.nextTask + 1
        taskIdPool := pool
        taskQueue := queue } := by
  unfold submitChain createTask at h
  rcases ha : s.taskIdPool.allocate with ⟨_ | taskId, pool⟩
  · simp only [ha] at h
    cases h
    exact .inl rfl
  · simp only [ha, Function.update_self, CompletionTask.tokenizeChain, bind, Except.bind,
      Option.isNone_none, parrotAssert_true, pure, Except.pure, Function.update_idem,
      submitTask] at h
    refine .inr ⟨taskId, pool, ?_⟩
    split at h
    · rename_i hfull
      split at hfull
      · cases h
        exact ⟨_, rfl, .inl rfl, rfl⟩
      · cases hfull
    · rename_i hsub
      split at hsub
      · cases hsub
      · cases hsub
        cases h
        exact ⟨_, rfl, .inr rfl, rfl⟩

/-- The effect of `free_task` for a task that counts `n` tokens. -/
def freed (s : GlobalScheduler) (t : TaskRef) (g : EngineRef) (n : ℕ) (pool : RecyclePool) :
    GlobalScheduler :=
  let info := (s.engine g).serveLayerRuntimeInfo
  { s with
    taskIdPool := pool
    engineMgr := s.engineMgr.setEngine g { s.engine g with serveLayerRuntimeInfo := {
      numTasks := info.numTasks - 1
      tokensNum := info.tokensNum - n
      tasksNumUpperbounds := info.tasksNumUpperbounds.erase (s.task t).taskId } }
    left := t :: s.left }

lemma removeTask_ok {e e' : ExecutionEngine} {task : CompletionTask}
    (h : e.removeTask task = .ok e') :
    ∃ n, e.tokensOf task = .ok n ∧ e' = { e with serveLayerRuntimeInfo := {
      numTasks := e.serveLayerRuntimeInfo.numTasks - 1
      tokensNum := e.serveLayerRuntimeInfo.tokensNum - n
      tasksNumUpperbounds := e.serveLayerRuntimeInfo.tasksNumUpperbounds.erase task.taskId } } := by
  unfold ExecutionEngine.removeTask at h
  cases hs : task.isScheduled with
  | false => simp [hs, bind, Except.bind] at h
  | true =>
      simp only [hs, parrotAssert_true, bind, Except.bind] at h
      split at h
      · cases h
      · cases hn : e.tokensOf task with
        | error x => simp [hn] at h
        | ok n =>
            simp only [hn, pure, Except.pure, Except.ok.injEq] at h
            exact ⟨n, rfl, h.symm⟩

lemma freeTask_ok {t : TaskRef} (h : s.freeTask t = .ok s') :
    ∃ g n pool, (s.task t).engine = some g ∧ (s.engine g).tokensOf (s.task t) = .ok n ∧
      s.taskIdPool.free (s.task t).taskId = (.ok (), pool) ∧ s' = s.freed t g n pool := by
  unfold freeTask leaveScheduled at h
  rcases hfree : s.taskIdPool.free (s.task t).taskId with ⟨_ | _, pool⟩
  · simp [hfree] at h
  · simp only [hfree] at h
    split at h
    · cases h
    · rename_i g hg
      split at h
      · cases h
      · rename_i e' hremove
        obtain ⟨n, hn, rfl⟩ := removeTask_ok hremove
        cases h
        exact ⟨g, n, pool, hg, hn, rfl, rfl⟩

lemma freed_engine (s : GlobalScheduler) (t : TaskRef) (g h : EngineRef) (n : ℕ)
    (pool : RecyclePool) :
    (s.freed t g n pool).engine h =
      if h = g then { s.engine g with serveLayerRuntimeInfo := {
        numTasks := (s.engine g).serveLayerRuntimeInfo.numTasks - 1
        tokensNum := (s.engine g).serveLayerRuntimeInfo.tokensNum - n
        tasksNumUpperbounds :=
          (s.engine g).serveLayerRuntimeInfo.tasksNumUpperbounds.erase (s.task t).taskId } }
      else s.engine h :=
  EngineManager.setEngine_obj _ _ _ _

/-- A call of the engine manager continues the engines and touches nothing else. -/
lemma callEngineMgr_ok {fromPretrained : Text → Except PyError HFTokenizer}
    {a : EngineManager.Action} (h : s.callEngineMgr fromPretrained a = .ok s') :
    s' = { s with engineMgr := (EngineManager.perform fromPretrained s.engineMgr a).2 } := by
  unfold callEngineMgr at h
  split at h
  all_goals first
    | (rename_i heq; cases h; rw [heq])
    | cases h

end GlobalScheduler

end ParrotServe
