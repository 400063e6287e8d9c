import ParrotServe.Properties.TaskAccounting

/-!
# Tokenized results and live engines

A task is tokenized once, with the tokenizers that are registered when it is submitted, and is
compared with every live engine of every later pass.  `Tokenized` is what a pass relies on: each
queued task has a result for the tokenizer of each live engine that needs one.  Then the pass
raises nothing, `schedule_succeeds`.

Two things can break it.  An engine whose tokenizer is new to a queued task may register before
the task is scheduled; and the tokenizer of a live engine may be missing when a task is submitted
(see `RegistryGuard`).  `TokenizedGuard` excludes both, with a chain that has no Fill (it is
tokenized by nobody) and a model type that does not exist (the pass raises on it).
`tokenized_results` is the statement over runs, `late_tokenizer` a run of the first kind.
-/

namespace ParrotServe

/-- The task has a result under a tokenizer name. -/
def CompletionTask.hasResult (task : CompletionTask) (tokenizerName : Text) : Bool :=
  match task.tokenizedResult with
  | none => false
  | some result => decide (tokenizerName ∈ result.keys)

namespace EngineManager

/-- The model an engine with this configuration gets. -/
def modelFor (m : EngineManager) (config : EngineConfig) : Option LanguageModel :=
  match LanguageModel.fromEngineConfig config with
  | .error _ => none
  | .ok model => some ((m.models.get? model.modelName).getD model)

end EngineManager

namespace GlobalScheduler

variable {s s' : GlobalScheduler} {fromPretrained : Text → Except PyError HFTokenizer}

/-- The task can be compared with the live engines. -/
def Ready (s : GlobalScheduler) (t : TaskRef) : Prop :=
  (getModelType (s.task t).chain.modelType).isOk = true ∧
    ∀ g ∈ s.engineMgr.getLiveEngines, (s.engine g).model.modelType = .tokenId →
      (s.task t).hasResult (s.engine g).model.tokenizerName = true

/-- Every queued task has a result for every live engine with a tokenizer. -/
def Tokenized (s : GlobalScheduler) : Prop :=
  ∀ t ∈ s.taskQueue, ∀ g ∈ s.engineMgr.getLiveEngines, (s.engine g).model.modelType = .tokenId →
    (s.task t).hasResult (s.engine g).model.tokenizerName = true

/-- The steps after which the queued tasks can still be compared with the live engines. -/
def TokenizedGuard (s : GlobalScheduler) : Action → Prop
  | .submitChain chain _ =>
      (getModelType chain.modelType).isOk = true ∧ chain.fillTexts ≠ [] ∧
        ∀ g ∈ s.engineMgr.getLiveEngines, (s.engine g).model.modelType = .tokenId →
          (s.engine g).model.tokenizerName ∈ s.engineMgr.tokenizersWrapper.tokenizers.keys
  | .engineMgr (.registerEngine config _) =>
      ∀ model ∈ s.engineMgr.modelFor config, model.modelType = .tokenId →
        ∀ t ∈ s.taskQueue, (s.task t).hasResult model.tokenizerName = true
  | _ => True

instance (s : GlobalScheduler) : ∀ a, Decidable (s.TokenizedGuard a)
  | .submitChain chain _ => inferInstanceAs (Decidable (_ ∧ chain.fillTexts ≠ [] ∧ _))
  | .engineMgr (.registerEngine config _) =>
      inferInstanceAs (Decidable (∀ model ∈ s.engineMgr.modelFor config, _ → _))
  | .engineMgr (.engineHeartbeat _ _ _) => .isTrue trivial
  | .engineMgr (.updateExpiredEngines _) => .isTrue trivial
  | .engineMgr .sweepNotRunningEngines => .isTrue trivial
  | .engineMgr (.raiseException _ _) => .isTrue trivial
  | .cachePrefixes _ => .isTrue trivial
  | .joinGroup _ _ => .isTrue trivial
  | .schedule => .isTrue trivial
  | .freeTask _ => .isTrue trivial

/-! ## A pass over tasks that are ready -/

lemma getTokenNums_isOk {task : CompletionTask} {name : Text} (h : task.hasResult name = true) :
    ∃ n, task.getTokenNums name = .ok n := by
  unfold CompletionTask.hasResult at h
  unfold CompletionTask.getTokenNums
  cases hresult : task.tokenizedResult with
  | none =>
      rw [hresult] at h
      cases h
  | some result =>
      rw [hresult] at h
      obtain ⟨fills, hfills⟩ := result.mem_keys.mp (of_decide_eq_true h)
      dsimp only
      rw [hfills]
      exact ⟨_, rfl⟩

lemma totalTokensNum_isOk {name : Text} (ts : List TaskRef)
    (h : ∀ t ∈ ts, (s.task t).hasResult name = true) :
    ∃ total, s.totalTokensNum name ts = .ok total := by
  induction ts with
  | nil => exact ⟨0, rfl⟩
  | cons t ts ih =>
      obtain ⟨n, hn⟩ := getTokenNums_isOk (h t List.mem_cons_self)
      obtain ⟨total, htotal⟩ := ih fun t' ht' => h t' (List.mem_cons_of_mem _ ht')
      exact ⟨n + total, by simp only [totalTokensNum, hn, htotal]⟩

lemma checkEngineAvailable_isOk {ts : List TaskRef} {models : List Text} {modelType : ModelType}
    {bound : ℤ} {engine : ExecutionEngine} (h : engine.model.modelType = .tokenId →
      ∀ t ∈ ts, (s.task t).hasResult engine.model.tokenizerName = true) :
    ∃ b, s.checkEngineAvailable ts models modelType bound engine = .ok b := by
  unfold checkEngineAvailable
  split
  · exact ⟨_, rfl⟩
  rename_i htype
  split
  · exact ⟨_, rfl⟩
  split
  · exact ⟨_, rfl⟩
  split
  · exact ⟨_, rfl⟩
  split
  · exact ⟨_, rfl⟩
  cases modelType with
  | text => exact ⟨_, rfl⟩
  | tokenId =>
      obtain ⟨total, htotal⟩ := totalTokensNum_isOk ts (h (not_not.mp htype).symm)
      simp only [htotal]
      exact ⟨_, rfl⟩

lemma filterEngines_isOk {check : ExecutionEngine → Except PyError Bool} (gs : List EngineRef)
    (h : ∀ g ∈ gs, ∃ b, check (s.engine g) = .ok b) :
    ∃ gs', s.filterEngines check gs = .ok gs' := by
  induction gs with
  | nil => exact ⟨[], rfl⟩
  | cons g gs ih =>
      obtain ⟨b, hb⟩ := h g List.mem_cons_self
      obtain ⟨rest, hrest⟩ := ih fun g' hg' => h g' (List.mem_cons_of_mem _ hg')
      simp only [filterEngines, hb, hrest]
      exact ⟨_, rfl⟩

lemma engineFor_isOk {first : TaskRef} {rest : List TaskRef}
    (hfree : (s.task first).isScheduled = false) (h : ∀ t ∈ first :: rest, s.Ready t) :
    ∃ found, s.engineFor (first :: rest) = .ok found := by
  have htype := (h first List.mem_cons_self).1
  unfold engineFor getEngineList
  cases hm : getModelType (s.task first).chain.modelType with
  | error e => simp [hm, Except.isOk, Except.toBool] at htype
  | ok modelType =>
      have hcheck : ∀ bound, ∃ gs, s.filterEngines (s.checkEngineAvailable (first :: rest)
          (s.task first).chain.models modelType bound) s.engineMgr.getLiveEngines = .ok gs :=
        fun bound => filterEngines_isOk _ fun g hg => checkEngineAvailable_isOk fun ht t hmem =>
          (h t hmem).2 g hg ht
      obtain ⟨gs, hgs⟩ := hcheck ((first :: rest).foldl
        (fun bound t => min bound ((s.task t).tasksNumUpperbound : ℤ)) 999999999)
      simp only [hm, hgs]
      cases gs with
      | nil => exact ⟨_, rfl⟩
      | cons g gs => simp [bestEngine, hfree]

lemma tokensOf_isOk {t : TaskRef} {g : EngineRef} (h : s.Ready t)
    (hg : g ∈ s.engineMgr.getLiveEngines) : ∃ n, (s.engine g).tokensOf (s.task t) = .ok n := by
  unfold ExecutionEngine.tokensOf
  cases htype : (s.engine g).model.modelType with
  | text => exact ⟨0, rfl⟩
  | tokenId => exact getTokenNums_isOk (h.2 g hg htype)

lemma Frame.ready (hf : Frame s s') {t : TaskRef} (h : s.Ready t) : s'.Ready t := by
  unfold Ready CompletionTask.hasResult at *
  rw [hf.getLiveEngines, hf.chain, hf.tokenizedResult]
  refine ⟨h.1, fun g hg ht => ?_⟩
  rw [hf.model] at ht ⊢
  exact h.2 g hg ht

lemma dispatch_isOk {g : EngineRef} (ts : List TaskRef) : ∀ {s : GlobalScheduler},
    (∀ t ∈ ts, s.Ready t) → g ∈ s.engineMgr.getLiveEngines →
    ∃ s', dispatch g ts s = .ok s' := by
  induction ts with
  | nil => exact fun _ _ => ⟨_, rfl⟩
  | cons t ts ih =>
      intro s h hg
      obtain ⟨n, hn⟩ := tokensOf_isOk (h t List.mem_cons_self) hg
      have hf := scheduled_frame s t g n
      obtain ⟨s', hs'⟩ := ih (s := s.scheduled t g n)
        (fun t' ht' => hf.ready (h t' (List.mem_cons_of_mem _ ht'))) (hf.getLiveEngines ▸ hg)
      exact ⟨s', by simp only [dispatch, scheduleTo_eq hn, hs']⟩

lemma scheduleLoop_isOk (l : List TaskRef) : ∀ {s : GlobalScheduler}, (∀ t ∈ l, s.Ready t) →
    ∃ s', scheduleLoop l s = .ok s' := by
  induction l with
  | nil => exact fun _ => ⟨_, rfl⟩
  | cons t rest ih =>
      intro s h
      have hrest : ∀ t' ∈ rest, s.Ready t' := fun t' ht' => h t' (List.mem_cons_of_mem _ ht')
      unfold scheduleLoop
      split
      · exact ih hrest
      · rename_i hfree
        have hfree : (s.task t).isScheduled = false := by simpa using hfree
        obtain ⟨l, hl, hgroup⟩ := formGroup_sublist (s := s) t rest
        have hready : ∀ t' ∈ t :: l, s.Ready t' := fun t' ht' =>
          h t' ((hl.cons_cons t).subset ht')
        obtain ⟨found, hfound⟩ := engineFor_isOk hfree hready
        unfold findEngine
        rw [hgroup, hfound]
        cases found with
        | none => exact ih hrest
        | some g =>
            obtain ⟨-, -, -, -, -, hlive, -⟩ := engineFor_ok hfound
            obtain ⟨s₁, hs₁⟩ := dispatch_isOk (t :: l) hready hlive
            simp only [hs₁]
            exact ih fun t' ht' => (dispatch_frame hs₁).ready (hrest t' ht')

/-- A pass over tasks that are ready raises nothing. -/
lemma schedule_succeeds (h : ∀ t ∈ s.taskQueue, s.Ready t) : ∃ s', s.schedule = .ok s' := by
  obtain ⟨s₁, hs₁⟩ := scheduleLoop_isOk s.sortedQueue fun t ht =>
    h t (s.sortedQueue_perm.mem_iff.mp ht)
  unfold schedule
  rw [hs₁]
  exact ⟨_, rfl⟩

/-! ## What a step keeps -/

/-- Tokenizing a text has a result for every registered tokenizer. -/
lemma mem_keys_addTokenized {name : Text} {result : Dict Text (List (List ℕ))}
    {tokenized : Dict Text (List ℕ)} :
    name ∈ (CompletionTask.addTokenized result tokenized).keys ↔
      name ∈ result.keys ∨ name ∈ tokenized.keys := by
  unfold CompletionTask.addTokenized Dict.keys
  generalize tokenized.entries = l
  induction l generalizing result with
  | nil => simp
  | cons e l ih =>
      have hset : name ∈ (result.set e.1 ((result.get? e.1).getD [] ++ [e.2])).keys ↔
          name = e.1 ∨ name ∈ result.keys := Dict.mem_keys_set _
      unfold Dict.keys at hset
      rw [List.foldl_cons, ih, hset, List.map_cons, List.mem_cons]
      exact ⟨by rintro ((h | h) | h) <;> simp [h], by rintro (h | h | h) <;> simp [h]⟩

lemma mem_keys_foldl_addTokenized {w : TokenizersWrapper} {name : Text} (texts : List Text) :
    ∀ result : Dict Text (List (List ℕ)), (name ∈ result.keys ∨
        (texts ≠ [] ∧ name ∈ w.tokenizers.keys)) →
      name ∈ (texts.foldl
        (fun r text => CompletionTask.addTokenized r (w.tokenizeAll text)) result).keys := by
  induction texts with
  | nil =>
      rintro result (h | h)
      · exact h
      · exact absurd rfl h.1
  | cons text texts ih =>
      intro result h
      refine ih _ (.inl (mem_keys_addTokenized.mpr ?_))
      rcases h with h | h
      · exact .inl h
      · exact .inr (by simpa [TokenizersWrapper.tokenizeAll] using h.2)

/-- A new task has a result for every registered tokenizer. -/
lemma hasResult_newTask {w : TokenizersWrapper} {taskId : ℕ} {chain : TaskChain} {bound : ℕ}
    {name : Text} (hfill : chain.fillTexts ≠ []) (hname : name ∈ w.tokenizers.keys) :
    (newTask w taskId chain bound).hasResult name = true :=
  decide_eq_true (mem_keys_foldl_addTokenized _ _ (.inr ⟨hfill, hname⟩))

/-- Every queued task can be compared with the live engines. -/
def AllReady (s : GlobalScheduler) : Prop := ∀ t ∈ s.taskQueue, s.Ready t

/-- The model of a new engine is the one its configuration gets. -/
lemma registerEngine_values {m : EngineManager} (config : EngineConfig) (now : ℤ) {g : EngineRef}
    (hg : g ∈ (EngineManager.registerEngine fromPretrained m config now).2.engines.values) :
    g ∈ m.engines.values ∨ some ((EngineManager.registerEngine fromPretrained m config
      now).2.obj g).model = m.modelFor config := by
  unfold EngineManager.registerEngine EngineManager.modelFor at *
  cases hmodel : LanguageModel.fromEngineConfig config with
  | error e =>
      rw [hmodel] at hg
      exact .inl hg
  | ok model =>
      simp only [hmodel] at hg ⊢
      have hs := EngineManager.registerModel_same fromPretrained m model
      have hresult : ∀ model' m', EngineManager.registerModel fromPretrained m model =
          (.ok model', m') → model' = (m.models.get? model.modelName).getD model := by
        intro model' m' heq
        unfold EngineManager.registerModel at heq
        split at heq
        · rename_i registered hreg
          split at heq
          · cases heq
          · cases heq
            rw [hreg]
            rfl
        · rename_i hnone
          rw [hnone]
          dsimp only at heq
          split at heq
          · cases heq
            rfl
          · split at heq
            · cases heq
            · cases heq
              rfl
      rcases hreg : EngineManager.registerModel fromPretrained m model with ⟨_ | model', m₁⟩
      · rw [hreg] at hs hg
        rw [hs.engines] at hg
        exact .inl hg
      · rw [hreg] at hs
        have hmodel' := hresult model' m₁ hreg
        simp only [hreg] at hg ⊢
        rcases ha : m₁.engineIdPool.allocate with ⟨_ | engineId, pool⟩
        · simp only [ha] at hg
          exact .inl (hs.engines ▸ hg)
        · simp only [ha] at hg ⊢
          obtain ⟨x, hget⟩ := (m₁.engines.set engineId m₁.next).mem_values.mp hg
          rw [Dict.get?_set] at hget
          split at hget
          · cases hget
            refine .inr ?_
            rw [Function.update_self, hmodel']
          · exact .inl (hs.engines ▸ m₁.engines.mem_values.mpr ⟨x, hget⟩)

/-- An engine that is live after a call was live before, or registered in it. -/
lemma live_of_perform {m : EngineManager} (hi : m.Identified) (a : EngineManager.Action)
    {g : EngineRef}
    (hg : g ∈ (EngineManager.perform fromPretrained m a).2.getLiveEngines) :
    (g ∈ m.getLiveEngines ∧
      ((EngineManager.perform fromPretrained m a).2.obj g).model = (m.obj g).model) ∨
    ∃ config now, a = .registerEngine config now ∧
      some ((EngineManager.perform fromPretrained m a).2.obj g).model = m.modelFor config := by
  have hc := EngineManager.perform_continues fromPretrained m a
  have hi' := hi.perform fromPretrained a
  obtain ⟨hval, hrun⟩ := List.mem_filter.mp hg
  have hold : g ∈ m.engines.values → g ∈ m.getLiveEngines ∧
      ((EngineManager.perform fromPretrained m a).2.obj g).model = (m.obj g).model := by
    intro hmem
    obtain ⟨e, hget⟩ := m.engines.mem_values.mp hmem
    have hlt := hi.lt_next e g hget
    exact ⟨List.mem_filter.mpr ⟨hmem, hc.running g hlt hrun⟩, hc.model g hlt⟩
  have hsame : (EngineManager.perform fromPretrained m a).2.next = m.next →
      g ∈ m.engines.values := by
    intro hnext
    rcases hc.values g hval with hmem | hle
    · exact hmem
    · obtain ⟨e, hget⟩ := (EngineManager.perform fromPretrained m a).2.engines.mem_values.mp hval
      have hlt := hi'.lt_next e g hget
      rw [hnext] at hlt
      exact absurd hlt (Nat.not_lt.mpr hle)
  cases a with
  | registerEngine config now =>
      have hperform : (EngineManager.perform fromPretrained m (.registerEngine config now)).2 =
          (EngineManager.registerEngine fromPretrained m config now).2 := by
        simp only [EngineManager.perform]
        split <;> simp_all
      rw [hperform] at hval
      rcases registerEngine_values config now hval with hmem | hnew
      · exact .inl (hold hmem)
      · exact .inr ⟨config, now, rfl, by rw [hperform]; exact hnew⟩
  | engineHeartbeat engineId info now =>
      refine .inl (hold (hsame ?_))
      simp only [EngineManager.perform, EngineManager.engineHeartbeat]
      split <;> rfl
  | updateExpiredEngines now => exact .inl (hold (hsame (EngineManager.expireEngines_next now _ m)))
  | sweepNotRunningEngines => exact .inl (hold (hsame (EngineManager.sweepEngines_next _ m)))
  | raiseException engineId exception =>
      refine .inl (hold (hsame ?_))
      simp only [EngineManager.perform, EngineManager.raiseException]
      split <;> rfl

lemma AllReady.apply (h : AllReady s) (hi : TasksInv s) (hq : QueueInv s) {a : Action}
    (hg : s.TokenizedGuard a) (hok : GlobalScheduler.apply s fromPretrained a = .ok s') :
    AllReady s' := by
  cases a with
  | engineMgr a =>
      rw [callEngineMgr_ok hok]
      intro t ht
      refine ⟨(h t ht).1, fun g hlive htype => ?_⟩
      rcases live_of_perform hi.identified a hlive with ⟨hold, hmodel⟩ | ⟨config, now, rfl, hnew⟩
      · change ((EngineManager.perform fromPretrained s.engineMgr a).2.obj g).model.modelType = _
          at htype
        change (s.task t).hasResult
          ((EngineManager.perform fromPretrained s.engineMgr a).2.obj g).model.tokenizerName = true
        rw [hmodel] at htype ⊢
        exact (h t ht).2 g hold htype
      · exact hg _ hnew.symm htype t ht
  | cachePrefixes caches =>
      cases hok
      exact h
  | submitChain chain bound =>
      rcases submitChain_ok hok with rfl | ⟨taskId, pool, queue, -, hqueue, rfl⟩
      · exact h
      · intro t ht
        have hcases : t ∈ s.taskQueue ∨ t = s.nextTask := by
          rcases hqueue with rfl | rfl
          · exact .inl ht
          · rcases List.mem_append.mp ht with ht | ht
            · exact .inl ht
            · exact .inr (List.mem_singleton.mp ht)
        unfold Ready
        rcases hcases with hmem | rfl
        · dsimp only
          rw [Function.update_of_ne (hq.lt_next t hmem).ne]
          exact h t hmem
        · dsimp only
          rw [Function.update_self]
          exact ⟨hg.1, fun g hlive htype => hasResult_newTask hg.2.1 (hg.2.2 g hlive htype)⟩
  | joinGroup t group =>
      cases hok
      intro t' ht'
      have hready := h t' ht'
      unfold Ready CompletionTask.hasResult at hready ⊢
      dsimp only
      rw [Function.update_apply]
      split
      · rename_i heq
        subst heq
        exact hready
      · exact hready
  | schedule =>
      obtain ⟨s₁, hloop, rfl⟩ := schedule_ok hok
      intro t ht
      have hmem := s.sortedQueue_perm.mem_iff.mp (List.mem_of_mem_filter ht)
      exact (scheduleLoop_frame hloop).ready (h t hmem)
  | freeTask t =>
      obtain ⟨g, n, pool, -, -, -, rfl⟩ := freeTask_ok hok
      have hmodel : ∀ x, ((s.freed t g n pool).engine x).model = (s.engine x).model := by
        intro x
        rw [freed_engine]
        split
        · rename_i hxg
          rw [hxg]
        · rfl
      have hlive : (s.freed t g n pool).engineMgr.getLiveEngines = s.engineMgr.getLiveEngines := by
        unfold EngineManager.getLiveEngines
        refine List.filter_congr fun x _ => ?_
        change ((s.freed t g n pool).engine x).isRunning = (s.engine x).isRunning
        rw [freed_engine]
        split
        · rename_i hxg
          rw [hxg]
          rfl
        · rfl
      intro t' ht'
      refine ⟨(h t' ht').1, fun x hx htype => ?_⟩
      rw [hlive] at hx
      rw [hmodel] at htype ⊢
      exact (h t' ht').2 x hx htype

/-! ## Runs -/

/-- In every run that meets the condition, every queued task has a result for every live engine
with a tokenizer, and the next pass raises nothing. -/
theorem tokenized_results (fromPretrained : Text → Except PyError HFTokenizer)
    (config : GlobalSchedulerConfig) (timeout : ℤ) {s : GlobalScheduler}
    (hs : (system fromPretrained config timeout).ReachableUnder TokenizedGuard s) :
    Tokenized s ∧ ∃ s', s.schedule = .ok s' := by
  have hinv : (system fromPretrained config timeout).IsInvariantUnder TokenizedGuard
      fun s => (TasksInv s ∧ QueueInv s) ∧ AllReady s :=
    (tasks_invariant fromPretrained config timeout TokenizedGuard).and (fun s h0 => by
      cases h0
      exact fun t ht => absurd ht List.not_mem_nil) fun s a s' hi h hg hst =>
        h.apply hi.1 hi.2 hg hst.2
  have hready := (hinv.holds hs).2
  exact ⟨fun t ht => (hready t ht).2, schedule_succeeds hready⟩

/-- A request is submitted when an engine with the tokenizer `t` is there; the next engine comes
before it is scheduled. -/
def nextEngine (tokenizer : Text) : List Action :=
  [.engineMgr (.registerEngine { model := ['a'], tokenizer := ['t'] } 0),
    .submitChain (groupChain 0 []) 256,
    .engineMgr (.registerEngine { model := ['b'], tokenizer } 1)]

/-- An engine with a tokenizer that the task knows. -/
theorem tokenized_results_known :
    ∃ s : GlobalScheduler, s.taskQueue = [0] ∧ s.engineMgr.getLiveEngines = [0, 1] ∧
      Tokenized s ∧ ∃ s', s.schedule = .ok s' := by
  obtain ⟨s, hs, hq, hl⟩ := TransitionSystem.RunsTo.reachable
    (P := fun s : GlobalScheduler => s.taskQueue = [0] ∧ s.engineMgr.getLiveEngines = [0, 1])
    (nextEngine ['t'])
    (show (system EngineManager.charTokenizer {} 3).ReachableUnder TokenizedGuard _ from .init rfl)
    (by decide +kernel)
  exact ⟨s, hq, hl, tokenized_results EngineManager.charTokenizer {} 3 hs⟩

/-- An engine with a new tokenizer: the pass raises a `KeyError`. -/
theorem late_tokenizer :
    ∃ s, (system EngineManager.charTokenizer {} 3).Reachable s ∧ ¬ Tokenized s ∧
      ∃ e, s.schedule = .error e := by
  obtain ⟨s, hs, hP, he⟩ := TransitionSystem.RunsTo.reachable
    (P := fun s : GlobalScheduler => (0 ∈ s.taskQueue ∧ 1 ∈ s.engineMgr.getLiveEngines ∧
      (s.engine 1).model.modelType = .tokenId ∧
      (s.task 0).hasResult (s.engine 1).model.tokenizerName = false) ∧
      s.schedule.toOption.isNone = true)
    (nextEngine ['u'])
    (show (system EngineManager.charTokenizer {} 3).Reachable _ from .init rfl)
    (by decide +kernel)
  refine ⟨s, hs, fun h => ?_, ?_⟩
  · have := h 0 hP.1 1 hP.2.1 hP.2.2.1
    rw [hP.2.2.2] at this
    cases this
  · cases hsch : s.schedule with
    | error e => exact ⟨e, rfl⟩
    | ok s' => simp [hsch, Except.toOption] at he

end GlobalScheduler

end ParrotServe
