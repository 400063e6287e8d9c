import ParrotServe.Model.EngineManager

/-!
# The registry of engines stays consistent

`RegistryInv` says what the five maps of the registry mean: they have the same engines, the model
counters count them, and the tokenizers are those of the engines that need one.  `Registry` adds
what its proof needs: the ids come from the pool, every engine carries the model that is
registered under its name.

Every call keeps it, and raises nothing, as long as two branches are not taken.
`register_engine` compares models by name only, so a second configuration under a registered
model name gets the tokenizer and the type of the first.  `_remove_model` drops the tokenizer of
a model without a look at the other models that use it.  `RegistryGuard` is the condition that
neither happens, next to what a caller must bring: an engine type that is known, a tokenizer that
loads, the id of a registered engine.

`engine_registry` is the statement over runs; `tokenizer_dropped` is a run of ordinary calls that
takes the second branch.
-/

namespace ParrotServe

namespace EngineManager

/-- The number of registered engines with a model name. -/
def modelCount (m : EngineManager) (name : Text) : ℕ :=
  m.engines.values.countP fun g => decide ((m.obj g).modelName = name)

/-- What the maps of the registry say about the engines. -/
structure RegistryInv (m : EngineManager) : Prop where
  /-- Engines and last-seen times have the same keys. -/
  lastSeen : m.engineLastSeenTime.keys = m.engines.keys
  /-- There is a prefix cache for each engine. -/
  caches : ∀ e, (m.contextMgr.prefixCaches e).isSome = true ↔ e ∈ m.engines.keys
  /-- The live ids of the pool are those of the engines. -/
  liveIds : ∀ e, e ∈ m.engineIdPool.liveIds ↔ e ∈ m.engines.keys
  /-- The counter of a model is the number of its engines. -/
  refCounter : ∀ name, (m.modelsRefCounter.get? name).getD 0 = m.modelCount name
  /-- A model is registered when it has an engine. -/
  models : ∀ name, name ∈ m.models.keys ↔ 0 < m.modelCount name
  /-- The tokenizers are those of the `TOKEN_ID` engines. -/
  tokenizers : ∀ t, t ∈ m.tokenizersWrapper.tokenizers.keys ↔
    ∃ g ∈ m.engines.values,
      (m.obj g).model.modelType = .tokenId ∧ (m.obj g).model.tokenizerName = t
  /-- The model of an engine is the one of its own configuration. -/
  config : ∀ g ∈ m.engines.values,
    LanguageModel.fromEngineConfig (m.obj g).config = .ok (m.obj g).model

/-- `RegistryInv`, with the identity of the engines and of their models. -/
structure Registry (m : EngineManager) : Prop extends RegistryInv m where
  /-- The pool owns the keys. -/
  owns : m.engineIdPool.Owns {e | e ∈ m.engines.keys}
  /-- The pool has no size. -/
  unbounded : m.engineIdPool.poolSize = none
  /-- An engine is registered under its own id. -/
  engineId : ∀ e g, m.engines.get? e = some g → (m.obj g).engineId = e
  /-- Engines are older than the next one. -/
  lt_next : ∀ g ∈ m.engines.values, g < m.next
  /-- The model of an engine is the one registered under its name. -/
  registered : ∀ g ∈ m.engines.values,
    m.models.get? (m.obj g).modelName = some (m.obj g).model

/-! ## The condition -/

/-- A configuration whose model can be registered as the configuration says: its engine type is
known, the model registered under its name is the same one, a tokenizer it needs first loads. -/
def Registrable (fromPretrained : Text → Except PyError HFTokenizer) (m : EngineManager)
    (config : EngineConfig) : Prop :=
  match LanguageModel.fromEngineConfig config with
  | .error _ => False
  | .ok model =>
      match m.models.get? model.modelName with
      | some registered => registered = model
      | none => model.modelType = .tokenId →
          model.tokenizerName ∈ m.tokenizersWrapper.tokenizers.keys ∨
            (fromPretrained model.tokenizerName).isOk = true

/-- No tokenizer of a model that loses its last engine in a sweep is used by another model. -/
def TokenizersApart (m : EngineManager) : Prop :=
  ∀ g ∈ m.engines.values, ∀ g' ∈ m.engines.values,
    (∀ h ∈ m.engines.values, (m.obj h).modelName = (m.obj g).modelName →
      (m.obj h).isRunning = false) →
    (m.obj g).model.modelType = .tokenId → (m.obj g').model.modelType = .tokenId →
    (m.obj g).model.tokenizerName = (m.obj g').model.tokenizerName →
    (m.obj g).modelName = (m.obj g').modelName

/-- The calls that stay clear of the two branches. -/
def RegistryGuard (fromPretrained : Text → Except PyError HFTokenizer) (m : EngineManager) :
    Action → Prop
  | .registerEngine config _ => m.Registrable fromPretrained config
  | .engineHeartbeat engineId _ _ => engineId ∈ m.engines.keys
  | .updateExpiredEngines _ => True
  | .sweepNotRunningEngines => m.TokenizersApart
  | .raiseException engineId _ => engineId ∈ m.engines.keys

instance (fromPretrained : Text → Except PyError HFTokenizer) (m : EngineManager)
    (config : EngineConfig) : Decidable (m.Registrable fromPretrained config) := by
  unfold Registrable
  split
  · infer_instance
  · split <;> infer_instance

instance (m : EngineManager) : Decidable m.TokenizersApart := by
  unfold TokenizersApart
  infer_instance

instance (fromPretrained : Text → Except PyError HFTokenizer) (m : EngineManager) :
    ∀ a, Decidable (RegistryGuard fromPretrained m a)
  | .registerEngine config _ => inferInstanceAs (Decidable (m.Registrable fromPretrained config))
  | .engineHeartbeat engineId _ _ => inferInstanceAs (Decidable (engineId ∈ m.engines.keys))
  | .updateExpiredEngines _ => inferInstanceAs (Decidable True)
  | .sweepNotRunningEngines => inferInstanceAs (Decidable m.TokenizersApart)
  | .raiseException engineId _ => inferInstanceAs (Decidable (engineId ∈ m.engines.keys))

/-! ## Engine objects -/

/-- `engine'` is `engine` with another status or other runtime information. -/
def SameEngine (engine engine' : ExecutionEngine) : Prop :=
  engine'.engineId = engine.engineId ∧ engine'.config = engine.config ∧
    engine'.model = engine.model

variable {m : EngineManager}

lemma setEngine_obj (m : EngineManager) (g h : EngineRef) (engine : ExecutionEngine) :
    (m.setEngine g engine).obj h = if h = g then engine else m.obj h := by
  simp [setEngine, Function.update_apply]

lemma setEngine_same {g : EngineRef} {engine : ExecutionEngine} (hs : SameEngine (m.obj g) engine)
    (h : EngineRef) : SameEngine (m.obj h) ((m.setEngine g engine).obj h) := by
  rw [setEngine_obj]
  split
  · subst h
    exact hs
  · exact ⟨rfl, rfl, rfl⟩

/-- Statuses and runtime information are no part of the registry, nor is the time an engine was
seen. -/
lemma Registry.congr {obj : EngineRef → ExecutionEngine} {lastSeen : Dict ℕ ℤ}
    (h : Registry m) (hobj : ∀ g, SameEngine (m.obj g) (obj g))
    (hseen : lastSeen.keys = m.engines.keys) :
    Registry { m with obj, engineLastSeenTime := lastSeen } := by
  have hname : ∀ g, (obj g).modelName = (m.obj g).modelName := fun g => by
    unfold ExecutionEngine.modelName
    rw [(hobj g).2.2]
  have hcount : ∀ name, modelCount { m with obj, engineLastSeenTime := lastSeen } name =
      m.modelCount name := fun name => by
    simp only [modelCount, hname]
  exact {
    lastSeen := hseen
    caches := h.caches
    liveIds := h.liveIds
    refCounter := fun name => by rw [hcount]; exact h.refCounter name
    models := fun name => by rw [hcount]; exact h.models name
    tokenizers := fun t => by simpa only [(hobj _).2.2] using h.tokenizers t
    config := fun g hg => by
      dsimp only
      rw [(hobj g).2.1, (hobj g).2.2]
      exact h.config g hg
    owns := h.owns
    unbounded := h.unbounded
    engineId := fun e g hg => (hobj g).1.trans (h.engineId e g hg)
    lt_next := h.lt_next
    registered := fun g hg => by
      dsimp only
      rw [hname, (hobj g).2.2]
      exact h.registered g hg }

lemma Registry.setEngine (h : Registry m) {g : EngineRef} {engine : ExecutionEngine}
    (hs : SameEngine (m.obj g) engine) : Registry (m.setEngine g engine) :=
  h.congr (setEngine_same hs) h.lastSeen

/-! ## Registering -/

/-- A new registry is consistent. -/
lemma registry_start (timeout : ℤ) : Registry (start timeout) where
  lastSeen := rfl
  caches e := by simp [start, ServeCoreContextManager.empty]
  liveIds e := by simp [start, RecyclePool.mem_liveIds]
  refCounter name := by simp [start, modelCount]
  models name := by simp [start, modelCount]
  tokenizers t := by simp [start]
  config g hg := by simp [start] at hg
  owns := (RecyclePool.owns_empty _ _ _).mono fun e he => by simp [start] at he
  unbounded := rfl
  engineId e g hg := by simp [start] at hg
  lt_next g hg := by simp [start] at hg
  registered g hg := by simp [start] at hg

/-- The models, counters and tokenizers after a model got one more engine. -/
structure ModelAdded (m : EngineManager) (model : LanguageModel) (models : Dict Text LanguageModel)
    (counter : Dict Text ℤ) (w : TokenizersWrapper) : Prop where
  counter : ∀ name, (counter.get? name).getD 0 =
    (m.modelsRefCounter.get? name).getD 0 + if name = model.modelName then 1 else 0
  keys : ∀ name, name ∈ models.keys ↔ name = model.modelName ∨ name ∈ m.models.keys
  get_self : models.get? model.modelName = some model
  get_old : ∀ name model', m.models.get? name = some model' → models.get? name = some model'
  tokenizers : ∀ t, t ∈ w.tokenizers.keys ↔
    (model.modelType = .tokenId ∧ model.tokenizerName = t) ∨ t ∈ m.tokenizersWrapper.tokenizers.keys

variable {fromPretrained : Text → Except PyError HFTokenizer}

/-- The tokenizer of a registered `TOKEN_ID` model is there: the model has an engine. -/
lemma Registry.mem_tokenizers (h : Registry m) {name : Text} {model : LanguageModel}
    (hget : m.models.get? name = some model) (htype : model.modelType = .tokenId) :
    model.tokenizerName ∈ m.tokenizersWrapper.tokenizers.keys := by
  have hpos := (h.models name).mp (m.models.mem_keys_of_get? hget)
  obtain ⟨g, hg, hname⟩ := List.countP_pos_iff.mp hpos
  have hreg := h.registered g hg
  rw [of_decide_eq_true hname, hget, Option.some.injEq] at hreg
  exact (h.tokenizers _).mpr ⟨g, hg, hreg ▸ htype, by rw [← hreg]⟩

/-- `register_tokenizer` of a tokenizer that is there or loads. -/
lemma registerTokenizer_ok {w : TokenizersWrapper} {name : Text}
    (hload : name ∈ w.tokenizers.keys ∨ (fromPretrained name).isOk = true) :
    ∃ w', w.registerTokenizer fromPretrained name = .ok w' ∧
      ∀ t, t ∈ w'.tokenizers.keys ↔ name = t ∨ t ∈ w.tokenizers.keys := by
  unfold TokenizersWrapper.registerTokenizer
  split
  · rename_i hmem
    refine ⟨w, rfl, fun t => ⟨.inr, ?_⟩⟩
    rintro (rfl | ht)
    · exact hmem
    · exact ht
  · rename_i hmem
    cases hp : fromPretrained name with
    | error e => simp [hp, hmem, Except.isOk, Except.toBool] at hload
    | ok tokenizer =>
        refine ⟨_, rfl, fun t => ?_⟩
        rw [Dict.mem_keys_set, eq_comm]

/-- One more engine of a registered model, whose counter is positive. -/
lemma Registry.modelAdded_registered (h : Registry m) {model : LanguageModel} {n : ℤ}
    (hget : m.models.get? model.modelName = some model)
    (hn : m.modelsRefCounter.get? model.modelName = some n) :
    ModelAdded m model m.models (m.modelsRefCounter.set model.modelName (n + 1))
      m.tokenizersWrapper := by
  refine ⟨fun name => ?_, fun name => ?_, hget, fun _ _ hold => hold, fun t => ?_⟩
  · rw [Dict.get?_set]
    split
    · rename_i heq
      rw [heq, hn]
      simp
    · simp
  · constructor
    · exact .inr
    · rintro (rfl | hmem)
      · exact m.models.mem_keys_of_get? hget
      · exact hmem
  · constructor
    · exact .inr
    · rintro (⟨htype, rfl⟩ | hmem)
      · exact h.mem_tokenizers hget htype
      · exact hmem

/-- The first engine of a model, whose counter is missing or zero. -/
lemma Registry.modelAdded_new (h : Registry m) {model : LanguageModel} {w : TokenizersWrapper}
    (hget : m.models.get? model.modelName = none)
    (hw : ∀ t, t ∈ w.tokenizers.keys ↔
      (model.modelType = .tokenId ∧ model.tokenizerName = t) ∨
        t ∈ m.tokenizersWrapper.tokenizers.keys) :
    ModelAdded m model (m.models.set model.modelName model)
      (m.modelsRefCounter.set model.modelName 1) w := by
  have hnot : model.modelName ∉ m.models.keys := m.models.get?_eq_none.mp hget
  have hzero : (m.modelsRefCounter.get? model.modelName).getD 0 = 0 := by
    rw [h.refCounter]
    have := mt (h.models model.modelName).mpr hnot
    omega
  refine ⟨fun name => ?_, fun name => Dict.mem_keys_set _, Dict.get?_set_self _ _ _,
    fun name model' hsome => ?_, hw⟩
  · rw [Dict.get?_set]
    split
    · rename_i heq
      rw [heq, hzero]
      rfl
    · simp
  · rw [Dict.get?_set_ne _ _ fun heq => ?_]
    · exact hsome
    · rw [heq, hget] at hsome
      cases hsome

lemma Registry.registerModel (h : Registry m) {config : EngineConfig} {model : LanguageModel}
    (hmodel : LanguageModel.fromEngineConfig config = .ok model)
    (hg : m.Registrable fromPretrained config) :
    ∃ models modelsRefCounter tokenizersWrapper,
      registerModel fromPretrained m model =
        (.ok model, { m with models, modelsRefCounter, tokenizersWrapper }) ∧
      ModelAdded m model models modelsRefCounter tokenizersWrapper := by
  unfold Registrable at hg
  simp only [hmodel] at hg
  unfold EngineManager.registerModel
  cases hget : m.models.get? model.modelName with
  | some registered =>
      simp only [hget] at hg
      subst hg
      have hpos := (h.models registered.modelName).mp (m.models.mem_keys_of_get? hget)
      have hcount := h.refCounter registered.modelName
      cases hn : m.modelsRefCounter.get? registered.modelName with
      | none =>
          rw [hn] at hcount
          simp only [Option.getD_none] at hcount
          omega
      | some n => exact ⟨_, _, _, rfl, h.modelAdded_registered hget hn⟩
  | none =>
      simp only [hget] at hg
      cases htype : model.modelType with
      | text =>
          refine ⟨_, _, _, rfl, h.modelAdded_new hget fun t => ?_⟩
          simp [htype]
      | tokenId =>
          obtain ⟨w, hw, hwkeys⟩ := registerTokenizer_ok (hg htype)
          refine ⟨_, _, w, ?_, h.modelAdded_new hget fun t => ?_⟩
          · dsimp only
            rw [hw]
          · rw [hwkeys t]
            simp [htype]

/-- The engines after one more was registered. -/
lemma Registry.addEngine (h : Registry m) {config : EngineConfig} {model : LanguageModel}
    {models : Dict Text LanguageModel} {counter : Dict Text ℤ} {w : TokenizersWrapper}
    {engineId : ℕ} {pool : RecyclePool} (now : ℤ)
    (hmodel : LanguageModel.fromEngineConfig config = .ok model)
    (hadd : ModelAdded m model models counter w)
    (ha : m.engineIdPool.allocate = (.ok engineId, pool)) :
    Registry { m with
      obj := Function.update m.obj m.next { engineId, config, model }
      next := m.next + 1
      engines := m.engines.set engineId m.next
      engineLastSeenTime := m.engineLastSeenTime.set engineId now
      models
      modelsRefCounter := counter
      engineIdPool := pool
      contextMgr := m.contextMgr.registerEnginePrefixCache engineId
      tokenizersWrapper := w } := by
  obtain ⟨hnew, howns⟩ := h.owns.allocate_ok ha
  have hnew : engineId ∉ m.engines.keys := hnew
  have hvalues := m.engines.values_set_of_not_mem m.next hnew
  have hne : ∀ g ∈ m.engines.values, g ≠ m.next := fun g hg => (h.lt_next g hg).ne
  have hobj : ∀ g ∈ m.engines.values,
      Function.update m.obj m.next { engineId, config, model } g = m.obj g := fun g hg =>
    Function.update_of_ne (hne g hg) _ _
  have hcount : ∀ name,
      (m.engines.values ++ [m.next]).countP (fun g => decide
        ((Function.update m.obj m.next { engineId, config, model } g).modelName = name)) =
        m.modelCount name + if name = model.modelName then 1 else 0 := by
    intro name
    rw [List.countP_append, modelCount]
    congr 1
    · exact List.countP_congr fun g hg => by rw [hobj g hg]
    · simp [ExecutionEngine.modelName, eq_comm]
  refine {
    lastSeen := ?_, caches := fun e => ?_, liveIds := fun e => ?_, refCounter := fun name => ?_,
    models := fun name => ?_, tokenizers := fun t => ?_, config := fun g hg => ?_, owns := ?_,
    unbounded := ?_, engineId := fun e g hg => ?_, lt_next := fun g hg => ?_,
    registered := fun g hg => ?_ }
  · have hseen : engineId ∉ m.engineLastSeenTime.keys := h.lastSeen ▸ hnew
    dsimp only
    rw [Dict.keys_set_of_not_mem _ _ hseen, Dict.keys_set_of_not_mem _ _ hnew, h.lastSeen]
  · simp only [ServeCoreContextManager.registerEnginePrefixCache, Dict.mem_keys_set]
    rw [Function.update_apply]
    split
    · simp [*]
    · simp [*, h.caches e]
  · simp only [Dict.mem_keys_set]
    rw [h.owns.mem_liveIds_allocate ha, h.liveIds e]
  · simp only [modelCount, hvalues]
    rw [hcount, hadd.counter, h.refCounter]
    split <;> simp
  · simp only [modelCount, hvalues]
    rw [hcount, hadd.keys, h.models]
    split
    · simp [*]
    · simp [*]
  · simp only [hvalues, List.mem_append, List.mem_singleton]
    rw [hadd.tokenizers, h.tokenizers]
    constructor
    · rintro (⟨htype, hname⟩ | ⟨g, hg, htype, hname⟩)
      · exact ⟨m.next, .inr rfl, by simpa using htype, by simpa using hname⟩
      · exact ⟨g, .inl hg, by rw [hobj g hg]; exact ⟨htype, hname⟩⟩
    · rintro ⟨g, hg | rfl, htype, hname⟩
      · rw [hobj g hg] at htype hname
        exact .inr ⟨g, hg, htype, hname⟩
      · exact .inl ⟨by simpa using htype, by simpa using hname⟩
  · simp only [hvalues, List.mem_append, List.mem_singleton] at hg
    dsimp only
    rcases hg with hg | rfl
    · rw [hobj g hg]
      exact h.config g hg
    · rw [Function.update_self]
      exact hmodel
  · refine howns.mono fun e he => ?_
    simpa using he
  · dsimp only
    have hsize := m.engineIdPool.allocate_poolSize
    rw [ha] at hsize
    exact hsize.trans h.unbounded
  · rw [Dict.get?_set] at hg
    dsimp only
    split at hg
    · cases hg
      rw [Function.update_self]
      exact (‹e = engineId›).symm
    · rw [hobj g (m.engines.mem_values.mpr ⟨e, hg⟩)]
      exact h.engineId e g hg
  · simp only [hvalues, List.mem_append, List.mem_singleton] at hg
    dsimp only
    rcases hg with hg | rfl
    · exact Nat.lt_succ_of_lt (h.lt_next g hg)
    · exact Nat.lt_succ_self _
  · simp only [hvalues, List.mem_append, List.mem_singleton] at hg
    dsimp only
    rcases hg with hg | rfl
    · rw [hobj g hg]
      exact hadd.get_old _ _ (h.registered g hg)
    · rw [Function.update_self]
      exact hadd.get_self

lemma Registry.registerEngine (h : Registry m) {config : EngineConfig} (now : ℤ)
    (hg : m.Registrable fromPretrained config) :
    ∃ engineId m', registerEngine fromPretrained m config now = (.ok engineId, m') ∧
      Registry m' := by
  unfold EngineManager.registerEngine
  cases hmodel : LanguageModel.fromEngineConfig config with
  | error e => simp [Registrable, hmodel] at hg
  | ok model =>
      obtain ⟨models, counter, w, heq, hadd⟩ := h.registerModel hmodel hg
      obtain ⟨engineId, pool, ha⟩ := RecyclePool.allocate_unbounded h.unbounded
      simp only [heq, ha]
      exact ⟨_, _, rfl, h.addEngine now hmodel hadd ha⟩

/-! ## Removing -/

/-- The models, counters and tokenizers after a model lost an engine. -/
structure ModelRemoved (m : EngineManager) (model : LanguageModel)
    (models : Dict Text LanguageModel) (counter : Dict Text ℤ) (w : TokenizersWrapper) :
    Prop where
  counter : ∀ name, (counter.get? name).getD 0 =
    (m.modelsRefCounter.get? name).getD 0 - if name = model.modelName then 1 else 0
  keys : ∀ name, name ∈ models.keys ↔
    name ∈ m.models.keys ∧ ¬(name = model.modelName ∧ m.modelCount name = 1)
  get_old : ∀ name, name ∈ models.keys → models.get? name = m.models.get? name
  tokenizers : ∀ t, t ∈ w.tokenizers.keys ↔ t ∈ m.tokenizersWrapper.tokenizers.keys ∧
    ¬(m.modelCount model.modelName = 1 ∧ model.modelType = .tokenId ∧ model.tokenizerName = t)

/-- `_remove_model` of the model of an engine that just left the dictionary. -/
lemma Registry.removeModel (h : Registry m) {g : EngineRef} (hg : g ∈ m.engines.values)
    (engines : Dict ℕ EngineRef) :
    ∃ models modelsRefCounter tokenizersWrapper,
      EngineManager.removeModel { m with engines } (m.obj g).modelName =
        (.ok (), { m with engines, models, modelsRefCounter, tokenizersWrapper }) ∧
      ModelRemoved m (m.obj g).model models modelsRefCounter tokenizersWrapper := by
  have hreg := h.registered g hg
  have hpos : 0 < m.modelCount (m.obj g).modelName :=
    (h.models _).mp (m.models.mem_keys_of_get? hreg)
  have hcount := h.refCounter (m.obj g).modelName
  unfold EngineManager.removeModel
  unfold ExecutionEngine.modelName at *
  generalize (m.obj g).model = model at *
  cases hn : m.modelsRefCounter.get? model.modelName with
  | none =>
      rw [hn] at hcount
      simp only [Option.getD_none] at hcount
      omega
  | some n =>
      rw [hn] at hcount
      simp only [Option.getD_some] at hcount
      have hcounter : ∀ name,
          ((m.modelsRefCounter.set model.modelName (n - 1)).get? name).getD 0 =
            (m.modelsRefCounter.get? name).getD 0 - if name = model.modelName then 1 else 0 := by
        intro name
        rw [Dict.get?_set]
        split
        · rename_i heq
          rw [heq, hn]
          rfl
        · simp
      dsimp only
      split
      · -- the last engine of the model
        rename_i hone
        have hone : m.modelCount model.modelName = 1 := by omega
        simp only [hreg]
        have hkeys : ∀ name, name ∈ (m.models.erase model.modelName).keys ↔
            name ∈ m.models.keys ∧ ¬(name = model.modelName ∧ m.modelCount name = 1) := by
          intro name
          rw [Dict.mem_keys_erase]
          refine and_congr_right fun _ => not_congr ⟨?_, And.left⟩
          rintro rfl
          exact ⟨rfl, hone⟩
        have hold : ∀ name, name ∈ (m.models.erase model.modelName).keys →
            (m.models.erase model.modelName).get? name = m.models.get? name := fun name hmem =>
          Dict.get?_erase_ne _ (m.models.mem_keys_erase.mp hmem).2
        cases htype : model.modelType with
        | text =>
            simp only
            refine ⟨_, _, _, rfl, ⟨hcounter, hkeys, hold, fun t => ?_⟩⟩
            simp [htype]
        | tokenId =>
            have hmem := h.mem_tokenizers hreg htype
            simp only [TokenizersWrapper.removeTokenizer, hmem, if_true]
            refine ⟨_, _, _, rfl, ⟨hcounter, hkeys, hold, fun t => ?_⟩⟩
            rw [Dict.mem_keys_erase]
            simp [hone, htype, eq_comm]
      · rename_i hmore
        have hmore : m.modelCount model.modelName ≠ 1 := by omega
        refine ⟨_, _, _, rfl, ⟨hcounter, fun name => ?_, fun _ _ => rfl, fun t => ?_⟩⟩
        · refine (and_iff_left ?_).symm
          rintro ⟨rfl, hone⟩
          exact hmore hone
        · exact (and_iff_left fun hone => hmore hone.1).symm

/-- The engines of a model, with and without one engine. -/
lemma modelCount_erase {engineId : ℕ} {g : EngineRef} (hget : m.engines.get? engineId = some g)
    (name : Text) : m.modelCount name =
      (m.engines.erase engineId).values.countP (fun g' => decide ((m.obj g').modelName = name)) +
        if name = (m.obj g).modelName then 1 else 0 := by
  rw [modelCount, (m.engines.values_perm_erase hget).countP_eq, List.countP_cons]
  simp [eq_comm]

/-- The engine that leaves is the only one of its model, or the model stays. -/
lemma modelName_ne_of_one {engineId : ℕ} {g : EngineRef}
    (hget : m.engines.get? engineId = some g) (hone : m.modelCount (m.obj g).modelName = 1) :
    ∀ g' ∈ (m.engines.erase engineId).values, (m.obj g').modelName ≠ (m.obj g).modelName := by
  intro g' hg' heq
  rw [modelCount_erase hget, if_pos rfl] at hone
  have hpos : 0 < (m.engines.erase engineId).values.countP
      (fun g' => decide ((m.obj g').modelName = (m.obj g).modelName)) :=
    List.countP_pos_iff.mpr ⟨g', hg', decide_eq_true heq⟩
  omega

/-- Engines under one model name share the model. -/
lemma Registry.model_eq (h : Registry m) {g g' : EngineRef} (hg : g ∈ m.engines.values)
    (hg' : g' ∈ m.engines.values) (hname : (m.obj g').modelName = (m.obj g).modelName) :
    (m.obj g').model = (m.obj g).model := by
  have hreg := h.registered g' hg'
  rw [hname, h.registered g hg, Option.some.injEq] at hreg
  exact hreg.symm

/-- Another engine has the model of the one that leaves, unless it was the last. -/
lemma Registry.exists_sameModel (h : Registry m) {engineId : ℕ} {g : EngineRef}
    (hget : m.engines.get? engineId = some g) (hmore : m.modelCount (m.obj g).modelName ≠ 1) :
    ∃ g' ∈ (m.engines.erase engineId).values, (m.obj g').model = (m.obj g).model := by
  have hg : g ∈ m.engines.values := m.engines.mem_values.mpr ⟨_, hget⟩
  have hpos := (h.models _).mp (m.models.mem_keys_of_get? (h.registered g hg))
  have hrest := modelCount_erase hget (m.obj g).modelName
  rw [if_pos rfl] at hrest
  have hother : 0 < (m.engines.erase engineId).values.countP
      (fun g' => decide ((m.obj g').modelName = (m.obj g).modelName)) := by omega
  obtain ⟨g', hg', hsame⟩ := List.countP_pos_iff.mp hother
  refine ⟨g', hg', h.model_eq hg ?_ (of_decide_eq_true hsame)⟩
  exact (m.engines.values_perm_erase hget).mem_iff.mpr (List.mem_cons_of_mem _ hg')

/-- The engines after one was removed.  `happ` is where the branch of `_remove_model` matters: the
tokenizer of a model that goes away is used by no engine that stays. -/
lemma Registry.dropEngine (h : Registry m) {engineId : ℕ} {g : EngineRef}
    (hget : m.engines.get? engineId = some g) {models : Dict Text LanguageModel}
    {counter : Dict Text ℤ} {w : TokenizersWrapper}
    (hrem : ModelRemoved m (m.obj g).model models counter w)
    (happ : m.modelCount (m.obj g).modelName = 1 → (m.obj g).model.modelType = .tokenId →
      ∀ g' ∈ (m.engines.erase engineId).values, (m.obj g').model.modelType = .tokenId →
        (m.obj g').model.tokenizerName ≠ (m.obj g).model.tokenizerName) :
    Registry { m with
      engines := m.engines.erase engineId
      engineLastSeenTime := m.engineLastSeenTime.erase engineId
      models
      modelsRefCounter := counter
      engineIdPool := (m.engineIdPool.free engineId).2
      contextMgr := { m.contextMgr with
        prefixCaches := Function.update m.contextMgr.prefixCaches engineId none }
      tokenizersWrapper := w } := by
  have hkey : engineId ∈ m.engines.keys := m.engines.mem_keys_of_get? hget
  have hperm := m.engines.values_perm_erase hget
  have hsub : ∀ g' ∈ (m.engines.erase engineId).values, g' ∈ m.engines.values := fun g' hg' =>
    hperm.mem_iff.mpr (List.mem_cons_of_mem _ hg')
  have hcount := modelCount_erase hget
  refine {
    lastSeen := ?_, caches := fun e => ?_, liveIds := fun e => ?_, refCounter := fun name => ?_,
    models := fun name => ?_, tokenizers := fun t => ?_,
    config := fun g' hg' => h.config g' (hsub g' hg'), owns := ?_, unbounded := ?_,
    engineId := fun e g' hg' => ?_, lt_next := fun g' hg' => h.lt_next g' (hsub g' hg'),
    registered := fun g' hg' => ?_ }
  · dsimp only
    rw [Dict.keys_erase, Dict.keys_erase, h.lastSeen]
  · simp only [Dict.mem_keys_erase]
    rw [Function.update_apply]
    split
    · simp [*]
    · simp [*, h.caches e]
  · simp only [Dict.mem_keys_erase]
    rw [h.owns.mem_liveIds_free hkey, h.liveIds e]
  · dsimp only [modelCount]
    rw [hrem.counter, h.refCounter, hcount]
    unfold ExecutionEngine.modelName
    split <;> simp
  · dsimp only [modelCount]
    rw [hrem.keys, h.models, hcount]
    unfold ExecutionEngine.modelName
    split
    · rename_i heq
      simp only [heq, true_and]
      omega
    · simp [*]
  · dsimp only
    rw [hrem.tokenizers, h.tokenizers]
    constructor
    · rintro ⟨⟨g', hg', htype, hname⟩, hnot⟩
      rcases List.mem_cons.mp (hperm.mem_iff.mp hg') with rfl | hg'
      · -- another engine with the model has the tokenizer
        have hmore : m.modelCount (m.obj g').modelName ≠ 1 := fun hone =>
          hnot ⟨hone, htype, hname⟩
        obtain ⟨g'', hg'', hmodel⟩ := h.exists_sameModel hget hmore
        exact ⟨g'', hg'', by rw [hmodel]; exact ⟨htype, hname⟩⟩
      · exact ⟨g', hg', htype, hname⟩
    · rintro ⟨g', hg', htype, hname⟩
      refine ⟨⟨g', hsub g' hg', htype, hname⟩, ?_⟩
      rintro ⟨hone, htype', hname'⟩
      exact happ hone htype' g' hg' htype (hname.trans hname'.symm)
  · refine ((h.owns.free_ok hkey).2.2).mono fun e he => ?_
    simpa using he
  · dsimp only
    rw [RecyclePool.free_poolSize]
    exact h.unbounded
  · rw [Dict.get?_erase] at hg'
    split at hg'
    · cases hg'
    · exact h.engineId e g' hg'
  · dsimp only
    rw [hrem.get_old]
    · exact h.registered g' (hsub g' hg')
    · rw [hrem.keys]
      refine ⟨m.models.mem_keys_of_get? (h.registered g' (hsub g' hg')), ?_⟩
      rintro ⟨hname, hone⟩
      rw [hname] at hone
      exact modelName_ne_of_one hget hone g' hg' hname

lemma Registry.removeEngine (h : Registry m) {engineId : ℕ} {g : EngineRef}
    (hget : m.engines.get? engineId = some g) (hrun : (m.obj g).isRunning = false)
    (hap : m.TokenizersApart) :
    ∃ m', m.removeEngine engineId = (.ok (), m') ∧ Registry m' ∧ m'.obj = m.obj ∧
      m'.engines = m.engines.erase engineId := by
  have hg : g ∈ m.engines.values := m.engines.mem_values.mpr ⟨_, hget⟩
  have hkey : engineId ∈ m.engines.keys := m.engines.mem_keys_of_get? hget
  obtain ⟨models, counter, w, heq, hrem⟩ := h.removeModel hg (m.engines.erase engineId)
  obtain ⟨t, ht⟩ := m.engineLastSeenTime.mem_keys.mp (h.lastSeen ▸ hkey)
  obtain ⟨cache, hcache⟩ := Option.isSome_iff_exists.mp ((h.caches engineId).mpr hkey)
  have hfree : m.engineIdPool.free engineId = (.ok (), (m.engineIdPool.free engineId).2) :=
    Prod.ext (h.owns.free_ok hkey).1 rfl
  unfold EngineManager.removeEngine
  simp only [hget, heq, ht, ServeCoreContextManager.removeEnginePrefixCache, hcache]
  rw [hfree]
  refine ⟨_, rfl, h.dropEngine hget hrem fun hone htype g' hg' htype' htok => ?_, rfl, rfl⟩
  have hperm := m.engines.values_perm_erase hget
  have hne := modelName_ne_of_one hget hone
  refine hne g' hg' (hap g hg g' (hperm.mem_iff.mpr (List.mem_cons_of_mem _ hg'))
    (fun g'' hg'' hname => ?_) htype htype' htok.symm).symm
  rcases List.mem_cons.mp (hperm.mem_iff.mp hg'') with rfl | hg''
  · exact hrun
  · exact absurd hname (hne g'' hg'')

/-- Removing an engine that does not run leaves the other tokenizers apart. -/
lemma TokenizersApart.erase {m' : EngineManager} {engineId : ℕ} {g : EngineRef}
    (hap : m.TokenizersApart) (hget : m.engines.get? engineId = some g)
    (hrun : (m.obj g).isRunning = false) (hobj : m'.obj = m.obj)
    (hengines : m'.engines = m.engines.erase engineId) : m'.TokenizersApart := by
  have hperm := m.engines.values_perm_erase hget
  intro a ha b hb hlast
  rw [hengines] at ha hb
  rw [hobj] at hlast ⊢
  refine hap a (hperm.mem_iff.mpr (List.mem_cons_of_mem _ ha)) b
    (hperm.mem_iff.mpr (List.mem_cons_of_mem _ hb)) fun c hc hname => ?_
  rcases List.mem_cons.mp (hperm.mem_iff.mp hc) with rfl | hc
  · exact hrun
  · exact hlast c (hengines ▸ hc) hname

/-- The sweep removes engines as long as they are found. -/
lemma Registry.sweepEngines (l : List (ℕ × EngineRef)) : ∀ {m : EngineManager}, Registry m →
    m.TokenizersApart → (l.map Prod.fst).Nodup → (∀ e ∈ l, m.engines.get? e.1 = some e.2) →
    ∃ m', EngineManager.sweepEngines l m = (.ok (), m') ∧ Registry m' := by
  induction l with
  | nil => exact fun h _ _ _ => ⟨_, rfl, h⟩
  | cons e l ih =>
      intro m h hap hnodup hfound
      rw [List.map_cons, List.nodup_cons] at hnodup
      have hrest : ∀ x ∈ l, m.engines.get? x.1 = some x.2 := fun x hx =>
        hfound x (List.mem_cons_of_mem _ hx)
      have hget := hfound e List.mem_cons_self
      unfold EngineManager.sweepEngines
      split
      · exact ih h hap hnodup.2 hrest
      · rename_i hrun
        have hrun : (m.obj e.2).isRunning = false := by simpa using hrun
        obtain ⟨m', heq, h', hobj, hengines⟩ := h.removeEngine hget hrun hap
        rw [heq]
        refine ih h' (hap.erase hget hrun hobj hengines) hnodup.2 fun x hx => ?_
        rw [hengines, Dict.get?_erase_ne _ fun hxe => ?_]
        · exact hrest x hx
        · exact hnodup.1 (List.mem_map.mpr ⟨x, hx, hxe⟩)

/-! ## Runs -/

lemma Registry.expireEngines (now : ℤ) (l : List (ℕ × ℤ)) : ∀ {m : EngineManager}, Registry m →
    (∀ e ∈ l, e.1 ∈ m.engines.keys) →
    ∃ m', EngineManager.expireEngines now l m = (.ok (), m') ∧ Registry m' := by
  induction l with
  | nil => exact fun h _ => ⟨_, rfl, h⟩
  | cons e l ih =>
      intro m h hfound
      obtain ⟨g, hget⟩ := m.engines.mem_keys.mp (hfound e List.mem_cons_self)
      have hrest : ∀ x ∈ l, x.1 ∈ m.engines.keys := fun x hx =>
        hfound x (List.mem_cons_of_mem _ hx)
      unfold EngineManager.expireEngines
      simp only [hget]
      split
      · exact ih (h.setEngine ⟨rfl, rfl, rfl⟩) hrest
      · exact ih h hrest

/-- Every admitted call succeeds and keeps the registry consistent. -/
lemma Registry.perform (h : Registry m) {a : Action} (hg : RegistryGuard fromPretrained m a) :
    ∃ m', EngineManager.perform fromPretrained m a = (.ok (), m') ∧ Registry m' := by
  cases a with
  | registerEngine config now =>
      obtain ⟨engineId, m', heq, h'⟩ := h.registerEngine now hg
      exact ⟨m', by simp only [EngineManager.perform, heq], h'⟩
  | engineHeartbeat engineId info now =>
      obtain ⟨g, hget⟩ := m.engines.mem_keys.mp hg
      simp only [EngineManager.perform, engineHeartbeat, hget]
      refine ⟨_, rfl, h.congr (setEngine_same ⟨rfl, rfl, rfl⟩) ?_⟩
      exact (Dict.keys_set_of_mem _ _ (h.lastSeen ▸ hg)).trans h.lastSeen
  | updateExpiredEngines now =>
      refine h.expireEngines now _ fun e he => ?_
      rw [← h.lastSeen]
      exact List.mem_map_of_mem he
  | sweepNotRunningEngines =>
      refine h.sweepEngines _ hg m.engines.nodup fun e he => ?_
      exact m.engines.mem_entries.mp he
  | raiseException engineId exception =>
      obtain ⟨g, hget⟩ := m.engines.mem_keys.mp hg
      simp only [EngineManager.perform, raiseException, hget]
      exact ⟨_, rfl, h.setEngine ⟨rfl, rfl, rfl⟩⟩

lemma registry_invariant (timeout : ℤ) :
    (system fromPretrained timeout).IsInvariantUnder (RegistryGuard fromPretrained) Registry where
  init s hs := by
    cases hs
    exact registry_start timeout
  step s a s' h hg hst := by
    obtain ⟨m', heq, h'⟩ := h.perform hg
    obtain ⟨-, rfl⟩ := hst
    change Registry (EngineManager.perform fromPretrained s a).2
    rw [heq]
    exact h'

/-- In every run that stays clear of the two branches the registry is consistent, and the next
call that does raises nothing. -/
theorem engine_registry (fromPretrained : Text → Except PyError HFTokenizer) (timeout : ℤ)
    {m : EngineManager}
    (hm : (system fromPretrained timeout).ReachableUnder (RegistryGuard fromPretrained) m) :
    RegistryInv m ∧ ∀ a, RegistryGuard fromPretrained m a →
      (perform fromPretrained m a).1 = .ok () := by
  have h := (registry_invariant timeout).holds hm
  refine ⟨h.toRegistryInv, fun a hg => ?_⟩
  obtain ⟨m', heq, -⟩ := h.perform hg
  rw [heq]

/-! ## Two models with one tokenizer -/

/-- A character tokenizer, whatever the name. -/
def charTokenizer : Text → Except PyError HFTokenizer := fun _ => .ok fun text =>
  text.map Char.toNat

/-- Two models register, the second with a given tokenizer, and the first engine misses its
heartbeats. -/
def twoModels (tokenizer : Text) : List Action :=
  [.registerEngine { model := ['a'], tokenizer := ['t'] } 0,
    .registerEngine { model := ['b'], tokenizer } 5000000000,
    .engineHeartbeat 1 {} 5500000000,
    .updateExpiredEngines 6000000000, .sweepNotRunningEngines]

/-- Two tokenizers: the condition is met. -/
theorem engine_registry_two :
    RegistryInv ((twoModels ['u']).foldl (fun m a => (perform charTokenizer m a).2) (start 3)) :=
  (engine_registry charTokenizer 3 (.foldl _ (.init rfl) (by decide +kernel))).1

/-- One tokenizer: the sweep drops it although the engine that stays uses it. -/
theorem tokenizer_dropped :
    ∃ m, (system charTokenizer 3).Reachable m ∧ ¬ RegistryInv m := by
  refine ⟨_, .foldl (twoModels ['t']) (.init rfl) (by decide +kernel), fun h => ?_⟩
  exact mt (h.tokenizers ['t']).mpr (by decide +kernel) (by decide +kernel)

end EngineManager

end ParrotServe
