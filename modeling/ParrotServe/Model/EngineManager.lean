import ParrotServe.Framework.Dict
import ParrotServe.Model.ContextManager
import Mathlib.Data.Rat.Defs

/-!
# The engine registry

`EngineManager` (`parrot/serve/engine_manager.py`) with what it is made of: the
`ExecutionEngine` and `LanguageModel` of `parrot/serve/backend_repr`, the `TokenizersWrapper` of
`parrot/serve/tokenizer_wrapper.py`, and the prefix caches of the context manager.

An `ExecutionEngine` is an object: tasks and contexts keep it after the registry has dropped it.
It is identified by an `EngineRef`, one for each registration and never reused, whereas the id
the registry is keyed by comes from a `RecyclePool`.

Engines register and send heartbeats over HTTP, where an exception is answered and what was done
before it stays.  Every operation that can raise half way therefore returns the manager next to
its result.  `AutoTokenizer.from_pretrained` is outside of the repository and is a parameter.
-/

namespace ParrotServe

/-! ## Models and tokenizers -/

/-- `ModelType`. -/
inductive ModelType
  | tokenId
  | text
  deriving DecidableEq, Repr

/-- `ENGINE_TYPE_BUILTIN`. -/
def engineTypeBuiltin : Text := ['b', 'u', 'i', 'l', 't', 'i', 'n']

/-- `ENGINE_TYPE_OPENAI`. -/
def engineTypeOpenai : Text := ['o', 'p', 'e', 'n', 'a', 'i']

/-- `MODEL_TYPE_MAP`. -/
def modelTypeMap (engineType : Text) : Option ModelType :=
  if engineType = engineTypeBuiltin then some .tokenId
  else if engineType = engineTypeOpenai then some .text
  else none

/-- What the serve layer reads of an `EngineConfig`. -/
structure EngineConfig where
  model : Text
  tokenizer : Text
  engineType : Text := engineTypeBuiltin
  tasksCapacity : ℕ := 256
  tokensCapacity : ℕ := 99999999999999999
  deriving DecidableEq

/-- `LanguageModel`. -/
structure LanguageModel where
  modelName : Text
  tokenizerName : Text
  modelType : ModelType
  deriving DecidableEq

/-- `LanguageModel.from_engine_config`. -/
def LanguageModel.fromEngineConfig (config : EngineConfig) : Except PyError LanguageModel :=
  match modelTypeMap config.engineType with
  | none => .error (.keyError (String.ofList config.engineType))
  | some modelType =>
      .ok { modelName := config.model, tokenizerName := config.tokenizer, modelType }

/-- A tokenizer object, by its `encode`. -/
abbrev HFTokenizer := Text → List ℕ

/-- `TokenizersWrapper`. -/
structure TokenizersWrapper where
  tokenizers : Dict Text HFTokenizer := .empty

namespace TokenizersWrapper

variable (w : TokenizersWrapper)

/-- The message of a tokenizer that is not registered. -/
def doesNotExist (tokenizerName : Text) : PyError :=
  .parrotAssert ("Tokenizer " ++ String.ofList tokenizerName ++ " does not exist.")

/-- `register_tokenizer`. -/
def registerTokenizer (fromPretrained : Text → Except PyError HFTokenizer)
    (tokenizerName : Text) : Except PyError TokenizersWrapper :=
  if tokenizerName ∈ w.tokenizers.keys then .ok w
  else
    match fromPretrained tokenizerName with
    | .error e => .error e
    | .ok tokenizer => .ok { tokenizers := w.tokenizers.set tokenizerName tokenizer }

/-- `remove_tokenizer`. -/
def removeTokenizer (tokenizerName : Text) : Except PyError TokenizersWrapper :=
  if tokenizerName ∈ w.tokenizers.keys then .ok { tokenizers := w.tokenizers.erase tokenizerName }
  else .error (doesNotExist tokenizerName)

end TokenizersWrapper

/-! ## Engines -/

/-- The identity of an `ExecutionEngine` object, i.e. of a registration. -/
abbrev EngineRef := ℕ

/-- `EngineStatus`. -/
inductive EngineStatus
  | running
  /-- The heartbeat is not received. -/
  | dead
  /-- An exception is raised from the engine. -/
  | bad
  deriving DecidableEq, Repr

/-- `EngineRuntimeInfo`. -/
structure EngineRuntimeInfo where
  numCachedTokens : ℤ := 0
  numMaxBlocks : ℤ := 0
  numRunningJobs : ℤ := 0
  numTotalJobs : ℤ := 0
  cacheMem : ℚ := 0
  modelMem : ℚ := 0
  profiledCpuMem : ℚ := 0
  profiledGpuTensorMem : ℚ := 0
  profiledGpuAllocateMem : ℚ := 0
  recentAverageLatency : ℚ := 0
  deriving DecidableEq

/-- `ServeLayerRuntimeInfo`. -/
structure ServeLayerRuntimeInfo where
  numTasks : ℤ := 0
  tokensNum : ℤ := 0
  /-- Task id to upperbound. -/
  tasksNumUpperbounds : Dict ℕ ℤ := .empty
  deriving DecidableEq

/-- `ExecutionEngine`. -/
structure ExecutionEngine where
  engineId : ℕ
  config : EngineConfig
  model : LanguageModel
  status : EngineStatus := .running
  badException : Option PyError := none
  realTimeRuntimeInfo : EngineRuntimeInfo := {}
  serveLayerRuntimeInfo : ServeLayerRuntimeInfo := {}
  deriving DecidableEq

namespace ExecutionEngine

variable (engine : ExecutionEngine)

/-- `mark_bad`. -/
def markBad (exception : PyError) : ExecutionEngine :=
  { engine with status := .bad, badException := some exception }

/-- `is_running`. -/
def isRunning : Bool := decide (engine.status = .running)

/-- `model_name`. -/
def modelName : Text := engine.model.modelName

/-- `update_realtime_runtime_info`. -/
def updateRealtimeRuntimeInfo (runtimeInfo : EngineRuntimeInfo) : ExecutionEngine :=
  { engine with realTimeRuntimeInfo := runtimeInfo }

end ExecutionEngine

/-! ## `EngineManager` -/

/-- `remove_engine_prefix_cache`. -/
def ServeCoreContextManager.removeEnginePrefixCache (m : ServeCoreContextManager)
    (engineId : ℕ) : Except PyError ServeCoreContextManager :=
  match m.prefixCaches engineId with
  | none => .error (.keyError (toString engineId))
  | some _ => .ok { m with prefixCaches := Function.update m.prefixCaches engineId none }

/-- The engine objects and the dictionaries of an `EngineManager`. -/
structure EngineManager where
  obj : EngineRef → ExecutionEngine
  next : EngineRef
  engines : Dict ℕ EngineRef
  /-- In nanoseconds. -/
  engineLastSeenTime : Dict ℕ ℤ
  models : Dict Text LanguageModel
  modelsRefCounter : Dict Text ℤ
  engineIdPool : RecyclePool
  contextMgr : ServeCoreContextManager
  tokenizersWrapper : TokenizersWrapper
  /-- In seconds. -/
  engineHeartbeatTimeout : ℤ

namespace EngineManager

/-- A new manager. -/
def start (engineHeartbeatTimeout : ℤ) : EngineManager where
  obj _ :=
    { engineId := 0
      config := { model := [], tokenizer := [] }
      model := { modelName := [], tokenizerName := [], modelType := .text } }
  next := 0
  engines := .empty
  engineLastSeenTime := .empty
  models := .empty
  modelsRefCounter := .empty
  engineIdPool := {}
  contextMgr := .empty
  tokenizersWrapper := {}
  engineHeartbeatTimeout := engineHeartbeatTimeout

variable (fromPretrained : Text → Except PyError HFTokenizer) (m : EngineManager)

/-- Change an engine object. -/
def setEngine (g : EngineRef) (engine : ExecutionEngine) : EngineManager :=
  { m with obj := Function.update m.obj g engine }

/-- `_register_model`. -/
def registerModel (model : LanguageModel) : Except PyError LanguageModel × EngineManager :=
  match m.models.get? model.modelName with
  | some registered =>
      match m.modelsRefCounter.get? model.modelName with
      | none => (.error (.keyError (String.ofList model.modelName)), m)
      | some n =>
          (.ok registered,
            { m with modelsRefCounter := m.modelsRefCounter.set model.modelName (n + 1) })
  | none =>
      let m := { m with
        models := m.models.set model.modelName model
        modelsRefCounter := m.modelsRefCounter.set model.modelName 1 }
      match model.modelType with
      | .text => (.ok model, m)
      | .tokenId =>
          match m.tokenizersWrapper.registerTokenizer fromPretrained model.tokenizerName with
          | .error e => (.error e, m)
          | .ok w => (.ok model, { m with tokenizersWrapper := w })

/-- `_remove_model`. -/
def removeModel (modelName : Text) : Except PyError Unit × EngineManager :=
  match m.modelsRefCounter.get? modelName with
  | none => (.error (.keyError (String.ofList modelName)), m)
  | some n =>
      let m := { m with modelsRefCounter := m.modelsRefCounter.set modelName (n - 1) }
      if n - 1 = 0 then
        match m.models.get? modelName with
        | none => (.error (.keyError (String.ofList modelName)), m)
        | some model =>
            let m := { m with models := m.models.erase modelName }
            match model.modelType with
            | .text => (.ok (), m)
            | .tokenId =>
                match m.tokenizersWrapper.removeTokenizer model.tokenizerName with
                | .error e => (.error e, m)
                | .ok w => (.ok (), { m with tokenizersWrapper := w })
      else (.ok (), m)

/-- `_remove_engine`. -/
def removeEngine (engineId : ℕ) : Except PyError Unit × EngineManager :=
  match m.engines.get? engineId with
  | none => (.error (.keyError (toString engineId)), m)
  | some g =>
      match removeModel { m with engines := m.engines.erase engineId } (m.obj g).modelName with
      | (.error e, m) => (.error e, m)
      | (.ok (), m) =>
          match m.engineLastSeenTime.get? engineId with
          | none => (.error (.keyError (toString engineId)), m)
          | some _ =>
              let m := { m with engineLastSeenTime := m.engineLastSeenTime.erase engineId }
              match m.engineIdPool.free engineId with
              | (.error e, pool) => (.error e, { m with engineIdPool := pool })
              | (.ok (), pool) =>
                  let m := { m with engineIdPool := pool }
                  match m.contextMgr.removeEnginePrefixCache engineId with
                  | .error e => (.error e, m)
                  | .ok contextMgr => (.ok (), { m with contextMgr })

/-- `raise_exception`. -/
def raiseException (engineId : ℕ) (exception : PyError) : Except PyError Unit × EngineManager :=
  match m.engines.get? engineId with
  | none => (.error (.keyError (toString engineId)), m)
  | some g => (.ok (), m.setEngine g ((m.obj g).markBad exception))

/-- `get_live_engines`. -/
def getLiveEngines : List EngineRef := m.engines.values.filter fun g => (m.obj g).isRunning

/-- `register_engine`, at the time `now`. -/
def registerEngine (config : EngineConfig) (now : ℤ) : Except PyError ℕ × EngineManager :=
  match LanguageModel.fromEngineConfig config with
  | .error e => (.error e, m)
  | .ok model =>
      match registerModel fromPretrained m model with
      | (.error e, m) => (.error e, m)
      | (.ok model, m) =>
          match m.engineIdPool.allocate with
          | (.error e, pool) => (.error e, { m with engineIdPool := pool })
          | (.ok engineId, pool) =>
              (.ok engineId,
                { m with
                  obj := Function.update m.obj m.next { engineId, config, model }
                  next := m.next + 1
                  engines := m.engines.set engineId m.next
                  engineLastSeenTime := m.engineLastSeenTime.set engineId now
                  engineIdPool := pool
                  contextMgr := m.contextMgr.registerEnginePrefixCache engineId })

/-- `engine_heartbeat`, at the time `now`. -/
def engineHeartbeat (engineId : ℕ) (engineRuntimeInfo : EngineRuntimeInfo) (now : ℤ) :
    Except PyError Unit × EngineManager :=
  match m.engines.get? engineId with
  | none => (.error (.userError ("Engine " ++ toString engineId ++ " not found.")), m)
  | some g =>
      let m := m.setEngine g ((m.obj g).updateRealtimeRuntimeInfo engineRuntimeInfo)
      (.ok (), { m with engineLastSeenTime := m.engineLastSeenTime.set engineId now })

/-- The loop of `update_expired_engines`, over the items of the last-seen times. -/
def expireEngines (currentTime : ℤ) : List (ℕ × ℤ) → EngineManager →
    Except PyError Unit × EngineManager
  | [], m => (.ok (), m)
  | (engineId, lastSeenTime) :: rest, m =>
      match m.engines.get? engineId with
      | none => (.error (.keyError (toString engineId)), m)
      | some g =>
          if currentTime - lastSeenTime > m.engineHeartbeatTimeout * 1000000000 then
            expireEngines currentTime rest (m.setEngine g { m.obj g with status := .dead })
          else expireEngines currentTime rest m

/-- `update_expired_engines`. -/
def updateExpiredEngines (currentTime : ℤ) : Except PyError Unit × EngineManager :=
  expireEngines currentTime m.engineLastSeenTime.entries m

/-- The loop of `sweep_not_running_engines`, over the items of the copied dictionary. -/
def sweepEngines : List (ℕ × EngineRef) → EngineManager → Except PyError Unit × EngineManager
  | [], m => (.ok (), m)
  | (engineId, g) :: rest, m =>
      if (m.obj g).isRunning then sweepEngines rest m
      else
        match m.removeEngine engineId with
        | (.error e, m) => (.error e, m)
        | (.ok (), m) => sweepEngines rest m

/-- `sweep_not_running_engines`. -/
def sweepNotRunningEngines : Except PyError Unit × EngineManager :=
  sweepEngines m.engines.entries m

/-! ## Runs of the registry -/

/-- A call of the manager.  `now` is what the clock reads during it. -/
inductive Action
  | registerEngine (config : EngineConfig) (now : ℤ)
  | engineHeartbeat (engineId : ℕ) (engineRuntimeInfo : EngineRuntimeInfo) (now : ℤ)
  | updateExpiredEngines (now : ℤ)
  | sweepNotRunningEngines
  | raiseException (engineId : ℕ) (exception : PyError)

/-- The effect of a call, and its exception. -/
def perform : Action → Except PyError Unit × EngineManager
  | .registerEngine config now =>
      match registerEngine fromPretrained m config now with
      | (.error e, m) => (.error e, m)
      | (.ok _, m) => (.ok (), m)
  | .engineHeartbeat engineId info now => m.engineHeartbeat engineId info now
  | .updateExpiredEngines now => m.updateExpiredEngines now
  | .sweepNotRunningEngines => m.sweepNotRunningEngines
  | .raiseException engineId exception => m.raiseException engineId exception

/-- Every order of these calls, each with whatever it did before it raised. -/
def system (engineHeartbeatTimeout : ℤ) : TransitionSystem EngineManager Action :=
  .ofFun (start engineHeartbeatTimeout) (fun _ _ => True) fun m a =>
    (perform fromPretrained m a).2

end EngineManager

end ParrotServe
