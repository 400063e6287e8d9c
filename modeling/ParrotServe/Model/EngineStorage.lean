import ParrotServe.Model.KvLayouts

/-!
# The engine with its KV cache

`forward` of the attention functions (`parrot/engine/builtin/attn_func.py`), as far as it moves keys
and values: the new ones are cached, then those of the contexts are fetched into the buffers of the
iteration.  The memory is that of the tensors of `ModelCacheStorage`, element by element, and the
threads of a kernel store in any order.

`EngineStorage` is the engine together with these tensors: an iteration runs the model layer by
layer, on keys and values that are inputs of the step, and a request touches no tensor.
-/

namespace ParrotServe

universe u

variable {α : Type u}

/-- A tensor of keys and one of values. -/
structure KvTensors (α : Type u) where
  k : ℕ → α
  v : ℕ → α

/-- `k` and `v` of `forward`: what a layer computes for the tokens of an iteration. -/
structure LayerTokens (α : Type u) where
  k : TokenTensor α
  v : TokenTensor α

namespace KvConfig

variable (c : KvConfig)

/-- The first part of `forward`: the new keys and values are cached. -/
def Caches (attnFunc : AttnFunc) (layer : ℕ) (tokens : LayerTokens α) (slotMapping : List ℕ)
    (cache cache' : KvTensors α) : Prop :=
  match attnFunc with
  | .xFormersWithBuffer =>
      ∃ ks vs, c.cacheNormal layer tokens.k slotMapping = .ok ks ∧
        c.cacheNormal layer tokens.v slotMapping = .ok vs ∧
        Launched ks cache.k cache'.k ∧ Launched vs cache.v cache'.v
  | .xFormersFillVllmPagedAttentionGenerate | .xFormersFillSharedPromptsGenerate =>
      Launched (c.reshapeKeys layer tokens.k fun i => slotMapping.getD i 0) cache.k cache'.k ∧
        Launched (c.reshapeValues layer tokens.v fun i => slotMapping.getD i 0) cache.v cache'.v

/-- The second part: the cached keys and values of slots are fetched into the buffers. -/
def Fetches (attnFunc : AttnFunc) (layer : ℕ) (cache : KvTensors α) (slots : List ℕ) (rows : ℕ)
    (buffer buffer' : KvTensors α) : Prop :=
  match attnFunc with
  | .xFormersWithBuffer =>
      ∃ ks vs, c.fetchNormal layer cache.k rows slots = .ok ks ∧
        c.fetchNormal layer cache.v rows slots = .ok vs ∧
        Launched ks buffer.k buffer'.k ∧ Launched vs buffer.v buffer'.v
  | .xFormersFillVllmPagedAttentionGenerate | .xFormersFillSharedPromptsGenerate =>
      ∃ ks vs, c.moveTokensFromBlockedKCache layer cache.k rows slots (List.range rows) = .ok ks ∧
        c.moveTokensFromBlockedVCache layer cache.v rows slots (List.range rows) = .ok vs ∧
        Launched ks buffer.k buffer'.k ∧ Launched vs buffer.v buffer'.v

/-- The layers cache one after the other; `cache layer` is what they find. -/
def CachesLayers (attnFunc : AttnFunc) (layers : ℕ → LayerTokens α) (slotMapping : List ℕ)
    (cache : ℕ → KvTensors α) : Prop :=
  ∀ layer < c.numLayers,
    c.Caches attnFunc layer (layers layer) slotMapping (cache layer) (cache (layer + 1))

end KvConfig

/-- A `BuiltinEngine` and its `Model_Cache`. -/
structure EngineStorage (α : Type u) where
  engine : BuiltinEngine
  modelCache : KvTensors α

namespace EngineStorage

variable (c : KvConfig) (x : EngineStorage α)

/-- A step: what the engine does, and what the layers compute if it runs the model. -/
structure Action (α : Type u) where
  action : BuiltinEngine.Action
  layers : ℕ → LayerTokens α

/-- The tensors before the first layer, and before each of the others. -/
def RunsLayers (o : ModelOutput) (layers : ℕ → LayerTokens α) (cache : ℕ → KvTensors α) : Prop :=
  cache 0 = x.modelCache ∧
    ∃ batch s jobs s', x.engine.scheduleBatch = .ok (batch, s) ∧
      s.runIterForward o batch = .ok (jobs, s') ∧
      c.CachesLayers x.engine.attnFunc layers (s'.initIterationState jobs).slotMapping cache

/-- The model is run, up to the point where it has stored its keys and values. -/
def runsModel (o : ModelOutput) : Bool :=
  !x.engine.scheduler.isEmpty &&
    match x.engine.scheduleBatch with
    | .error _ => false
    | .ok (batch, s) => (s.runIterForward o batch).isOk

/-- A step of the engine and its tensors. -/
def Step (x : EngineStorage α) (a : Action α) (x' : EngineStorage α) : Prop :=
  x.engine.crashed = false ∧ x'.engine = x.engine.apply a.action ∧
    match a.action with
    | .engineIter o =>
        if x.runsModel o then
          ∃ cache, x.RunsLayers c o a.layers cache ∧ x'.modelCache = cache c.numLayers
        else x'.modelCache = x.modelCache
    | _ => x'.modelCache = x.modelCache

/-- The runs of an engine, from whatever its tensors hold at the start. -/
def system (attnFunc : AttnFunc) (config : SchedulerConfig) :
    TransitionSystem (EngineStorage α) (Action α) where
  init x := x.engine = BuiltinEngine.start attnFunc c.blockSize c.numBlocks config
  step := Step c

end EngineStorage

end ParrotServe
