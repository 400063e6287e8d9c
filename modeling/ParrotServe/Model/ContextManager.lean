import ParrotServe.Framework.TransitionSystem
import ParrotServe.Model.RequestChain
import Mathlib.Data.List.Basic

/-!
# The context manager of the serve layer

`PrefixCache` and `ServeCoreContextManager` (`parrot/serve/context_manager.py`) with the
`Context` objects of `parrot/serve/backend_repr/context.py`, and the part of an engine that the
manager reaches over HTTP: its `EngineContextManager`, a tree of low-level contexts by id.

Contexts are objects identified by a `ContextRef` that is never reused; their ids are recycled.
What the manager reads of a node of a completion chain is a `ChainNode`.  A prefix hash is the
bracketed concatenation of variable ids, and variable ids (`str(uuid)`) contain no brackets.

The two events of a `Context` belong to the execution of tasks and are kept there.  An exception
out of any of these operations ends the process, so results are `Except PyError _` without a
state.
-/

namespace ParrotServe

/-- The identity of a `Context` object of the serve layer. -/
abbrev ContextRef := ℕ

/-- The id of a Semantic Variable. -/
abbrev VarId := { id : Text // '{' ∉ id ∧ '}' ∉ id }

instance : LawfulBEq VarId := inferInstance

/-- What the context manager and the executor read of a node of a chain. -/
structure ChainNode where
  varId : VarId
  isGen : Bool := false
  /-- `node.sv.is_constant_prefix`. -/
  isConstantPrefix : Bool := false
  deriving DecidableEq

/-- `Context`, without its events. -/
structure Context where
  contextId : ℕ
  /-- The id of the engine. -/
  engine : ℕ
  parentContext : Option ContextRef := none
  deriving DecidableEq, Repr

/-! ## `PrefixCache` -/

/-- A `PrefixCache`. -/
structure PrefixCache where
  prefixCtxMap : Text → Option ℕ
  prefixCtxMapReversed : ℕ → Option Text

namespace PrefixCache

/-- A new cache. -/
def empty : PrefixCache where
  prefixCtxMap _ := none
  prefixCtxMapReversed _ := none

variable (c : PrefixCache)

/-- `get_cached_prefix_context`; `none` is `NONE_CONTEXT_ID`. -/
def getCachedPrefixContext (prefixHash : Text) : Option ℕ := c.prefixCtxMap prefixHash

/-- `cache_prefix_context`. -/
def cachePrefixContext (prefixHash : Text) (contextId : ℕ) : Except PyError PrefixCache := do
  parrotAssert (c.prefixCtxMap prefixHash).isNone "Prefix should not be cached."
  return {
    prefixCtxMap := Function.update c.prefixCtxMap prefixHash (some contextId)
    prefixCtxMapReversed := Function.update c.prefixCtxMapReversed contextId (some prefixHash) }

/-- `remove_context_id`: only the hash that was cached last for the context is removed. -/
def removeContextId (contextId : ℕ) : Except PyError PrefixCache :=
  match c.prefixCtxMapReversed contextId with
  | none => .ok c
  | some prefixHash =>
      match c.prefixCtxMap prefixHash with
      | none => .error (.keyError (String.ofList prefixHash))
      | some _ => .ok {
          prefixCtxMap := Function.update c.prefixCtxMap prefixHash none
          prefixCtxMapReversed := Function.update c.prefixCtxMapReversed contextId none }

end PrefixCache

/-! ## The contexts of an engine -/

/-- A `LowLevelContext`, with the payloads that were filled into it.  The parent is found by its
id: it stays in the map of its engine as long as it has sub-contexts. -/
structure EngineContext (α : Type) where
  subContextIds : List ℕ := []
  parentContextId : Option ℕ
  filled : List (List α) := []
  deriving DecidableEq, Repr

/-- `EngineContextManager`: its map. -/
abbrev EngineContexts (α : Type) := ℕ → Option (EngineContext α)

namespace EngineContexts

variable {α : Type} (m : EngineContexts α)

/-- `bind_job_context`, for a primitive that addresses `contextId`. -/
def bindJobContext (contextId : ℕ) (parentContextId : Option ℕ) :
    Except PyError (EngineContexts α) :=
  match m contextId with
  | some _ => .ok m
  | none =>
      match parentContextId with
      | none => .ok (Function.update m contextId (some { parentContextId := none }))
      | some p =>
          match m p with
          | none => .error (.keyError (toString p))
          | some parent =>
              let m := Function.update m p
                (some { parent with subContextIds := parent.subContextIds ++ [contextId] })
              .ok (Function.update m contextId (some { parentContextId := some p }))

/-- A Fill that was executed. -/
def fill (contextId : ℕ) (payload : List α) : EngineContexts α :=
  match m contextId with
  | none => m
  | some c => Function.update m contextId (some { c with filled := c.filled ++ [payload] })

/-- The first half of `destruction`: leave the parent. -/
def leaveParent (contextId : ℕ) : Option ℕ → Except PyError (EngineContexts α)
  | none => .ok m
  | some p =>
      match m p with
      | none => .error .attributeError
      | some parent =>
          if contextId ∈ parent.subContextIds then
            .ok (Function.update m p
              (some { parent with subContextIds := parent.subContextIds.erase contextId }))
          else .error (.valueError "list.remove(x): x not in list")

/-- `free_context`, with the `destruction` of the context. -/
def freeContext (contextId : ℕ) : Except PyError (EngineContexts α) :=
  match m contextId with
  | none => .ok m
  | some c =>
      match leaveParent (Function.update m contextId none) contextId c.parentContextId with
      | .error e => .error e
      | .ok m =>
          match c.subContextIds with
          | [] => .ok m
          | sub :: _ => .error (.assertionError
              ("Sub-contexts " ++ toString sub ++ " should be deleted first."))

end EngineContexts

/-! ## `ServeCoreContextManager` -/

/-- The context objects and the dictionaries of a `ServeCoreContextManager`. -/
structure ServeCoreContextManager where
  obj : ContextRef → Context
  next : ContextRef
  contexts : ℕ → Option ContextRef
  /-- Variable id to contexts, in insertion order. -/
  constantPrefixContexts : List (VarId × List ContextRef)
  contextRefCounter : ℕ → Option ℤ
  contextIdPool : RecyclePool
  prefixCaches : ℕ → Option PrefixCache

/-- `_hash_var_id`. -/
def hashVarId (v : VarId) : Text := ['{', '{'] ++ v.val ++ ['}', '}']

namespace ServeCoreContextManager

/-- `ServeCoreContextManager()`. -/
def empty : ServeCoreContextManager where
  obj _ := { contextId := 0, engine := 0 }
  next := 0
  contexts _ := none
  constantPrefixContexts := []
  contextRefCounter _ := none
  contextIdPool := { poolName := "Context pool" }
  prefixCaches _ := none

variable (m : ServeCoreContextManager)

/-- `register_engine_prefix_cache`. -/
def registerEnginePrefixCache (engineId : ℕ) : ServeCoreContextManager :=
  { m with prefixCaches := Function.update m.prefixCaches engineId (some .empty) }

/-- `_add_ref_counter`. -/
def addRefCounter (r : ContextRef) : ServeCoreContextManager :=
  let id := (m.obj r).contextId
  { m with contextRefCounter :=
      Function.update m.contextRefCounter id (some ((m.contextRefCounter id).getD 0 + 1)) }

/-- What `_new_context` and `_fork_context` share: a new `Context` with one reference. -/
def createContext (engine : ℕ) (parentContext : Option ContextRef) :
    Except PyError (ContextRef × ServeCoreContextManager) :=
  match m.contextIdPool.allocate with
  | (.error e, _) => .error e
  | (.ok contextId, pool) =>
      let r := m.next
      .ok (r, addRefCounter { m with
        obj := Function.update m.obj r { contextId, engine, parentContext }
        next := r + 1
        contexts := Function.update m.contexts contextId (some r)
        contextIdPool := pool } r)

/-- `_new_context`. -/
def newContext (engine : ℕ) : Except PyError (ContextRef × ServeCoreContextManager) :=
  m.createContext engine none

/-- `_fork_context`. -/
def forkContext (parent : ContextRef) : Except PyError (ContextRef × ServeCoreContextManager) :=
  m.createContext (m.obj parent).engine (some parent)

/-- Record a context under a constant-prefix variable, with an extra reference. -/
def addConstantPrefix (v : VarId) (r : ContextRef) : Except PyError ServeCoreContextManager := do
  let dict := if (m.constantPrefixContexts.lookup v).isSome then m.constantPrefixContexts
    else m.constantPrefixContexts ++ [(v, [])]
  parrotAssert (decide (r ∉ (dict.lookup v).getD [])) "Context should not be in the ref map."
  let dict := dict.map fun entry => if entry.1 = v then (entry.1, entry.2 ++ [r]) else entry
  return addRefCounter { m with constantPrefixContexts := dict } r

/-- Cache the hash of a prefix in the cache of an engine. -/
def cachePrefix (engineId : ℕ) (prefixHash : Text) (contextId : ℕ) :
    Except PyError ServeCoreContextManager :=
  match m.prefixCaches engineId with
  | none => .error (.keyError (toString engineId))
  | some cache =>
      match cache.cachePrefixContext prefixHash contextId with
      | .error e => .error e
      | .ok cache =>
          .ok { m with prefixCaches := Function.update m.prefixCaches engineId (some cache) }

/-! ### `set_task_contexts` -/

/-- The local variables of `set_task_contexts`, and the manager. -/
structure BindState where
  mgr : ServeCoreContextManager
  contexts : List ContextRef := []
  prefixHash : Text := []
  prefixNoCacheFlag : Bool := false

/-- The context of a node whose prefix is not cached. -/
def contextForNode (engineId : ℕ) (fuseFill : Bool) (contexts : List ContextRef)
    (node : ChainNode) : Except PyError (ContextRef × ServeCoreContextManager) :=
  match contexts.getLast? with
  | none =>
      match m.newContext engineId with
      | .error e => .error e
      | .ok (r, m) =>
          if node.isConstantPrefix then
            match m.addConstantPrefix node.varId r with
            | .error e => .error e
            | .ok m => .ok (r, m)
          else .ok (r, m)
  | some last =>
      if fuseFill && !node.isGen then .ok (last, m)
      else m.forkContext last

/-- The second half of the loop body: the prefix is not cached. -/
def assignContext (engineId : ℕ) (fuseFill : Bool) (st : BindState) (prefixHash : Text)
    (node : ChainNode) : Except PyError BindState :=
  match st.mgr.contextForNode engineId fuseFill st.contexts node with
  | .error e => .error e
  | .ok (r, m) =>
      let st' := { mgr := m, contexts := st.contexts ++ [r], prefixHash, prefixNoCacheFlag := true }
      if node.isGen then .ok st'
      else
        match m.cachePrefix engineId prefixHash (m.obj r).contextId with
        | .error e => .error e
        | .ok m => .ok { st' with mgr := m }

/-- The loop body of `set_task_contexts`. -/
def bindNode (engineId : ℕ) (fuseFill : Bool) (st : BindState) (node : ChainNode) :
    Except PyError BindState :=
  let prefixHash := st.prefixHash ++ hashVarId node.varId
  if st.prefixNoCacheFlag then assignContext engineId fuseFill st prefixHash node
  else
    match st.mgr.prefixCaches engineId with
    | none => .error (.keyError (toString engineId))
    | some cache =>
        match cache.getCachedPrefixContext prefixHash with
        | none => assignContext engineId fuseFill st prefixHash node
        | some contextId =>
            match st.mgr.contexts contextId with
            | none => .error (.keyError (toString contextId))
            | some r => .ok { st with
                mgr := st.mgr.addRefCounter r
                contexts := st.contexts ++ [r]
                prefixHash }

/-- The loop of `set_task_contexts`. -/
def bindNodes (engineId : ℕ) (fuseFill : Bool) : List ChainNode → BindState →
    Except PyError BindState
  | [], st => .ok st
  | node :: nodes, st =>
      match bindNode engineId fuseFill st node with
      | .error e => .error e
      | .ok st => bindNodes engineId fuseFill nodes st

/-- `set_task_contexts`, for a scheduled task without contexts: the contexts of the task. -/
def setTaskContexts (engineId : ℕ) (chain : List ChainNode) (fuseFill : Bool) :
    Except PyError (List ContextRef × ServeCoreContextManager) :=
  match m.prefixCaches engineId with
  | none => .error (.keyError (toString engineId))
  | some _ =>
      match bindNodes engineId fuseFill chain { mgr := m } with
      | .error e => .error e
      | .ok st => .ok (st.contexts, st.mgr)

end ServeCoreContextManager

/-! ## Freeing -/

/-- The context manager and the engines behind it. -/
structure ContextWorld (α : Type) where
  mgr : ServeCoreContextManager
  backend : ℕ → EngineContexts α
  /-- History: contexts that were freed while a context of the manager had them as parent. -/
  orphaned : List ContextRef := []

namespace ContextWorld

variable {α : Type} (w : ContextWorld α)

/-- What was filled into a context, if its engine knows it. -/
def received (r : ContextRef) : Option (List (List α)) :=
  (w.backend (w.mgr.obj r).engine (w.mgr.obj r).contextId).map EngineContext.filled

/-- `contexts` holds a context whose parent is `r`. -/
def hasChild (m : ServeCoreContextManager) (r : ContextRef) : Bool :=
  (List.range m.next).any fun c =>
    decide (m.contexts (m.obj c).contextId = some c) && decide ((m.obj c).parentContext = some r)

/-- What `_free_context` does with the last reference. -/
def dropContext (r : ContextRef) : Except PyError (ContextWorld α) :=
  let m := w.mgr
  let contextId := (m.obj r).contextId
  let engineId := (m.obj r).engine
  match (w.backend engineId).freeContext contextId with
  | .error e => .error (.internalError e)
  | .ok engine =>
      match m.prefixCaches engineId with
      | none => .error (.keyError (toString engineId))
      | some cache =>
          match cache.removeContextId contextId with
          | .error e => .error e
          | .ok cache =>
              match m.contexts contextId with
              | none => .error (.keyError (toString contextId))
              | some _ =>
                  match m.contextIdPool.free contextId with
                  | (.error e, _) => .error e
                  | (.ok (), pool) => .ok {
                      mgr := { m with
                        prefixCaches := Function.update m.prefixCaches engineId (some cache)
                        contexts := Function.update m.contexts contextId none
                        contextIdPool := pool }
                      backend := Function.update w.backend engineId engine
                      orphaned := if hasChild m r then w.orphaned ++ [r] else w.orphaned }

/-- `_free_context`. -/
def freeContext (r : ContextRef) : Except PyError (ContextWorld α) :=
  let contextId := (w.mgr.obj r).contextId
  match w.mgr.contextRefCounter contextId with
  | none => .error (.parrotAssert "Context should have ref_counter.")
  | some n =>
      let w := { w with mgr := { w.mgr with
        contextRefCounter := Function.update w.mgr.contextRefCounter contextId (some (n - 1)) } }
      if 0 < n - 1 then .ok w else w.dropContext r

/-- The loop of `free_task_contexts`, over the reversed contexts of the task. -/
def freeVisiting : List ContextRef → List ℕ → ContextWorld α → Except PyError (ContextWorld α)
  | [], _, w => .ok w
  | r :: rs, visitedContexts, w =>
      let contextId := (w.mgr.obj r).contextId
      if contextId ∈ visitedContexts then freeVisiting rs visitedContexts w
      else
        match w.freeContext r with
        | .error e => .error e
        | .ok w => freeVisiting rs (contextId :: visitedContexts) w

/-- `free_task_contexts`. -/
def freeTaskContexts (contexts : List ContextRef) : Except PyError (ContextWorld α) :=
  freeVisiting contexts.reverse [] w

/-- The loop of `free_constant_prefix_contexts`. -/
def freeAll : List ContextRef → ContextWorld α → Except PyError (ContextWorld α)
  | [], w => .ok w
  | r :: rs, w =>
      match w.freeContext r with
      | .error e => .error e
      | .ok w => freeAll rs w

/-- `free_constant_prefix_contexts`. -/
def freeConstantPrefixContexts (v : VarId) : Except PyError (ContextWorld α) :=
  match w.mgr.constantPrefixContexts.lookup v with
  | none => .error (.parrotAssert "Constant prefix variable should have contexts.")
  | some rs =>
      match freeAll rs w with
      | .error e => .error e
      | .ok w => .ok { w with mgr := { w.mgr with
          constantPrefixContexts :=
            (w.mgr.constantPrefixContexts.filter fun entry => entry.1 ≠ v) } }

end ContextWorld

/-! ## Runs of the context manager -/

/-- The identity of a completion task. -/
abbrev TaskRef := ℕ

/-- A `CompletionTask` with its contexts. -/
structure BoundTask where
  engine : ℕ
  chain : List ChainNode
  fuseFill : Bool
  contexts : List ContextRef

/-- The variables of the Fill nodes of a chain. -/
def fillVars (chain : List ChainNode) : List VarId :=
  (chain.filter fun node => !node.isGen).map ChainNode.varId

/-- What the iterator of a completion chain yields: no node follows a Gen. -/
def ChainShape (chain : List ChainNode) : Prop := ∀ node ∈ chain.dropLast, node.isGen = false

instance (chain : List ChainNode) : Decidable (ChainShape chain) :=
  inferInstanceAs (Decidable (∀ node ∈ chain.dropLast, node.isGen = false))

/-- The manager and the tasks whose contexts were set. -/
structure ContextSystem (α : Type) where
  world : ContextWorld α
  task : TaskRef → BoundTask
  nextTask : TaskRef
  /-- The tasks whose contexts were set and not freed yet. -/
  bound : List TaskRef

/-- What can happen to the manager and its engines. -/
inductive ContextAction (α : Type)
  | registerEngine (engine : ℕ)
  | setTaskContexts (engine : ℕ) (chain : List ChainNode) (fuseFill : Bool)
  | freeTaskContexts (t : TaskRef)
  | freeConstantPrefixContexts (v : VarId)
  /-- A primitive for a context reaches its engine. -/
  | bindJobContext (r : ContextRef)
  /-- An engine executes a Fill. -/
  | fill (r : ContextRef) (payload : List α)

namespace ContextSystem

variable {α : Type}

/-- No engine, no task. -/
def start : ContextSystem α where
  world := { mgr := .empty, backend := fun _ _ => none }
  task _ := { engine := 0, chain := [], fuseFill := false, contexts := [] }
  nextTask := 0
  bound := []

variable (s : ContextSystem α)

/-- The id of the parent of a context. -/
def parentContextId (m : ServeCoreContextManager) (r : ContextRef) : Option ℕ :=
  (m.obj r).parentContext.map fun p => (m.obj p).contextId

/-- Engines get a new id, tasks are scheduled to registered engines and freed once, and
primitives address contexts of tasks. -/
def Enabled : ContextAction α → Prop
  | .registerEngine e => s.world.mgr.prefixCaches e = none
  | .setTaskContexts e chain _ => (s.world.mgr.prefixCaches e).isSome = true ∧ ChainShape chain
  | .freeTaskContexts t => t ∈ s.bound
  | .freeConstantPrefixContexts _ => True
  | .bindJobContext r => ∃ t ∈ s.bound, r ∈ (s.task t).contexts
  | .fill r _ => ∃ t ∈ s.bound, r ∈ (s.task t).contexts

instance : ∀ a, Decidable (s.Enabled a)
  | .registerEngine e => inferInstanceAs (Decidable (s.world.mgr.prefixCaches e = none))
  | .setTaskContexts e chain _ =>
      inferInstanceAs (Decidable ((s.world.mgr.prefixCaches e).isSome = true ∧ ChainShape chain))
  | .freeTaskContexts t => inferInstanceAs (Decidable (t ∈ s.bound))
  | .freeConstantPrefixContexts _ => inferInstanceAs (Decidable True)
  | .bindJobContext r => inferInstanceAs (Decidable (∃ t ∈ s.bound, r ∈ (s.task t).contexts))
  | .fill r _ => inferInstanceAs (Decidable (∃ t ∈ s.bound, r ∈ (s.task t).contexts))

/-- The contexts of a new task. -/
def bindTask (task : BoundTask) (m : ServeCoreContextManager) : ContextSystem α :=
  { world := { s.world with mgr := m }
    task := Function.update s.task s.nextTask task
    nextTask := s.nextTask + 1
    bound := s.nextTask :: s.bound }

/-- An engine executes a Fill. -/
def fill (r : ContextRef) (payload : List α) : ContextSystem α :=
  let c := s.world.mgr.obj r
  { s with world := { s.world with
    backend := Function.update s.world.backend c.engine
      ((s.world.backend c.engine).fill c.contextId payload) } }

/-- A primitive that addresses a context reaches its engine. -/
def bindJobContext (r : ContextRef) : Except PyError (ContextSystem α) :=
  let c := s.world.mgr.obj r
  match (s.world.backend c.engine).bindJobContext c.contextId (parentContextId s.world.mgr r) with
  | .error e => .error e
  | .ok engine => .ok { s with world := { s.world with
      backend := Function.update s.world.backend c.engine engine } }

/-- The effect of an action. -/
def apply : ContextAction α → Except PyError (ContextSystem α)
  | .registerEngine e =>
      .ok { s with world := { s.world with mgr := s.world.mgr.registerEnginePrefixCache e } }
  | .setTaskContexts engine chain fuseFill =>
      match s.world.mgr.setTaskContexts engine chain fuseFill with
      | .error e => .error e
      | .ok (contexts, m) => .ok (s.bindTask { engine, chain, fuseFill, contexts } m)
  | .freeTaskContexts t =>
      match s.world.freeTaskContexts (s.task t).contexts with
      | .error e => .error e
      | .ok world => .ok { s with world, bound := s.bound.erase t }
  | .freeConstantPrefixContexts v =>
      match s.world.freeConstantPrefixContexts v with
      | .error e => .error e
      | .ok world => .ok { s with world }
  | .bindJobContext r =>
      match s.bindJobContext r with
      -- the engine answers with an error and keeps its contexts
      | .error _ => .ok s
      | .ok s' => .ok s'
  | .fill r payload => .ok (s.fill r payload)

/-- Every order of these actions. -/
def system : TransitionSystem (ContextSystem α) (ContextAction α) :=
  .ofExcept start Enabled apply

end ContextSystem

end ParrotServe
