import ParrotServe.Model.EngineManager

/-!
# The core when engines fail

`ParrotServeCore` (`parrot/serve/core.py`) with the parts an engine failure goes through: the
registry of engines, the context manager that the registry calls when an engine comes or goes,
and the tasks between `schedule_to` and the end of their coroutine
(`GraphExecutor._execute_coroutine`).

A scheduled task and every `Context` keep the `ExecutionEngine` object, whose `http_address` the
requests go to, whereas the registry and the prefix caches are keyed by `engine_id`.  So an engine
that was swept is still addressed by those who have it, and whoever looks it up by its id finds
nothing, or an engine that registered later.  The contexts in the server of an engine are
therefore kept by `EngineRef`.  The server of an engine may be gone at any time, before or after
the engine expires and is swept; requests to it then end with an exception.

Between the end of `execute` and `free_task_contexts` there is no `await`: a task that fails
calls `raise_exception` and frees its contexts in one step.  An exception out of the coroutine of
a task or out of `serve_loop` ends the process; the requests of engines are answered with theirs,
and what they did before stays.
-/

namespace ParrotServe

/-- A `CompletionTask` between `schedule_to` and `set_task_contexts`. -/
structure ScheduledTask where
  engine : EngineRef
  chain : List ChainNode
  fuseFill : Bool
  deriving DecidableEq

/-- The registry, the contexts and the tasks of a `ParrotServeCore`. -/
structure ServeCore (α : Type) where
  engineMgr : EngineManager
  /-- `context.engine`. -/
  contextEngine : ContextRef → EngineRef
  /-- The contexts in the server of an engine. -/
  backend : EngineRef → EngineContexts α
  /-- The exception that a request to an engine ends with, when its server is gone. -/
  requestError : EngineRef → Option PyError
  /-- History, as in `ContextWorld`. -/
  orphaned : List ContextRef
  scheduled : List ScheduledTask
  task : TaskRef → BoundTask
  nextTask : TaskRef
  /-- The tasks whose contexts were set and not freed yet. -/
  bound : List TaskRef

/-- What can happen to the core. -/
inductive ServeCoreAction (α : Type)
  /-- An engine registers or sends a heartbeat, engines expire, or they are swept. -/
  | engine (a : EngineManager.Action)
  /-- The server of an engine is gone. -/
  | disconnect (g : EngineRef) (e : PyError)
  | schedule (task : ScheduledTask)
  | setTaskContexts (task : ScheduledTask)
  /-- A primitive for a context reaches its engine. -/
  | bindJobContext (r : ContextRef)
  /-- An engine executes a Fill. -/
  | fill (r : ContextRef) (payload : List α)
  /-- A primitive of the task for one of its contexts fails. -/
  | fail (t : TaskRef) (r : ContextRef) (e : PyError)
  /-- The task has executed its chain. -/
  | finish (t : TaskRef)
  | freeConstantPrefixContexts (v : VarId)

namespace ServeCoreAction

variable {α : Type}

/-- The action calls `raise_exception`, `set_task_contexts`, `free_task_contexts` or
`free_constant_prefix_contexts`. -/
def callsManagers : ServeCoreAction α → Bool
  | .setTaskContexts _ => true
  | .fail _ _ _ => true
  | .finish _ => true
  | .freeConstantPrefixContexts _ => true
  | _ => false

end ServeCoreAction

namespace ServeCore

variable {α : Type}

/-- No engine, no task. -/
def start (engineHeartbeatTimeout : ℤ) : ServeCore α where
  engineMgr := .start engineHeartbeatTimeout
  contextEngine _ := 0
  backend _ _ := none
  requestError _ := none
  orphaned := []
  scheduled := []
  task _ := { engine := 0, chain := [], fuseFill := false, contexts := [] }
  nextTask := 0
  bound := []

variable (s : ServeCore α)

/-- The context manager. -/
abbrev contextMgr : ServeCoreContextManager := s.engineMgr.contextMgr

/-! ## Freeing -/

/-- `_free_context` sends its request: the reference is the last one. -/
def isLastReference (r : ContextRef) : Bool :=
  (s.contextMgr.contextRefCounter (s.contextMgr.obj r).contextId).any fun n => decide (n ≤ 1)

/-- `_free_context`.  The request goes to the engine the context was created on. -/
def freeContext (r : ContextRef) : Except PyError (ServeCore α) :=
  let g := s.contextEngine r
  match (s.requestError g).filter fun _ => s.isLastReference r with
  | some e => .error (.internalError e)
  | none =>
      let world : ContextWorld α :=
        { mgr := s.contextMgr, backend := fun _ => s.backend g, orphaned := s.orphaned }
      match world.freeContext r with
      | .error e => .error e
      | .ok w => .ok { s with
          engineMgr := { s.engineMgr with contextMgr := w.mgr }
          backend := Function.update s.backend g (w.backend (s.contextMgr.obj r).engine)
          orphaned := w.orphaned }

/-- The loop of `free_task_contexts`, over the reversed contexts of the task. -/
def freeVisiting : List ContextRef → List ℕ → ServeCore α → Except PyError (ServeCore α)
  | [], _, s => .ok s
  | r :: rs, visitedContexts, s =>
      let contextId := (s.contextMgr.obj r).contextId
      if contextId ∈ visitedContexts then freeVisiting rs visitedContexts s
      else
        match s.freeContext r with
        | .error e => .error e
        | .ok s => freeVisiting rs (contextId :: visitedContexts) s

/-- `free_task_contexts`, at the end of the coroutine of the task. -/
def freeTaskContexts (t : TaskRef) : Except PyError (ServeCore α) :=
  match freeVisiting (s.task t).contexts.reverse [] s with
  | .error e => .error e
  | .ok s => .ok { s with bound := s.bound.erase t }

/-- The loop of `free_constant_prefix_contexts`. -/
def freeAll : List ContextRef → ServeCore α → Except PyError (ServeCore α)
  | [], s => .ok s
  | r :: rs, s =>
      match s.freeContext r with
      | .error e => .error e
      | .ok s => freeAll rs s

/-- `free_constant_prefix_contexts`. -/
def freeConstantPrefixContexts (v : VarId) : Except PyError (ServeCore α) :=
  match s.contextMgr.constantPrefixContexts.lookup v with
  | none => .error (.parrotAssert "Constant prefix variable should have contexts.")
  | some rs =>
      match freeAll rs s with
      | .error e => .error e
      | .ok s => .ok { s with engineMgr := { s.engineMgr with contextMgr := { s.contextMgr with
          constantPrefixContexts :=
            (s.contextMgr.constantPrefixContexts.filter fun entry => entry.1 ≠ v) } } }

/-! ## Tasks -/

/-- The engine of the contexts that a call of `set_task_contexts` creates: they are forked from
the last one that was cached, or start on the engine of the task. -/
def newContextEngine (task : ScheduledTask) (contexts : List ContextRef) : EngineRef :=
  match (contexts.filter fun r => decide (r < s.contextMgr.next)).getLast? with
  | some r => s.contextEngine r
  | none => task.engine

/-- `set_task_contexts`, for a task that was scheduled. -/
def setTaskContexts (task : ScheduledTask) : Except PyError (ServeCore α) :=
  let engineId := (s.engineMgr.obj task.engine).engineId
  match s.contextMgr.setTaskContexts engineId task.chain task.fuseFill with
  | .error e => .error e
  | .ok (contexts, contextMgr) => .ok { s with
      engineMgr := { s.engineMgr with contextMgr }
      contextEngine := fun r =>
        if r < s.contextMgr.next then s.contextEngine r else s.newContextEngine task contexts
      scheduled := s.scheduled.erase task
      task := Function.update s.task s.nextTask
        { engine := engineId, chain := task.chain, fuseFill := task.fuseFill, contexts }
      nextTask := s.nextTask + 1
      bound := s.nextTask :: s.bound }

/-- A primitive for a context reaches its engine. -/
def bindJobContext (r : ContextRef) : ServeCore α :=
  let g := s.contextEngine r
  match s.requestError g with
  | some _ => s
  | none =>
      match (s.backend g).bindJobContext (s.contextMgr.obj r).contextId
        (ContextSystem.parentContextId s.contextMgr r) with
      -- the engine answers with an error and keeps its contexts
      | .error _ => s
      | .ok engine => { s with backend := Function.update s.backend g engine }

/-- An engine executes a Fill. -/
def fill (r : ContextRef) (payload : List α) : ServeCore α :=
  let g := s.contextEngine r
  match s.requestError g with
  | some _ => s
  | none =>
      let engine := (s.backend g).fill (s.contextMgr.obj r).contextId payload
      { s with backend := Function.update s.backend g engine }

/-- The error path of `execute`, and the rest of the coroutine. -/
def fail (t : TaskRef) (r : ContextRef) (e : PyError) : Except PyError (ServeCore α) :=
  let engineId := (s.engineMgr.obj (s.contextEngine r)).engineId
  match s.engineMgr.raiseException engineId e with
  | (.error e, _) => .error e
  | (.ok (), engineMgr) => freeTaskContexts { s with engineMgr } t

/-! ## Engines -/

/-- The calls of `serve_loop`; the others are requests of engines. -/
def inServeLoop : EngineManager.Action → Bool
  | .updateExpiredEngines _ => true
  | .sweepNotRunningEngines => true
  | _ => false

/-- A call of the registry. -/
def engineCall (fromPretrained : Text → Except PyError HFTokenizer) (a : EngineManager.Action) :
    Except PyError (ServeCore α) :=
  match s.engineMgr.perform fromPretrained a with
  | (.error e, engineMgr) => if inServeLoop a then .error e else .ok { s with engineMgr }
  | (.ok (), engineMgr) => .ok { s with engineMgr }

/-! ## Runs -/

/-- Tasks are scheduled to running engines, and the server that disappears is one of an engine that
registered.  Exceptions of engines are raised by tasks. -/
def Enabled : ServeCoreAction α → Prop
  | .engine (.raiseException _ _) => False
  | .engine _ => True
  | .disconnect g _ => g < s.engineMgr.next
  | .schedule task => task.engine ∈ s.engineMgr.getLiveEngines ∧ ChainShape task.chain
  | .setTaskContexts task => task ∈ s.scheduled
  | .bindJobContext r => ∃ t ∈ s.bound, r ∈ (s.task t).contexts
  | .fill r _ => ∃ t ∈ s.bound, r ∈ (s.task t).contexts
  | .fail t r _ => t ∈ s.bound ∧ r ∈ (s.task t).contexts
  | .finish t => t ∈ s.bound
  | .freeConstantPrefixContexts _ => True

instance : ∀ a, Decidable (s.Enabled a)
  | .engine (.raiseException _ _) => inferInstanceAs (Decidable False)
  | .engine (.registerEngine _ _) | .engine (.engineHeartbeat _ _ _)
  | .engine (.updateExpiredEngines _) | .engine .sweepNotRunningEngines
  | .freeConstantPrefixContexts _ => inferInstanceAs (Decidable True)
  | .disconnect g _ => inferInstanceAs (Decidable (g < s.engineMgr.next))
  | .schedule task => inferInstanceAs
      (Decidable (task.engine ∈ s.engineMgr.getLiveEngines ∧ ChainShape task.chain))
  | .setTaskContexts task => inferInstanceAs (Decidable (task ∈ s.scheduled))
  | .bindJobContext r => inferInstanceAs (Decidable (∃ t ∈ s.bound, r ∈ (s.task t).contexts))
  | .fill r _ => inferInstanceAs (Decidable (∃ t ∈ s.bound, r ∈ (s.task t).contexts))
  | .fail t r _ => inferInstanceAs (Decidable (t ∈ s.bound ∧ r ∈ (s.task t).contexts))
  | .finish t => inferInstanceAs (Decidable (t ∈ s.bound))

/-- The effect of an action. -/
def apply (fromPretrained : Text → Except PyError HFTokenizer) :
    ServeCoreAction α → Except PyError (ServeCore α)
  | .engine a => s.engineCall fromPretrained a
  | .disconnect g e => .ok { s with requestError := Function.update s.requestError g (some e) }
  | .schedule task => .ok { s with scheduled := s.scheduled ++ [task] }
  | .setTaskContexts task => s.setTaskContexts task
  | .bindJobContext r => .ok (s.bindJobContext r)
  | .fill r payload => .ok (s.fill r payload)
  | .fail t r e => s.fail t r e
  | .finish t => s.freeTaskContexts t
  | .freeConstantPrefixContexts v => s.freeConstantPrefixContexts v

/-- Every order of these actions. -/
def system (fromPretrained : Text → Except PyError HFTokenizer) (engineHeartbeatTimeout : ℤ) :
    TransitionSystem (ServeCore α) (ServeCoreAction α) :=
  .ofExcept (start engineHeartbeatTimeout) Enabled fun s a => s.apply fromPretrained a

/-- The core has a reference to the context: its dictionary of contexts, a task that was not
freed, or a constant prefix. -/
def Referenced (r : ContextRef) : Prop :=
  s.contextMgr.contexts (s.contextMgr.obj r).contextId = some r ∨
    (∃ t ∈ s.bound, r ∈ (s.task t).contexts) ∨
    ∃ entry ∈ s.contextMgr.constantPrefixContexts, r ∈ entry.2

instance (r : ContextRef) : Decidable (s.Referenced r) := inferInstanceAs (Decidable (_ ∨ _ ∨ _))

end ServeCore

end ParrotServe
