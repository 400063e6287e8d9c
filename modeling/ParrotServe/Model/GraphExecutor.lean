import ParrotServe.Model.ContextManager

/-!
# The graph executor

`GraphExecutor.execute` (`parrot/serve/session/graph_executor.py`), one coroutine for each task,
with what happens before and after it in `_execute_coroutine`.  A task visits the nodes of its
chain in order.  A node whose context is ready is skipped; one whose context was started is waited
for; otherwise the task sets the start event and sends a Fill or Generate, and goes on when it is
answered.

Between two `await`s a coroutine is not interrupted.  Here every node is a step of its own, so a
run of this system has at least the interleavings of the event loop.  A primitive is followed on
its way: posted, bound by the engine to its context, executed, answered; it may fail at any point.
Setting the text of a variable that has one is an assertion error inside the `try` of `execute`,
and ends the task like a failed primitive: `raise_exception` marks the engine as bad.

The contents of the variables are the parameters of the system: for each engine the text of a
variable, or its token ids, and for the variable of a Gen node what the engine generates in this
run.
-/

namespace ParrotServe

/-- How the engines see the contents of the variables. -/
structure Payloads (α : Type) where
  /-- `engine.model_type == ModelType.TOKEN_ID`. -/
  tokenId : ℕ → Bool
  /-- The text of a variable, or its token ids under the tokenizer of the engine. -/
  content : ℕ → VarId → List α

/-- How far a primitive is. -/
inductive Stage
  | posted
  | bound
  | executed
  deriving DecidableEq, Repr

/-- Where a task is in `execute`. -/
inductive Phase
  /-- In front of a node. -/
  | running (i : ℕ)
  /-- `await context.ready_event.wait()`. -/
  | waiting (i : ℕ)
  /-- `await primitive.apost(engine.http_address)`. -/
  | sent (i : ℕ) (stage : Stage)
  /-- Behind the loop. -/
  | ended
  deriving DecidableEq, Repr

/-- The tasks of all sessions, with the events of the contexts and variables. -/
structure ExecutorState (α : Type) where
  sys : ContextSystem α
  /-- `context.start_event`. -/
  startEvent : ContextRef → Bool
  /-- `context.ready_event`. -/
  readyEvent : ContextRef → Bool
  /-- `sv.is_ready()`. -/
  svReady : VarId → Bool
  /-- `raise_exception` marked the engine as bad. -/
  engineBad : ℕ → Bool
  phase : TaskRef → Phase

/-- What can happen to the executors. -/
inductive ExecutorAction
  | registerEngine (engine : ℕ)
  /-- Somebody else sets a variable. -/
  | setSv (v : VarId)
  /-- A task was scheduled; `set_task_contexts`, and `execute` begins. -/
  | setTaskContexts (engine : ℕ) (chain : List ChainNode) (fuseFill : Bool)
  | step (t : TaskRef)
  /-- The ready event a task waits for is set. -/
  | resume (t : TaskRef)
  /-- The primitive reaches the engine. -/
  | arrive (t : TaskRef)
  | execute (t : TaskRef)
  | answer (t : TaskRef)
  | fail (t : TaskRef)
  | freeTaskContexts (t : TaskRef)
  | freeConstantPrefixContexts (v : VarId)

/-- `Fill* Gen`, the shape of a completion chain. -/
def FillsThenGen (chain : List ChainNode) : Prop :=
  ChainShape chain ∧ chain.getLast?.any ChainNode.isGen = true

instance (chain : List ChainNode) : Decidable (FillsThenGen chain) :=
  inferInstanceAs (Decidable (_ ∧ _))

/-- The payload of a Fill.  With token ids, those of the next nodes with the same context are
added, except for the last node of the chain. -/
def fillPayload {α : Type} (p : Payloads α) (m : ServeCoreContextManager) (task : BoundTask)
    (i : ℕ) : List α :=
  match task.contexts[i]?, task.chain[i]? with
  | some r, some node =>
      if p.tokenId task.engine then
        p.content task.engine node.varId ++
          (((task.contexts.zip task.chain).dropLast.drop (i + 1)).takeWhile fun x =>
            decide ((m.obj x.1).contextId = (m.obj r).contextId)).flatMap fun x =>
              p.content task.engine x.2.varId
      else p.content task.engine node.varId
  | _, _ => []

namespace ExecutorState

variable {α : Type} (x : ExecutorState α)

/-- Nothing is there yet. -/
def start : ExecutorState α where
  sys := .start
  startEvent _ := false
  readyEvent _ := false
  svReady _ := false
  engineBad _ := false
  phase _ := .ended

/-- The task is in front of a node, or behind the last one. -/
def isRunning (t : TaskRef) : Bool :=
  match x.phase t with
  | .running _ => true
  | _ => false

/-- The task waits for a context that is ready. -/
def canResume (t : TaskRef) : Bool :=
  match x.phase t with
  | .waiting i => ((x.sys.task t).contexts[i]?).any x.readyEvent
  | _ => false

/-- The primitive of the task is at this stage. -/
def isSent (t : TaskRef) (stage : Stage) : Bool :=
  match x.phase t with
  | .sent _ stage' => decide (stage' = stage)
  | _ => false

/-- No task is between its loop and `free_task_contexts`; there is no `await` there. -/
def settled : Bool := x.sys.bound.all fun t => decide (x.phase t ≠ .ended)

/-- A task is bound when all inputs are ready, and freed behind its loop, before anything else
happens in the serve layer. -/
def Enabled : ExecutorAction → Prop
  | .registerEngine e => x.settled = true ∧ x.sys.world.mgr.prefixCaches e = none
  | .setSv v => x.settled = true ∧ x.svReady v = false
  | .setTaskContexts e chain _ =>
      x.settled = true ∧ (x.sys.world.mgr.prefixCaches e).isSome = true ∧ ChainShape chain ∧
        ∀ v ∈ fillVars chain, x.svReady v = true
  | .step t => x.settled = true ∧ t ∈ x.sys.bound ∧ x.isRunning t = true
  | .resume t => x.settled = true ∧ t ∈ x.sys.bound ∧ x.canResume t = true
  | .arrive t => t ∈ x.sys.bound ∧ x.isSent t .posted = true
  | .execute t => t ∈ x.sys.bound ∧ x.isSent t .bound = true
  | .answer t => x.settled = true ∧ t ∈ x.sys.bound ∧ x.isSent t .executed = true
  | .fail t => x.settled = true ∧ t ∈ x.sys.bound ∧
      (x.isSent t .posted || x.isSent t .bound || x.isSent t .executed) = true
  | .freeTaskContexts t => t ∈ x.sys.bound ∧ x.phase t = .ended
  | .freeConstantPrefixContexts _ => x.settled = true

instance : ∀ a, Decidable (x.Enabled a)
  | .registerEngine e => inferInstanceAs (Decidable (_ ∧ x.sys.world.mgr.prefixCaches e = none))
  | .setSv v => inferInstanceAs (Decidable (_ ∧ x.svReady v = false))
  | .setTaskContexts e chain _ =>
      inferInstanceAs (Decidable (_ ∧ (x.sys.world.mgr.prefixCaches e).isSome = true ∧
        ChainShape chain ∧ ∀ v ∈ fillVars chain, x.svReady v = true))
  | .step t => inferInstanceAs (Decidable (_ ∧ t ∈ x.sys.bound ∧ _ = true))
  | .resume t => inferInstanceAs (Decidable (_ ∧ t ∈ x.sys.bound ∧ _ = true))
  | .arrive t => inferInstanceAs (Decidable (t ∈ x.sys.bound ∧ _ = true))
  | .execute t => inferInstanceAs (Decidable (t ∈ x.sys.bound ∧ _ = true))
  | .answer t => inferInstanceAs (Decidable (_ ∧ t ∈ x.sys.bound ∧ _ = true))
  | .fail t => inferInstanceAs (Decidable (_ ∧ t ∈ x.sys.bound ∧ _ = true))
  | .freeTaskContexts t => inferInstanceAs (Decidable (t ∈ x.sys.bound ∧ x.phase t = .ended))
  | .freeConstantPrefixContexts _ => inferInstanceAs (Decidable (x.settled = true))

/-- The task goes to another place. -/
def goto (t : TaskRef) (phase : Phase) : ExecutorState α :=
  { x with phase := Function.update x.phase t phase }

/-- The error path of `execute`: the engine of the context gets the exception, and the task ends. -/
def interrupt (t : TaskRef) (r : ContextRef) : ExecutorState α :=
  { x.goto t .ended with
    engineBad := Function.update x.engineBad (x.sys.world.mgr.obj r).engine true }

/-- The node, and the context, of the primitive a task waits for. -/
def current (t : TaskRef) (i : ℕ) : Option (ChainNode × ContextRef) :=
  match (x.sys.task t).chain[i]?, (x.sys.task t).contexts[i]? with
  | some node, some r => some (node, r)
  | _, _ => none

/-- The loop body of `execute` up to the first `await`. -/
def step (t : TaskRef) (i : ℕ) : Except PyError (ExecutorState α) :=
  match (x.sys.task t).chain[i]? with
  | none => .ok (x.goto t .ended)
  | some _ =>
      match (x.sys.task t).contexts[i]? with
      | none => .error .indexError
      | some r =>
          if x.readyEvent r then .ok (x.goto t (.running (i + 1)))
          else if x.startEvent r then .ok (x.goto t (.waiting i))
          else .ok { x.goto t (.sent i .posted) with
            startEvent := Function.update x.startEvent r true }

/-- The engine gets the primitive: it binds the job to its context, or answers with an error. -/
def arrive (t : TaskRef) (i : ℕ) : ExecutorState α :=
  match x.current t i with
  | none => x
  | some (_, r) =>
      match x.sys.bindJobContext r with
      | .error _ => x.interrupt t r
      | .ok sys => { x.goto t (.sent i .bound) with sys }

/-- The engine executes the primitive. -/
def execute (p : Payloads α) (t : TaskRef) (i : ℕ) : ExecutorState α :=
  match x.current t i with
  | none => x
  | some (node, r) =>
      if node.isGen then x.goto t (.sent i .executed)
      else { x.goto t (.sent i .executed) with
        sys := x.sys.fill r (fillPayload p x.sys.world.mgr (x.sys.task t) i) }

/-- The primitive is answered: the variable of a Gen node is set, and the context is ready. -/
def answer (t : TaskRef) (i : ℕ) : ExecutorState α :=
  match x.current t i with
  | none => x
  | some (node, r) =>
      let ready := { x.goto t (.running (i + 1)) with
        readyEvent := Function.update x.readyEvent r true }
      if node.isGen then
        if x.svReady node.varId then x.interrupt t r
        else { ready with svReady := Function.update x.svReady node.varId true }
      else ready

/-- The primitive fails. -/
def fail (t : TaskRef) (i : ℕ) : ExecutorState α :=
  match x.current t i with
  | none => x
  | some (_, r) => x.interrupt t r

/-- The effect of an action. -/
def apply (p : Payloads α) : ExecutorAction → Except PyError (ExecutorState α)
  | .registerEngine e =>
      .ok { x with sys := { x.sys with world := { x.sys.world with
        mgr := x.sys.world.mgr.registerEnginePrefixCache e } } }
  | .setSv v => .ok { x with svReady := Function.update x.svReady v true }
  | .setTaskContexts engine chain fuseFill =>
      match x.sys.world.mgr.setTaskContexts engine chain fuseFill with
      | .error e => .error e
      | .ok (contexts, m) =>
          .ok { x.goto x.sys.nextTask (.running 0) with
            sys := x.sys.bindTask { engine, chain, fuseFill, contexts } m }
  | .step t =>
      match x.phase t with
      | .running i => x.step t i
      | _ => .ok x
  | .resume t =>
      match x.phase t with
      | .waiting i => .ok (x.goto t (.running (i + 1)))
      | _ => .ok x
  | .arrive t =>
      match x.phase t with
      | .sent i _ => .ok (x.arrive t i)
      | _ => .ok x
  | .execute t =>
      match x.phase t with
      | .sent i _ => .ok (x.execute p t i)
      | _ => .ok x
  | .answer t =>
      match x.phase t with
      | .sent i _ => .ok (x.answer t i)
      | _ => .ok x
  | .fail t =>
      match x.phase t with
      | .sent i _ => .ok (x.fail t i)
      | _ => .ok x
  | .freeTaskContexts t =>
      match x.sys.world.freeTaskContexts (x.sys.task t).contexts with
      | .error e => .error e
      | .ok world => .ok { x with sys := { x.sys with world, bound := x.sys.bound.erase t } }
  | .freeConstantPrefixContexts v =>
      match x.sys.world.freeConstantPrefixContexts v with
      | .error e => .error e
      | .ok world => .ok { x with sys := { x.sys with world } }

/-- Every order of these actions. -/
def system (p : Payloads α) : TransitionSystem (ExecutorState α) ExecutorAction :=
  .ofExcept start Enabled fun x a => x.apply p a

/-! ## What fails -/

/-- The context of a primitive whose request fails with the action; its engine may reject it. -/
def failedRequest : ExecutorAction → Option ContextRef
  | .fail t =>
      match x.phase t with
      | .sent i _ => (x.current t i).map Prod.snd
      | _ => none
  | .arrive t =>
      match x.phase t with
      | .sent i _ => ((x.current t i).map Prod.snd).filter fun r =>
          match x.sys.bindJobContext r with
          | .error _ => true
          | .ok _ => false
      | _ => none
  | _ => none

/-- The context of the primitive that fails with the action: its request, or the assertion that
the variable of a Generate was not set. -/
def failingContext : ExecutorAction → Option ContextRef
  | .answer t =>
      match x.phase t with
      | .sent i _ => ((x.current t i).filter fun c => c.1.isGen && x.svReady c.1.varId).map Prod.snd
      | _ => none
  | a => x.failedRequest a

/-! ## What an engine has for a context -/

/-- A context and its parents, from the context up. -/
def lineage (m : ServeCoreContextManager) : ℕ → ContextRef → List ContextRef
  | 0, _ => []
  | fuel + 1, r =>
      match (m.obj r).parentContext with
      | none => [r]
      | some q => r :: lineage m fuel q

/-- The contexts above a context.  Parents are older than their children. -/
def ancestors (m : ServeCoreContextManager) (r : ContextRef) : List ContextRef :=
  (lineage m (r + 1) r).tail

/-- The payloads filled into a context. -/
def filled (r : ContextRef) : List (List α) := (x.sys.world.received r).getD []

/-- What was filled along the parents of a context, from the root down to the context. -/
def accumulated (r : ContextRef) : List α :=
  (lineage x.sys.world.mgr (r + 1) r).reverse.flatMap fun q => (x.filled q).flatten

end ExecutorState

end ParrotServe
