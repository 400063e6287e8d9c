import ParrotServe.Model.NativeExecutor
import ParrotServe.Model.SessionRequests

/-!
# Execution coroutines

The coroutines that a request starts: `_execute_coroutine` of `GraphExecutor`
(`parrot/serve/session/graph_executor.py`) for a completion chain, and of `PyNativeExecutor`
(`parrot/serve/session/native_executor.py`) for a native function.  Both wait until an output is
activated, then for the variables they read (`wait_ready` and `wait_activated` of
`parrot/serve/graph/node.py`), and then they execute and set their outputs.

Every `await` is a step of its own, and requests, clients and other coroutines act in between.  A
chain waits for the scheduler (`wait_scheduled`), and at each of its nodes for the engine, or for
the task that fills a shared context (`context.ready_event.wait()`).  When these events come, if
ever, and what an engine generates is left open: they are actions of their own, with any text.  A
native function is called without an `await`, so the contents of its inputs are read and its
outputs are set in one step; what it leaves in its proxies is left open, too.

A native function may leave an output proxy as it is, or put any object in it.  Then the variable is
ready and its content is no string, which is kept beside the heap (`other`).
-/

namespace ParrotServe

/-- Where a coroutine is in `_execute_coroutine`. -/
inductive CoroutinePhase
  /-- `await gen_node.sv.wait_activated()`, `await func_node.wait_activated()`. -/
  | awaitActivated
  /-- `await node.wait_ready()`: the variables it still waits for. -/
  | awaitReady (awaited : List SvRef)
  /-- `await task.wait_scheduled()`: the task was submitted with the contents of its Fill nodes. -/
  | submitted (args : List PyValue)
  /-- `execute`: the nodes it still comes to. -/
  | executing (nodes : List NodeRef) (args : List PyValue)
  | finished
  /-- An exception ended it. -/
  | interrupted
  deriving DecidableEq

/-- The requests of all sessions and their coroutines.  History: `log`. -/
structure SessionExecution where
  heap : RequestHeap
  /-- Contents that are no strings, for variables that are ready. -/
  other : SvRef → Option PyValue
  /-- The coroutines that were started. -/
  started : List ExecutionCoroutine
  phase : ExecutionCoroutine → CoroutinePhase
  /-- What a producer was asked for, and what it left for each output: a Gen node has only one. -/
  log : NodeRef → Option (List PyValue × (Text → PyValue))

namespace RequestHeap

variable (s : RequestHeap)

/-- The content of a variable that is a string. -/
def content (v : SvRef) : Option Text := (s.vars.obj v).content

/-- The variables `wait_ready` of a node waits for. -/
def awaitedByNode (n : NodeRef) : Except PyError (List SvRef) :=
  match (s.objs.node n).edgeAPrevNode with
  | none => (s.nodeSv n).map fun var => [var]
  | some prev =>
      match s.nodeSv prev with
      | .error e => .error e
      | .ok prevVar => (s.nodeSv n).map fun var => [prevVar, var]

/-- The loop over `iter_fill()`: what a completion chain waits for. -/
def awaitedByNodes : List NodeRef → Except PyError (List SvRef)
  | [] => .ok []
  | n :: nodes =>
      match s.awaitedByNode n with
      | .error e => .error e
      | .ok vars => (awaitedByNodes nodes).map fun rest => vars ++ rest

/-- The variables a coroutine waits for, once it is activated. -/
def awaited : ExecutionCoroutine → Except PyError (List SvRef)
  | .completionChain c =>
      match s.objs.iterFill c with
      | .error e => .error e
      | .ok none => .error (.runtimeError "iter_fill")
      | .ok (some nodes) => s.awaitedByNodes nodes
  | .nativeFunc n =>
      match s.native n with
      | none => .error .attributeError
      | some node => .ok (node.inputVars.map Prod.snd)

/-- `wait_activated` returns: the output of the Gen node, or one of the outputs, is activated. -/
def outputActivated : ExecutionCoroutine → Bool
  | .completionChain c =>
      match (s.objs.chain c).genNode with
      | none => true
      | some gen =>
          match s.nodeSv gen with
          | .error _ => true
          | .ok var => (s.activation var).isSome
  | .nativeFunc n =>
      match s.native n with
      | none => false
      | some node => node.outputVars.any fun output => (s.activation output.2).isSome

/-- The coroutines that an action starts. -/
def newCoroutines (s' : RequestHeap) : Action → List ExecutionCoroutine
  | .addRequest sessionId _ _ | .addNativeRequest sessionId _ =>
      (s'.sessions sessionId).coroutines.drop (s.sessions sessionId).coroutines.length
  | _ => []

end RequestHeap

namespace SessionExecution

variable (x : SessionExecution)

/-- No requests. -/
def start (timeout : ℕ) : SessionExecution where
  heap := .start timeout
  other _ := none
  started := []
  phase _ := .awaitActivated
  log _ := none

/-- A coroutine goes to another phase. -/
def goto (co : ExecutionCoroutine) (phase : CoroutinePhase) : SessionExecution :=
  { x with phase := Function.update x.phase co phase }

/-! ## Contents -/

/-- `var.get()`, for a variable that is ready. -/
def value (v : SvRef) : Option PyValue :=
  match x.heap.content v with
  | some text => some (.str text)
  | none => x.other v

/-- `self._content is None`, as it is for a variable that is not ready. -/
def isBlank (v : SvRef) : Bool := decide (x.value v = none ∨ x.value v = some .none)

/-- `var.set(content)`. -/
def set (v : SvRef) (content : PyValue) : Except PyError Unit × SessionExecution :=
  if x.isBlank v then
    match content with
    | .str text =>
        (.ok (), { x with heap := { x.heap with vars := (x.heap.vars.setContent v text).2 } })
    | content => (.ok (), { x with other := Function.update x.other v (some content) })
  else (.error (.assertionError ("This semantic variable (id=" ++
    String.ofList (x.heap.vars.obj v).id.val ++ ") is filled")), x)

/-- `var.get()` for each input variable of a native function. -/
def readInputs : List SvRef → Except PyError (List PyValue)
  | [] => .ok []
  | v :: vars =>
      match x.value v with
      | none => .error (.parrotAssert "Input var is not ready.")
      | some content => (readInputs vars).map fun contents => content :: contents

/-- `node.get()` for each node. -/
def readNodes : List NodeRef → Except PyError (List PyValue)
  | [] => .ok []
  | n :: nodes =>
      match x.heap.nodeSv n with
      | .error e => .error e
      | .ok v =>
          match x.value v with
          | none => .error (.parrotAssert "This semantic variable is not ready")
          | some content => (readNodes nodes).map fun contents => content :: contents

/-- What `tokenize_chain` tokenizes. -/
def tokenizeChain (c : ChainRef) : Except PyError (List PyValue) :=
  match x.heap.objs.iterFill c with
  | .error e => .error e
  | .ok none => .error (.runtimeError "iter_fill")
  | .ok (some nodes) => x.readNodes nodes

/-- The write back of a native function. -/
def writeBack (proxies : Text → PyValue) : List (Text × SvRef) → SessionExecution →
    Except PyError Unit × SessionExecution
  | [], x => (.ok (), x)
  | (key, v) :: outputs, x =>
      match x.set v (proxies key) with
      | (.error e, x) => (.error e, x)
      | (.ok (), x) => writeBack proxies outputs x

/-! ## Actions -/

/-- What happens in the sessions. -/
inductive Action
  /-- Requests, and clients: `set` is `set_semantic_variable`. -/
  | request (a : RequestHeap.Action)
  /-- An output is activated. -/
  | activated (co : ExecutionCoroutine)
  /-- The next variable is ready. -/
  | ready (co : ExecutionCoroutine)
  /-- All are ready: the task is submitted. -/
  | submit (c : ChainRef)
  /-- The scheduler gives the task an engine, and it gets its contexts. -/
  | scheduled (c : ChainRef)
  /-- The context of a Fill node is ready: it was, another task filled it, or `Fill` is answered. -/
  | nodeDone (c : ChainRef)
  /-- `Generate` is answered; its context is a new one. -/
  | answer (c : ChainRef) (text : Text)
  /-- The native function is executed: it leaves contents in its proxies, or raises. -/
  | call (n : NodeRef) (result : Except PyError (Text → PyValue))
  /-- Any other exception, where the coroutine stands: the queue is full, a tokenizer refuses a
  content, the function timed out, a primitive failed. -/
  | fail (co : ExecutionCoroutine)

/-- The action is one of a coroutine that was started. -/
def Action.isCoroutine : Action → Bool
  | .request _ => false
  | _ => true

/-- The coroutine that goes on, without waiting for the scheduler or an engine. -/
def Action.resumes : Action → Option ExecutionCoroutine
  | .activated co | .ready co => some co
  | .submit c => some (.completionChain c)
  | .call n _ => some (.nativeFunc n)
  | .request _ | .scheduled _ | .nodeDone _ | .answer _ _ | .fail _ => none

/-- All variables a coroutine waits for are ready. -/
def allReady (co : ExecutionCoroutine) : Bool := decide (x.phase co = .awaitReady [])

/-- The next variable that a coroutine waits for is ready. -/
def nextReady (co : ExecutionCoroutine) : Bool :=
  match x.phase co with
  | .awaitReady (v :: _) => (x.value v).isSome
  | _ => false

/-- The task is in the queue of the scheduler. -/
def isSubmitted (co : ExecutionCoroutine) : Bool :=
  match x.phase co with
  | .submitted _ => true
  | _ => false

/-- The task is executed, and the next node is a Gen node or not. -/
def comesTo (isGen : Bool) (co : ExecutionCoroutine) : Bool :=
  match x.phase co with
  | .executing (n :: _) _ => (x.heap.objs.node n).isGen == isGen
  | _ => false

/-- The task waits for the scheduler, for an engine, or for another task to fill a context. -/
def inFlight (co : ExecutionCoroutine) : Bool :=
  match x.phase co with
  | .submitted _ | .executing _ _ => true
  | _ => false

/-- The coroutine has come to an end. -/
def hasEnded (co : ExecutionCoroutine) : Bool :=
  match x.phase co with
  | .finished | .interrupted => true
  | _ => false

/-- A coroutine is resumed behind what it waits for. -/
def Enabled : Action → Prop
  | .request a => x.heap.Enabled a
  | .activated co =>
      co ∈ x.started ∧ x.phase co = .awaitActivated ∧ x.heap.outputActivated co = true
  | .ready co => co ∈ x.started ∧ x.nextReady co = true
  | .submit c => .completionChain c ∈ x.started ∧ x.allReady (.completionChain c) = true
  | .scheduled c => .completionChain c ∈ x.started ∧ x.isSubmitted (.completionChain c) = true
  | .nodeDone c => .completionChain c ∈ x.started ∧ x.comesTo false (.completionChain c) = true
  | .answer c _ => .completionChain c ∈ x.started ∧ x.comesTo true (.completionChain c) = true
  | .call n _ => .nativeFunc n ∈ x.started ∧ x.allReady (.nativeFunc n) = true
  | .fail co => co ∈ x.started ∧ x.hasEnded co = false

instance : ∀ a, Decidable (x.Enabled a)
  | .request a => inferInstanceAs (Decidable (x.heap.Enabled a))
  | .activated _ => inferInstanceAs (Decidable (_ ∧ _ ∧ _ = true))
  | .ready _ | .submit _ | .scheduled _ | .nodeDone _ | .answer _ _ | .call _ _ =>
      inferInstanceAs (Decidable (_ ∧ _ = true))
  | .fail _ => inferInstanceAs (Decidable (_ ∧ _ = false))

/-- The phase behind a node. -/
def executingRest : List NodeRef → List PyValue → CoroutinePhase
  | [], _ => .finished
  | nodes, args => .executing nodes args

/-- `await primitive.apost(..)` returns, and `node.sv.set(content=generated_text)`. -/
def answer (co : ExecutionCoroutine) (text : Text) : List NodeRef → List PyValue → SessionExecution
  | [], _ => x.goto co .finished
  | gen :: nodes, args =>
      let asked := { x with log := Function.update x.log gen (some (args, fun _ => .str text)) }
      match x.heap.nodeSv gen with
      | .error _ => asked.goto co .interrupted
      | .ok v =>
          match asked.set v (.str text) with
          | (.error _, x) => x.goto co .interrupted
          | (.ok (), x) => x.goto co (executingRest nodes args)

/-- `PyNativeExecutor.execute`. -/
def call (n : NodeRef) (result : Except PyError (Text → PyValue)) : SessionExecution :=
  match x.heap.native n with
  | none => x.goto (.nativeFunc n) .interrupted
  | some node =>
      match x.readInputs (node.inputVars.map Prod.snd) with
      | .error _ => x.goto (.nativeFunc n) .interrupted
      | .ok args =>
          match result with
          | .error _ => x.goto (.nativeFunc n) .interrupted
          | .ok proxies =>
              match writeBack proxies node.outputVars
                { x with log := Function.update x.log n (some (args, proxies)) } with
              | (.error _, x) => x.goto (.nativeFunc n) .interrupted
              | (.ok (), x) => x.goto (.nativeFunc n) .finished

/-- The effect of an action. -/
def apply (uuid3 : ℕ → Text → VarId) : Action → SessionExecution
  | .request (.set v content) => (x.set v (.str content)).2
  | .request a =>
      let heap := x.heap.apply uuid3 a
      let new := x.heap.newCoroutines heap a
      { x with
        heap
        started := x.started ++ new
        phase := fun co => if co ∈ new then .awaitActivated else x.phase co }
  | .activated co =>
      match x.heap.awaited co with
      | .error _ => x.goto co .interrupted
      | .ok awaited => x.goto co (.awaitReady awaited)
  | .ready co =>
      match x.phase co with
      | .awaitReady awaited => x.goto co (.awaitReady awaited.tail)
      | _ => x
  | .submit c =>
      match x.tokenizeChain c with
      | .error _ => x.goto (.completionChain c) .interrupted
      | .ok args => x.goto (.completionChain c) (.submitted args)
  | .scheduled c =>
      match x.phase (.completionChain c) with
      | .submitted args =>
          match x.heap.objs.iter c with
          | .ok (some nodes) => x.goto (.completionChain c) (executingRest nodes args)
          | _ => x.goto (.completionChain c) .interrupted
      | _ => x
  | .nodeDone c =>
      match x.phase (.completionChain c) with
      | .executing nodes args => x.goto (.completionChain c) (executingRest nodes.tail args)
      | _ => x
  | .answer c text =>
      match x.phase (.completionChain c) with
      | .executing nodes args => x.answer (.completionChain c) text nodes args
      | _ => x
  | .call n result => x.call n result
  | .fail co => x.goto co .interrupted

/-- Every order of these actions. -/
def system (uuid3 : ℕ → Text → VarId) (timeout : ℕ) : TransitionSystem SessionExecution Action :=
  .ofFun (start timeout) Enabled fun x a => x.apply uuid3 a

end SessionExecution

end ParrotServe
