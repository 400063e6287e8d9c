import ParrotServe.Framework.TransitionSystem
import ParrotServe.Model.VariableManager

/-!
# Writing and reading variables

`SemanticVariable.set` and `get` (`parrot/serve/graph/semantic_variable.py`) with the content and
the ready event apart, as the code has them: `set` looks at the content, `get` at the event.  The
writers are `set_semantic_variable` of the core, the write back of a Gen node, initial values, and
`PyNativeExecutor.execute` (`parrot/serve/session/native_executor.py`), which hands an
`OutputProxy` for each output to the native function and sets the variables to what the proxies
hold afterwards.

`execute` has no `await`, so it is one step.  A native function is user code: given its arguments
it raises, or it returns and leaves a content in every proxy.  What a client sends is a JSON
value, and what user code leaves in a proxy is any object.
-/

namespace ParrotServe

/-- A Python value, as far as strings and `None` are told from other objects. -/
inductive PyValue
  | none
  | str (text : Text)
  | object (id : ℕ)
  deriving DecidableEq

/-- `isinstance(value, str)`. -/
def PyValue.isStr : PyValue → Bool
  | .str _ => true
  | _ => false

/-- A `SemanticVariable`: its content and its ready event. -/
structure VariableState where
  id : VarId
  content : PyValue := .none
  readyEvent : Bool := false
  deriving DecidableEq

namespace VariableState

variable (v : VariableState)

/-- `is_ready`. -/
def isReady : Bool := v.readyEvent

/-- `set`. -/
def set (content : PyValue) : Except PyError Unit × VariableState :=
  if v.content = .none then (.ok (), { v with content, readyEvent := true })
  else (.error (.assertionError ("This semantic variable (id=" ++ String.ofList v.id.val ++
    ") is filled")), v)

/-- `get`. -/
def get : Except PyError PyValue :=
  if v.isReady then .ok v.content
  else .error (.parrotAssert ("This semantic variable (id=" ++ String.ofList v.id.val ++
    ") is not ready"))

end VariableState

/-- A native function: its arguments and the names of its output proxies, to what the proxies
hold when it returns. -/
abbrev NativeFunction := List (Text × PyValue) → List Text → Except PyError (Text → PyValue)

/-- What `execute` reads of a `NativeFuncNode`. -/
structure NativeFuncCall where
  funcName : Text
  executableFunc : Option NativeFunction
  inputVars : List (Text × SvRef)
  inputValues : List (Text × PyValue)
  outputVars : List (Text × SvRef)

/-- The variables of a session with its native executor.  History: what was read so far. -/
structure VariableStore where
  vars : SvRef → VariableState
  funcCache : Text → Option NativeFunction
  reads : List (SvRef × PyValue)

namespace VariableStore

/-- New variables. -/
def start (ids : SvRef → VarId) : VariableStore where
  vars r := { id := ids r }
  funcCache _ := none
  reads := []

variable (s : VariableStore)

/-- `var.set(content)`. -/
def setVar (r : SvRef) (content : PyValue) : Except PyError Unit × VariableStore :=
  let (result, v) := (s.vars r).set content
  (result, { s with vars := Function.update s.vars r v })

/-- The contents of the input variables. -/
def readInputs : List (Text × SvRef) → Except PyError (List (Text × PyValue))
  | [] => .ok []
  | (key, r) :: inputs =>
      if (s.vars r).isReady then
        match (s.vars r).get with
        | .error e => .error e
        | .ok content => (readInputs inputs).map fun kwargs => (key, content) :: kwargs
      else .error (.parrotAssert "Input var is not ready.")

/-- `execute` up to the write back: what the proxies hold, and the cache. -/
def runFunction (call : NativeFuncCall) :
    Except PyError ((Text → PyValue) × (Text → Option NativeFunction)) :=
  match s.readInputs call.inputVars with
  | .error e => .error e
  | .ok contents =>
      let kwargs := contents ++ call.inputValues
      let outputs := call.outputVars.map Prod.fst
      match call.executableFunc with
      | some func => (func kwargs outputs).map fun proxies =>
          (proxies, Function.update s.funcCache call.funcName (some func))
      | none =>
          match s.funcCache call.funcName with
          | none => .error (.valueError ("Function " ++ String.ofList call.funcName ++
              " not found in Cache."))
          | some func => (func kwargs outputs).map fun proxies => (proxies, s.funcCache)

/-- The write back: `var.set(pystring_proxies[key].content)` for each output. -/
def writeBack (proxies : Text → PyValue) :
    List (Text × SvRef) → VariableStore → Except PyError Unit × VariableStore
  | [], s => (.ok (), s)
  | (key, r) :: outputs, s =>
      match s.setVar r (proxies key) with
      | (.error e, s) => (.error e, s)
      | (.ok (), s) => writeBack proxies outputs s

/-- `execute`. -/
def execute (call : NativeFuncCall) : Except PyError Unit × VariableStore :=
  match s.runFunction call with
  | .error e => (.error e, s)
  | .ok (proxies, funcCache) => writeBack proxies call.outputVars { s with funcCache }

/-! ## Runs -/

/-- Who calls `set`, besides native functions. -/
inductive Writer
  /-- `set_semantic_variable`. -/
  | client
  /-- `node.sv.set(content=generated_text)`. -/
  | genNode
  /-- `sv.set(value)` when a request creates its variables. -/
  | initialValue
  deriving DecidableEq

/-- What can happen to the variables. -/
inductive Action
  | set (writer : Writer) (r : SvRef) (content : PyValue)
  | execute (call : NativeFuncCall)
  | get (r : SvRef)

/-- The effect of an action.  An exception goes to the writer. -/
def apply : Action → VariableStore
  | .set _ r content => (s.setVar r content).2
  | .execute call => (s.execute call).2
  | .get r =>
      match (s.vars r).get with
      | .error _ => s
      | .ok content => { s with reads := s.reads ++ [(r, content)] }

/-- Every order of these actions. -/
def system (ids : SvRef → VarId) : TransitionSystem VariableStore Action :=
  .ofFun (start ids) (fun _ _ => True) apply

end VariableStore

end ParrotServe
