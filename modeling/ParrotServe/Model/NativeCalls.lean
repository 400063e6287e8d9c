import ParrotServe.Model.FrontendFunctions
import ParrotServe.Model.NativeExecutor

/-!
# Native calls

A Python native call from its payload to its execution: `PyNativeCallRequest.parse_from_payload`
(`parrot/serve/graph/call_request.py`), the variables of its node
(`create_vars_for_pynative_func`), and `PyNativeExecutor.execute`, of a session whose calls are
executed one after another.

A function is sent as a code object, serialized and encoded.  Decoding it (`base64`, `marshal`) and
making a function of it (`FunctionType`) are not code of the repository; they are a `Loader`.  Of
the metadata, the timeout cannot cut off a function without `await`, and the criteria only say when
the coroutine of a call begins, so neither is modelled.
-/

namespace ParrotServe

namespace NativeCalls

open PFunc

/-! ## Requests -/

/-- The payload of a native call.  A `null` is an absent field. -/
structure Payload where
  funcName : Option Text
  parameters : Option (List NativeParameterPayload)
  funcCode : Option Text := none

/-- The libraries that read a function. -/
structure Loader where
  /-- `CodeType`. -/
  Code : Type
  /-- `deserialize_func_code(encoded_b64str_to_bytes(func_code_serialized))`. -/
  deserialize : Text → Except PyError Code
  /-- `FunctionType(func_code, {}, func_name)`. -/
  functionType : Code → Text → Except PyError NativeFunction

/-- A `PyNativeCallRequest`. -/
structure PyNativeCallRequest where
  funcName : Text
  executableFunc : Option NativeFunction
  parametersMap : List (Text × NativeParameter)

/-- `_preprocess`: the fields that have to be there. -/
def Payload.preprocess (payload : Payload) :
    Except PyError (Text × List NativeParameterPayload) :=
  match payload.funcName, payload.parameters with
  | none, _ => .error (.parrotAssert "Missing field 'func_name' in request.")
  | some _, none => .error (.parrotAssert "Missing field 'parameters' in request.")
  | some funcName, some parameters => .ok (funcName, parameters)

namespace Loader

variable (loader : Loader)

/-- `executable_func`, of `PyNativeCallRequest.__init__`. -/
def executableFunc (funcName : Text) :
    Option loader.Code → Except PyError (Option NativeFunction)
  | none => .ok none
  | some code => (loader.functionType code funcName).map some

/-- The assignment of the local variable `func_code`, `none` while it has no value. -/
def assignFuncCode (payload : Payload) : Except PyError (Option (Option loader.Code)) :=
  match payload.funcCode with
  | none => .ok none
  | some serialized => (loader.deserialize serialized).map fun code => some (some code)

/-- `parse_from_payload`. -/
def parseFromPayload (payload : Payload) : Except PyError PyNativeCallRequest :=
  match payload.preprocess with
  | .error e => .error e
  | .ok (funcName, parameters) =>
      match loader.assignFuncCode payload with
      | .error e => .error e
      | .ok none => .error (.unboundLocalError "func_code")
      | .ok (some funcCode) =>
          match loader.executableFunc funcName funcCode with
          | .error e => .error e
          | .ok executableFunc =>
              (parseNativeParameters [] parameters).map fun parametersMap =>
                { funcName, executableFunc, parametersMap }

end Loader

/-! ## Sessions -/

/-- A session of native calls: its variables with the executor, and how many variables there are.
History: the code that was last executed under a name, as it was sent. -/
structure NativeSession where
  store : VariableStore
  next : SvRef
  executed : Text → Option Text

namespace NativeSession

/-- A new session, whose variables will have these ids. -/
def start (ids : SvRef → VarId) : NativeSession where
  store := VariableStore.start ids
  next := 0
  executed _ := none

variable (s : NativeSession)

/-- `_get_local_var_by_id`. -/
def getLocalVarById (varId : Text) : Except PyError SvRef :=
  match (List.range s.next).find? fun r => (s.store.vars r).id.val = varId with
  | none => .error (.parrotAssert "Local variable does not exist.")
  | some r => .ok r

/-- The value of a parameter as an object of the executor.  It is known by its `str`. -/
def valueOf : PyObject → PyValue
  | .none => .none
  | .other str => .str str

/-- The variable of a parameter: a new one for an output and for an initial value. -/
def createVarForParam (param : NativeParameter) : Except PyError SvRef × NativeSession :=
  if param.isOutput ∨ param.varId = none then
    let (r, s) := (s.next, { s with next := s.next + 1 })
    if param.value = .none then (.ok r, s)
    else
      match s.store.setVar r (valueOf param.value) with
      | (.error e, store) => (.error e, { s with store })
      | (.ok (), store) => (.ok r, { s with store })
  else (s.getLocalVarById (param.varId.getD []), s)

/-- `create_vars_for_pynative_func`: the input variables and the output variables. -/
def createVars : List (Text × NativeParameter) → List (Text × SvRef) → List (Text × SvRef) →
    NativeSession → Except PyError (List (Text × SvRef) × List (Text × SvRef)) × NativeSession
  | [], inputVars, outputVars, s => (.ok (inputVars, outputVars), s)
  | (key, param) :: params, inputVars, outputVars, s =>
      match s.createVarForParam param with
      | (.error e, s) => (.error e, s)
      | (.ok r, s) =>
          if param.isOutput then createVars params inputVars (outputVars ++ [(key, r)]) s
          else createVars params (inputVars ++ [(key, r)]) outputVars s

variable (loader : Loader)

/-- `_add_py_native_request`, up to the node that will be executed. -/
def submit (payload : Payload) : Except PyError NativeFuncCall × NativeSession :=
  match loader.parseFromPayload payload with
  | .error e => (.error e, s)
  | .ok request =>
      match createVars request.parametersMap [] [] s with
      | (.error e, s) => (.error e, s)
      | (.ok (inputVars, outputVars), s) => (.ok
          { funcName := request.funcName
            executableFunc := request.executableFunc
            inputVars
            inputValues := []
            outputVars }, s)

/-- Record the code of a call whose function was executed. -/
def record (node : NativeFuncCall) (funcCode : Option Text) : NativeSession :=
  match s.store.runFunction node, funcCode with
  | .ok _, some code =>
      { s with executed := Function.update s.executed node.funcName (some code) }
  | _, _ => s

/-- A call that is submitted and then executed. -/
def call (payload : Payload) : NativeSession :=
  match s.submit loader payload with
  | (.error _, s) => s
  | (.ok node, s) => { s.record node payload.funcCode with store := (s.store.execute node).2 }

end NativeSession

end NativeCalls

end ParrotServe
