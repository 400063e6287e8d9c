import ParrotServe.Framework.Dict
import ParrotServe.Framework.Tokens
import ParrotServe.Model.EngineScheduler
import ParrotServe.Model.RequestParser

/-!
# Functions of the frontend

`parrot/frontend/pfunc/function.py` with its parameters and body pieces (`function_body.py`) and
the client's variables (`semantic_variable.py`): a semantic function is parsed from a template, a
call binds arguments to its parameters, and the call is rendered into the payload that
`call_request.py` parses on the server.  A native function has no body, and its payload only has
parameters.

Arguments are variables or other Python objects; of an object it matters whether it is `None`, and
its `str`.  The content of a variable that has none is fetched by the virtual machine, if there is
one; that is the parameter `handler` of what needs it.

`pattern.finditer` is the scan of the server: the expression is the same, and so is what it
matches in the two modules `re` and `regex`.
-/

namespace ParrotServe

namespace PFunc

/-! ## Parameters and bodies -/

/-- `ParamType`. -/
inductive ParamType
  | inputLoc
  | outputLoc
  | inputPyobj
  deriving DecidableEq, Repr

/-- `Parameter`. -/
structure Parameter where
  name : Text
  typ : ParamType
  samplingConfig : Option SamplingConfig := none
  deriving DecidableEq, Repr

namespace Parameter

variable (p : Parameter)

/-- `is_output`. -/
def isOutput : Bool := p.typ == .outputLoc

/-- `get_param_str`. -/
def getParamStr : Text := '{' :: '{' :: (p.name ++ ['}', '}'])

end Parameter

/-- `Constant` or `ParameterLoc`. -/
inductive FuncBodyPiece
  | constant (idx : ℕ) (text : Text)
  | parameterLoc (idx : ℕ) (param : Parameter)
  deriving DecidableEq, Repr

/-- `isinstance(piece, ParameterLoc) and piece.param.is_output`. -/
def FuncBodyPiece.isOutputLoc : FuncBodyPiece → Bool
  | .constant _ _ => false
  | .parameterLoc _ param => param.isOutput

/-- `push_to_body`. -/
def pushToBody (piece : ℕ → FuncBodyPiece) (body : List FuncBodyPiece) : List FuncBodyPiece :=
  body ++ [piece body.length]

/-- `params_map`. -/
def paramsMap (params : List Parameter) : Dict Text Parameter :=
  params.foldl (fun d param => d.set param.name param) Dict.empty

/-- The local variables of `parse_func_body`. -/
structure ParseState where
  ret : List FuncBodyPiece := []
  lastOutputLocIdx : ℤ := -1
  outputs : List Text := []

namespace ParseState

variable (st : ParseState)

/-- The constant in front of a match, if it is not empty. -/
def pushConstant (chunk : Text) : ParseState :=
  if chunk ≠ [] then { st with ret := pushToBody (.constant · chunk) st.ret } else st

/-- The checks of an output location. -/
def checkOutput (param : Parameter) : Except PyError Unit :=
  match st.ret.getLast? with
  | none => .error .indexError
  | some piece =>
      if piece.isOutputLoc then
        .error (.assertionError "Output loc can't be adjacent to another output loc.")
      else if param.name ∈ st.outputs then
        .error (.assertionError "Output param can't be used twice.")
      else .ok ()

/-- The location of a match. -/
def pushLoc (param : Parameter) : Except PyError ParseState :=
  let ret := pushToBody (.parameterLoc · param) st.ret
  if param.isOutput then
    match st.checkOutput param with
    | .error e => .error e
    | .ok () => .ok
        { ret, lastOutputLocIdx := ret.length - 1, outputs := param.name :: st.outputs }
  else .ok { st with ret }

end ParseState

/-- The loop of `parse_func_body`, with `last_pos` at its end. -/
def parseMatches (bodyStr : Text) (params : Dict Text Parameter) :
    ℕ → List (ℕ × ℕ) → ParseState → Except PyError (ParseState × ℕ)
  | lastPos, [], st => .ok (st, lastPos)
  | lastPos, (start, stop) :: found, st =>
      let st := st.pushConstant (slice bodyStr lastPos start)
      let paramName := slice bodyStr (start + 2) (stop - 2)
      match params.get? paramName with
      | none => .error (.assertionError ("Parse failed: " ++ String.ofList paramName ++
          " is not defined."))
      | some param =>
          match st.pushLoc param with
          | .error e => .error e
          | .ok st => parseMatches bodyStr params stop found st

/-- `parse_func_body`. -/
def parseFuncBody (bodyStr : Text) (params : Dict Text Parameter) (removePureFill : Bool) :
    Except PyError (List FuncBodyPiece) :=
  match parseMatches bodyStr params 0 (finditer 0 0 bodyStr) {} with
  | .error e => .error e
  | .ok (st, lastPos) =>
      if removePureFill then .ok (st.ret.take (st.lastOutputLocIdx + 1).toNat)
      else if lastPos < bodyStr.length then
        .ok (pushToBody (.constant · (bodyStr.drop lastPos)) st.ret)
      else .ok st.ret

/-! ## Functions -/

/-- `BasicFunction`. -/
structure BasicFunction where
  name : Text
  params : List Parameter

namespace BasicFunction

variable (f : BasicFunction)

/-- `inputs`. -/
def inputs : List Parameter := f.params.filter fun param => param.typ ≠ .outputLoc

/-- `outputs`. -/
def outputs : List Parameter := f.params.filter fun param => param.typ = .outputLoc

end BasicFunction

/-- `SemanticFunction`. -/
structure SemanticFunction extends BasicFunction where
  metadata : SemanticCallMetadata
  body : List FuncBodyPiece

/-- `SemanticFunction.__init__` on a template. -/
def SemanticFunction.ofBodyStr (name : Text) (params : List Parameter) (funcBodyStr : Text)
    (metadata : SemanticCallMetadata) : Except PyError SemanticFunction :=
  match parseFuncBody funcBodyStr (paramsMap params) metadata.removePureFill with
  | .error e => .error e
  | .ok body => .ok { name, params, metadata, body }

/-- The text of a piece in a template. -/
def FuncBodyPiece.templateStr : FuncBodyPiece → Text
  | .constant _ text => text
  | .parameterLoc _ param => param.getParamStr

/-- `to_template_str`. -/
def toTemplateStr (body : List FuncBodyPiece) : Text := body.flatMap FuncBodyPiece.templateStr

/-! ## Arguments -/

/-- A `SemanticVariable` of the client. -/
structure SemanticVariable where
  name : Text
  id : Option Text := none
  content : Option Text := none
  deriving DecidableEq, Repr

/-- `get_semantic_variable_handler` of the virtual machine, if there is one. -/
abbrev Handler := Option (Option Text → Except PyError Text)

namespace SemanticVariable

variable (v : SemanticVariable)

/-- `is_registered`. -/
def isRegistered : Bool := v.id.isSome

/-- `get`.  Its assertion is about a tuple, which is never false. -/
def get (handler : Handler) : Except PyError Text :=
  match v.content, handler with
  | some content, _ => .ok content
  | none, some getSemanticVariable => getSemanticVariable v.id
  | none, none => .ok []

end SemanticVariable

/-- A Python object that is no `SemanticVariable`. -/
inductive PyObject
  | none
  /-- Any other object, with its `str`. -/
  | other (str : Text)
  deriving DecidableEq, Repr

/-- `str(value)`. -/
def PyObject.str : PyObject → Text
  | .none => ['N', 'o', 'n', 'e']
  | .other str => str

/-- An argument of a call. -/
inductive Argument
  | semanticVariable (v : SemanticVariable)
  | object (o : PyObject)
  deriving DecidableEq, Repr

/-! ## Calls -/

/-- `BasicCall._set_value`. -/
def setValue (param : Parameter) (value : Argument) (bindings : Dict Text Argument) :
    Except PyError (Dict Text Argument) :=
  match param.typ, value with
  | .inputLoc, .object o => .ok (bindings.set param.name
      (.semanticVariable { name := param.name, content := some o.str }))
  | .outputLoc, .object _ => .error .typeError
  | _, _ => .ok (bindings.set param.name value)

/-- The loop over the positional arguments. -/
def setPositional (funcName : Text) : List Argument → List Parameter → Dict Text Argument →
    Except PyError (Dict Text Argument)
  | [], _, bindings => .ok bindings
  | _ :: _, [], _ => .error (.valueError ("Function " ++ String.ofList funcName ++
      " got too many positional arguments."))
  | value :: args, param :: inputs, bindings =>
      match setValue param value bindings with
      | .error e => .error e
      | .ok bindings => setPositional funcName args inputs bindings

/-- The loop over the keyword arguments. -/
def setKeywords (funcName : Text) (params : Dict Text Parameter) : List (Text × Argument) →
    Dict Text Argument → Except PyError (Dict Text Argument)
  | [], bindings => .ok bindings
  | (name, value) :: kwargs, bindings =>
      if name ∈ bindings.keys then
        .error (.assertionError ("Function " ++ String.ofList funcName ++
          " got multiple values for argument " ++ String.ofList name))
      else
        match params.get? name with
        | none => .error (.assertionError ("Function " ++ String.ofList funcName ++
            " got an unexpected keyword argument " ++ String.ofList name))
        | some param =>
            match setValue param value bindings with
            | .error e => .error e
            | .ok bindings => setKeywords funcName params kwargs bindings

/-- The loop over the outputs: those that are not bound get a new variable. -/
def createOutputVars : List Parameter → Dict Text Argument → List SemanticVariable →
    Dict Text Argument × List SemanticVariable
  | [], bindings, outputVars => (bindings, outputVars)
  | param :: outputs, bindings, outputVars =>
      if param.name ∈ bindings.keys then createOutputVars outputs bindings outputVars
      else
        let outVar : SemanticVariable := { name := param.name }
        createOutputVars outputs (bindings.set param.name (.semanticVariable outVar))
          (outputVars ++ [outVar])

/-- What a `BasicCall` adds to its function. -/
structure BasicCall where
  bindings : Dict Text Argument
  outputVars : List SemanticVariable

/-- `BasicCall.set_bindings`. -/
def BasicFunction.setBindings (f : BasicFunction) (args : List Argument)
    (kwargs : List (Text × Argument)) : Except PyError BasicCall :=
  match setPositional f.name args f.inputs Dict.empty with
  | .error e => .error e
  | .ok bindings =>
      match setKeywords f.name (paramsMap f.params) kwargs bindings with
      | .error e => .error e
      | .ok bindings =>
          let (bindings, outputVars) := createOutputVars f.outputs bindings []
          .ok { bindings, outputVars }

/-! ## Payloads -/

/-- What `asdict(param.sampling_config)` has for keys, for an output. -/
def samplingEntry (param : Parameter) : Except PyError (Option (List Text)) :=
  if param.isOutput then
    if param.samplingConfig.isSome then .ok (some samplingConfigFields)
    else .error (.assertionError "Output loc must have sampling config.")
  else .ok none

/-- The id or the initial value of a variable, for the dictionary of its parameter. -/
def variableEntry (handler : Handler) (param : Parameter) (v : SemanticVariable) :
    Except PyError (Option Text × Option Text) :=
  if v.isRegistered then .ok (v.id, none)
  else if param.isOutput then .ok (none, none)
  else
    match v.get handler with
    | .error e => .error e
    | .ok content => .ok (none, some content)

/-- The loop of `SemanticCall.to_request_payload`, over the template and the parameters. -/
def renderSemantic (handler : Handler) (bindings : Dict Text Argument) :
    List Parameter → Text × List ParameterPayload → Except PyError (Text × List ParameterPayload)
  | [], result => .ok result
  | param :: params, (templateStr, parameters) =>
      match bindings.get? param.name with
      | none => .error (.keyError (String.ofList param.name))
      | some value =>
          match samplingEntry param, value with
          | .error e, _ => .error e
          | .ok samplingConfig, .semanticVariable v =>
              match variableEntry handler param v with
              | .error e => .error e
              | .ok (varId, initial) => renderSemantic handler bindings params
                  (templateStr, parameters ++
                    [{ name := some param.name, isOutput := some param.isOutput
                       varId, value := initial, samplingConfig }])
          | .ok _, .object o => renderSemantic handler bindings params
              (Tokens.replace param.getParamStr o.str templateStr, parameters)

/-- `SemanticCall.to_request_payload`. -/
def SemanticFunction.toRequestPayload (f : SemanticFunction) (handler : Handler)
    (bindings : Dict Text Argument) : Except PyError SemanticCallPayload :=
  match renderSemantic handler bindings f.params (toTemplateStr f.body, []) with
  | .error e => .error e
  | .ok (templateStr, parameters) => .ok
      { template := some templateStr
        parameters := some parameters
        models := some f.metadata.models
        modelType := some f.metadata.modelType
        removePureFill := some f.metadata.removePureFill
        cachePrefix := some f.metadata.cachePrefix
        outputCriteria := f.metadata.outputCriteria
        fuseFill := some f.metadata.fuseFill }

/-- An entry of the field `parameters` of a native call.  A `null` is an absent field. -/
structure NativeParameterPayload where
  name : Option Text
  isOutput : Option Bool
  varId : Option Text := none
  value : PyObject := .none
  deriving DecidableEq, Repr

/-- The loop of `PyNativeCall.to_request_payload`. -/
def renderNative (handler : Handler) (bindings : Dict Text Argument) :
    List Parameter → List NativeParameterPayload → Except PyError (List NativeParameterPayload)
  | [], parameters => .ok parameters
  | param :: params, parameters =>
      let entry : NativeParameterPayload :=
        { name := some param.name, isOutput := some param.isOutput }
      match bindings.get? param.name with
      | none => .error (.keyError (String.ofList param.name))
      | some (.object o) =>
          renderNative handler bindings params (parameters ++ [{ entry with value := o }])
      | some (.semanticVariable v) =>
          match variableEntry handler param v with
          | .error e => .error e
          | .ok (varId, initial) => renderNative handler bindings params
              (parameters ++ [{ entry with
                varId, value := (initial.map PyObject.other).getD .none }])

/-- The field `parameters` of `PyNativeCall.to_request_payload`. -/
def BasicFunction.toRequestPayload (f : BasicFunction) (handler : Handler)
    (bindings : Dict Text Argument) : Except PyError (List NativeParameterPayload) :=
  renderNative handler bindings f.params []

/-! ## Native parameters on the server -/

/-- A `NativeFunctionParameter`, whose value is any object. -/
structure NativeParameter where
  name : Text
  isOutput : Bool
  varId : Option Text
  value : PyObject
  deriving DecidableEq, Repr

/-- `NativeFunctionParameter(**parameter)` with its `__post_init__`. -/
def NativeParameterPayload.construct (p : NativeParameterPayload) :
    Except PyError NativeParameter :=
  match p.name, p.isOutput with
  | some name, some isOutput =>
      if isOutput && p.varId.isSome then
        .error (.valueError "Output parameter should not have var_id.")
      else if p.varId.isSome && p.value ≠ .none then
        .error (.valueError "Parameter should not have both var_id and value.")
      else if !isOutput && p.varId.isNone && p.value = .none then
        .error (.valueError "Input parameter should have either var_id or value.")
      else .ok { name, isOutput, varId := p.varId, value := p.value }
  | _, _ => .error .typeError

/-- The loop of `PyNativeCallRequest.parse_from_payload` over the parameters. -/
def parseNativeParameters (parametersMap : List (Text × NativeParameter)) :
    List NativeParameterPayload → Except PyError (List (Text × NativeParameter))
  | [] => .ok parametersMap
  | parameter :: parameters =>
      match parameter.construct with
      | .error e => .error (coreUserError e)
      | .ok parsed =>
          if parsed.name ∈ parametersMap.map Prod.fst then
            .error (.parrotAssert "Duplicate parameter name.")
          else parseNativeParameters (parametersMap ++ [(parsed.name, parsed)]) parameters

end PFunc

end ParrotServe
