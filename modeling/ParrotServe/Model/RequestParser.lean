import ParrotServe.Model.RequestChain

/-!
# The parser of semantic requests

`ChunkedSemanticCallRequest.parse_from_payload` (`parrot/serve/graph/call_request.py`).

A payload is a JSON object.  Its fields are `none` when the key is absent, and a `null` is an
absent optional field; the values have the types of the API.  Of a sampling config only the keys
matter here: `SamplingConfig(**config)` raises for a key it does not know, and nothing else of it
is checked.

The placeholders of a template are the matches of a regular expression, from the left and without
overlap.  Its alphabet is ASCII, and its three parts `{{`, name and `}}` cannot take characters
from each other, so there is nothing to backtrack over.
-/

namespace ParrotServe

/-! ## Payloads -/

/-- An entry of the field `parameters`. -/
structure ParameterPayload where
  name : Option Text
  isOutput : Option Bool
  varId : Option Text := none
  value : Option Text := none
  /-- The keys of the sampling config. -/
  samplingConfig : Option (List Text) := none
  /-- Keys that are no field of `SemanticFunctionParameter`. -/
  otherKeys : List Text := []
  deriving DecidableEq, Repr

/-- The payload of a semantic call request. -/
structure SemanticCallPayload where
  template : Option Text
  parameters : Option (List ParameterPayload)
  models : Option (List Text) := none
  modelType : Option Text := none
  removePureFill : Option Bool := none
  cachePrefix : Option Bool := none
  outputCriteria : Option Text := none
  fuseFill : Option Bool := none
  deriving DecidableEq, Repr

/-! ## Parameters -/

/-- The fields of `SamplingConfig`. -/
def samplingConfigFields : List Text :=
  ["temperature", "top_p", "max_gen_length", "ignore_tokenizer_eos", "stop_token_ids", "stop_str",
    "presence_penalty", "frequency_penalty", "n", "best_of", "logit_bias", "repetition_penalty",
    "length_penalty"].map String.toList

/-- `SemanticFunctionParameter.__post_init__`.  An output without a sampling config gets the
default one. -/
def ParameterPayload.postInit (p : ParameterPayload) (isOutput : Bool) : Except PyError Unit := do
  match p.samplingConfig with
  | none => pure ()
  | some keys => if keys.all (samplingConfigFields.contains ·) then pure () else throw .typeError
  if isOutput then
    if p.varId.isSome then throw (.valueError "Output parameter should not have var_id.")
  else
    if p.samplingConfig.isSome then
      throw (.valueError "Input parameter should not have sampling_config.")
  if p.varId.isSome && p.value.isSome then
    throw (.valueError "Parameter should not have both var_id and value.")
  if !isOutput && p.varId.isNone && p.value.isNone then
    throw (.valueError "Input parameter should have either var_id or value.")

/-- `SemanticFunctionParameter(**parameter)`. -/
def ParameterPayload.construct (p : ParameterPayload) :
    Except PyError SemanticFunctionParameter :=
  match p.name, p.isOutput, p.otherKeys with
  | some name, some isOutput, [] => do
      p.postInit isOutput
      return { name, isOutput, varId := p.varId, value := p.value }
  | _, _, _ => .error .typeError

/-- `ParrotCoreUserError(e)`.  The text of a `TypeError` is the interpreter's. -/
def coreUserError : PyError → PyError
  | .valueError msg => .userError msg
  | _ => .userError "TypeError"

namespace ChunkedSemanticCallRequest

/-- The loop over the field `parameters`. -/
def parseParameters (req : ChunkedSemanticCallRequest) :
    List ParameterPayload → Except PyError ChunkedSemanticCallRequest
  | [] => .ok req
  | parameter :: parameters =>
      match parameter.construct with
      | .error e => .error (coreUserError e)
      | .ok parsed =>
          if parsed.name ∈ req.parametersMap.map Prod.fst then
            .error (.parrotAssert "Duplicate parameter name.")
          else parseParameters
            { req with parametersMap := req.parametersMap ++ [(parsed.name, parsed)] } parameters

end ChunkedSemanticCallRequest

/-! ## Placeholders -/

/-- `[a-zA-Z_]`. -/
def isNameStart (c : Char) : Bool := c.isAlpha || c == '_'

/-- `[a-zA-Z0-9_]`. -/
def isNameChar (c : Char) : Bool := c.isAlphanum || c == '_'

/-- The length of the match of `PLACEHOLDER_REGEX` at the beginning of a text. -/
def matchLength : Text → Option ℕ
  | '{' :: '{' :: c :: rest =>
      if isNameStart c then
        match rest.dropWhile isNameChar with
        | '}' :: '}' :: _ => some ((rest.takeWhile isNameChar).length + 5)
        | _ => none
      else none
  | _ => none

/-- `pattern.finditer(template)`: start and end of each match.  The scan is at a position of the
template, so many characters before the end of the last match, in front of the given text. -/
def finditer : ℕ → ℕ → Text → List (ℕ × ℕ)
  | _, _, [] => []
  | pos, skip + 1, _ :: rest => finditer (pos + 1) skip rest
  | pos, 0, c :: rest =>
      match matchLength (c :: rest) with
      | some n => (pos, pos + n) :: finditer (pos + 1) (n - 1) rest
      | none => finditer (pos + 1) 0 rest

/-- `text[start:stop]`. -/
def slice (text : Text) (start stop : ℕ) : Text := (text.take stop).drop start

/-! ## The body -/

/-- `chunk.pos_id += 1`. -/
def BodyChunk.incrPosId : BodyChunk → BodyChunk
  | .textChunk posId text => .textChunk (posId + 1) text
  | .placeholderChunk posId name => .placeholderChunk (posId + 1) name

namespace ChunkedSemanticCallRequest

variable (req : ChunkedSemanticCallRequest)

/-- `push_chunk`. -/
def pushChunk (chunkType : ℕ → Text → BodyChunk) (info : Text) : ChunkedSemanticCallRequest :=
  { req with body := req.body ++ [chunkType req.body.length info] }

/-- `push_chunk` of a text, if there is one. -/
def pushText (text : Text) : ChunkedSemanticCallRequest :=
  if text ≠ [] then req.pushChunk .textChunk text else req

/-- `split_prefix_chunk`. -/
def splitPrefixChunk (splitPos : ℤ) : Except PyError ChunkedSemanticCallRequest :=
  match req.body with
  | [] => .error .indexError
  | .placeholderChunk _ _ :: _ => .error (.parrotAssert "Invalid prefix chunk type.")
  | .textChunk posId prefixText :: following =>
      if 0 ≤ splitPos ∧ splitPos < prefixText.length then
        let prefixChunk := .textChunk posId (prefixText.take splitPos.toNat)
        let newPrefixChunk := .textChunk 1 (prefixText.drop splitPos.toNat)
        .ok { req with
          body := prefixChunk :: newPrefixChunk :: following.map BodyChunk.incrPosId }
      else .error (.parrotAssert "Invalid split position.")

/-- The loop over the matches, with `last_pos` at its end. -/
def parseMatches (template : Text) : ℕ → List (ℕ × ℕ) → ChunkedSemanticCallRequest →
    ChunkedSemanticCallRequest × ℕ
  | lastPos, [], req => (req, lastPos)
  | lastPos, (start, stop) :: found, req =>
      let req := req.pushText (slice template lastPos start)
      let req := req.pushChunk .placeholderChunk (slice template (start + 2) (stop - 2))
      parseMatches template stop found req

/-- The prompt body. -/
def parseBody (template : Text) : ChunkedSemanticCallRequest :=
  let (req, lastPos) := parseMatches template 0 (finditer 0 0 template) req
  if !req.metadata.removePureFill then req.pushText (template.drop lastPos) else req

end ChunkedSemanticCallRequest

/-- The metadata of a payload, over the defaults. -/
def SemanticCallPayload.metadata (payload : SemanticCallPayload) : SemanticCallMetadata :=
  let default : SemanticCallMetadata := {}
  { models := payload.models.getD default.models
    modelType := payload.modelType.getD default.modelType
    removePureFill := payload.removePureFill.getD default.removePureFill
    cachePrefix := payload.cachePrefix.getD default.cachePrefix
    outputCriteria := payload.outputCriteria
    fuseFill := payload.fuseFill.getD default.fuseFill }

/-- `parse_from_payload`, with the checks of `_preprocess`. -/
def ChunkedSemanticCallRequest.parseFromPayload (requestId sessionId : ℕ)
    (payload : SemanticCallPayload) : Except PyError ChunkedSemanticCallRequest :=
  match payload.template, payload.parameters with
  | none, _ => .error (.parrotAssert "Missing field 'template' in request.")
  | _, none => .error (.parrotAssert "Missing field 'parameters' in request.")
  | some template, some parameters =>
      let req : ChunkedSemanticCallRequest := { requestId, sessionId, metadata := payload.metadata }
      match req.parseParameters parameters with
      | .error e => .error e
      | .ok req => .ok (req.parseBody template)

end ParrotServe
