import ParrotServe.Model.FrontendFunctions

/-!
# Transforms of semantic functions

`parrot/frontend/pfunc/transforms`: the mutators of semantic functions (`func_mutator.py`), the
formatters that replace white space in the constants of a prompt (`prompt_formatter.py`,
`sequential.py`), and the templates that turn a prompt into a conversation
(`conversation_template.py`).

A mutator is given by the three methods that it overrides.  `asdict` of the metadata and the
constructor give the metadata back.

Of `str.format`, the plain field of the system message, the text around it and the doubled braces
are modelled; what any other markup renders to is the parameter `otherMarkup`.
-/

namespace ParrotServe

namespace PFunc

/-! ## Mutators -/

/-- A `FuncMutator`: its overridden methods. -/
structure FuncMutator where
  visitFunc : SemanticFunction → Except PyError SemanticFunction
  visitConstant : ℕ → Text → FuncBodyPiece
  visitParameter : Parameter → Parameter

namespace FuncMutator

variable (m : FuncMutator)

/-- `_param_remap`. -/
def paramRemap (params : List Parameter) : Dict Text Parameter :=
  params.foldl (fun d param => d.set param.name (m.visitParameter param)) Dict.empty

/-- `_visit_param_loc`. -/
def visitParamLoc (remap : Dict Text Parameter) (idx : ℕ) (param : Parameter) :
    Except PyError FuncBodyPiece :=
  match remap.get? param.name with
  | none => .error (.keyError (String.ofList param.name))
  | some param => .ok (.parameterLoc idx param)

/-- `_visit_body_piece`. -/
def visitBodyPiece (remap : Dict Text Parameter) : FuncBodyPiece → Except PyError FuncBodyPiece
  | .constant idx text => .ok (m.visitConstant idx text)
  | .parameterLoc idx param => visitParamLoc remap idx param

/-- The loop of `transform` over the body. -/
def visitBody (remap : Dict Text Parameter) :
    List FuncBodyPiece → List FuncBodyPiece → Except PyError (List FuncBodyPiece)
  | [], newBody => .ok newBody
  | piece :: body, newBody =>
      match m.visitBodyPiece remap piece with
      | .error e => .error e
      | .ok piece => visitBody remap body (newBody ++ [piece])

/-- `transform`. -/
def transform (func : SemanticFunction) : Except PyError SemanticFunction :=
  match m.visitBody (m.paramRemap func.params) func.body [] with
  | .error e => .error e
  | .ok body => m.visitFunc { func with params := func.params.map m.visitParameter, body }

end FuncMutator

/-- `Sequential.transform`. -/
def sequential : List FuncMutator → SemanticFunction → Except PyError SemanticFunction
  | [], func => .ok func
  | transform :: transforms, func =>
      match transform.transform func with
      | .error e => .error e
      | .ok func => sequential transforms func

/-! ## Formatters -/

/-- The replacements of a `PromptFormatter`, one after another.  No formatter replaces the empty
text. -/
def formatText (replacePairs : List (Text × Text)) (text : Text) : Text :=
  replacePairs.foldl (fun text pair => Tokens.replace pair.1 pair.2 text) text

/-- `PromptFormatter`. -/
def promptFormatter (replacePairs : List (Text × Text)) : FuncMutator where
  visitFunc := .ok
  visitConstant idx text := .constant idx (formatText replacePairs text)
  visitParameter param := param

/-- The pairs of `PyIndentRemover`: a tab, or four spaces. -/
def pyIndents : List (Text × Text) := [(['\t'], []), ([' ', ' ', ' ', ' '], [])]

/-- `PyIndentRemover`. -/
def pyIndentRemover : FuncMutator := promptFormatter pyIndents

/-- `SquashIntoOneLine`. -/
def squashIntoOneLine : FuncMutator := promptFormatter [(['\n'], [' '])]

/-- `range(16, 1, -1)`. -/
def spaceCounts : List ℕ := [16, 15, 14, 13, 12, 11, 10, 9, 8, 7, 6, 5, 4, 3, 2]

/-- `AlwaysOneSpace`. -/
def alwaysOneSpace : FuncMutator :=
  promptFormatter (spaceCounts.map fun i => (List.replicate i ' ', [' ']))

/-- `standard_formatter`. -/
def standardFormatter : SemanticFunction → Except PyError SemanticFunction :=
  sequential [pyIndentRemover, squashIntoOneLine, alwaysOneSpace]

/-! ## The format of the system message -/

/-- `system_message}`, the rest of the field of the system message. -/
def systemField : Text := "system_message\x7d".toList

/-- `text.format(system_message=...)`, so many characters before the end of the last field.  What
follows an opening brace of any other markup is left to `otherMarkup`. -/
def formatFrom (otherMarkup : Text → Except PyError Text) (systemMessage : Text) :
    ℕ → Text → Except PyError Text
  | _, [] => .ok []
  | skip + 1, _ :: text => formatFrom otherMarkup systemMessage skip text
  | 0, c :: text =>
      if c = '{' ∧ systemField <+: text then
        (formatFrom otherMarkup systemMessage systemField.length text).map (systemMessage ++ ·)
      else if (c = '{' ∨ c = '}') ∧ text.head? = some c then
        (formatFrom otherMarkup systemMessage 1 text).map (c :: ·)
      else if c = '}' then
        .error (.valueError "Single '\x7d' encountered in format string")
      else if c = '{' ∧ text = [] then
        .error (.valueError "Single '\x7b' encountered in format string")
      else if c = '{' then otherMarkup text
      else (formatFrom otherMarkup systemMessage 0 text).map (c :: ·)

/-! ## Conversations -/

/-- `SeparatorStyle`. -/
inductive SeparatorStyle
  | addColonSingle
  | addColonTwo
  deriving DecidableEq, Repr

/-- A piece, with another index. -/
def FuncBodyPiece.withIdx (piece : FuncBodyPiece) (idx : ℕ) : FuncBodyPiece :=
  match piece with
  | .constant _ text => .constant idx text
  | .parameterLoc _ param => .parameterLoc idx param

/-- `ConversationTemplate`. -/
structure ConversationTemplate where
  systemMessage : Text
  roles : List Text
  systemTemplate : Text := '{' :: systemField
  seperatorStyle : SeparatorStyle := .addColonSingle
  sep : Text := ['\n']
  sep2 : Text := ['\n']

namespace ConversationTemplate

variable (self : ConversationTemplate)

/-- `f"{prefix}{self.roles[i]}: "`, pushed to the body. -/
def pushRole (sep : Text) (i : ℕ) (newBody : List FuncBodyPiece) :
    Except PyError (List FuncBodyPiece) :=
  match self.roles[i]? with
  | none => .error .indexError
  | some role => .ok (pushToBody (.constant · (sep ++ role ++ [':', ' '])) newBody)

/-- The separator of the style. -/
def separator : Text :=
  match self.seperatorStyle with
  | .addColonSingle => self.sep
  | .addColonTwo => self.sep2

/-- The user message at the start of a round. -/
def pushUser (conversationRoundStartFlag : Bool) (newBody : List FuncBodyPiece) :
    Except PyError (List FuncBodyPiece) :=
  if conversationRoundStartFlag then self.pushRole [] 0 newBody else .ok newBody

/-- The assistant message before an output location. -/
def pushAssistant (isOutputLoc : Bool) (newBody : List FuncBodyPiece) :
    Except PyError (List FuncBodyPiece) :=
  if isOutputLoc then self.pushRole self.sep 1 newBody else .ok newBody

/-- The separator after an output location. -/
def pushSeparator (isOutputLoc : Bool) (newBody : List FuncBodyPiece) : List FuncBodyPiece :=
  if isOutputLoc then pushToBody (.constant · self.separator) newBody else newBody

/-- The loop of `_visit_func`.  A piece starts a round when the flag is set, and only an output
location sets it again. -/
def visitPieces : List FuncBodyPiece → Bool → List FuncBodyPiece →
    Except PyError (List FuncBodyPiece)
  | [], _, newBody => .ok newBody
  | piece :: body, conversationRoundStartFlag, newBody =>
      match self.pushUser conversationRoundStartFlag newBody with
      | .error e => .error e
      | .ok newBody =>
          match self.pushAssistant piece.isOutputLoc newBody with
          | .error e => .error e
          | .ok newBody => visitPieces body piece.isOutputLoc
              (self.pushSeparator piece.isOutputLoc (pushToBody piece.withIdx newBody))

/-- `self.system_template.format(system_message=self.system_message)`. -/
def systemText (otherMarkup : Text → Except PyError Text) : Except PyError Text :=
  formatFrom otherMarkup self.systemMessage 0 self.systemTemplate

/-- `_visit_func`. -/
def visitFunc (otherMarkup : Text → Except PyError Text) (func : SemanticFunction) :
    Except PyError SemanticFunction :=
  match self.systemText otherMarkup with
  | .error e => .error e
  | .ok text =>
      match self.visitPieces func.body true (pushToBody (.constant · (text ++ self.sep)) []) with
      | .error e => .error e
      | .ok body => .ok { func with body }

/-- The mutator of a `ConversationTemplate`. -/
def mutator (otherMarkup : Text → Except PyError Text) : FuncMutator where
  visitFunc := self.visitFunc otherMarkup
  visitConstant := .constant
  visitParameter param := param

end ConversationTemplate

/-- `vicuna_template`. -/
def vicunaTemplate : ConversationTemplate where
  systemMessage := ("A chat between a curious user and an artificial intelligence assistant. " ++
    "The assistant gives helpful, detailed, and polite answers to the user's questions.").toList
  roles := ["USER".toList, "ASSISTANT".toList]
  seperatorStyle := .addColonTwo
  sep := [' ']
  sep2 := "</s>".toList

end PFunc

end ParrotServe
