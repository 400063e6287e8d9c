import ParrotServe.Framework.Dict
import ParrotServe.Model.ContextManager
import ParrotServe.Model.RequestChain

/-!
# Semantic Variables and their namespaces

`SemanticVariable` (`parrot/serve/graph/semantic_variable.py`, its identity and its text) and
`SemanticVariableManager` with its `SemanticVariableNamespace`s
(`parrot/serve/variable_manager.py`).

Variables are objects: nodes keep them when the namespace has forgotten their id, and the same id
is given to a new object when a constant prefix that expired is requested again.  An id is a hash
of the content or of a seed under the UUID of the namespace: `uuid.uuid3` is a parameter, and
`uuid.uuid4` gives every namespace another number.

Requests are submitted over HTTP, where an exception is answered and what was done before it
stays, so the operations return the manager next to their result.  The clock is an argument: one
reading for each call.
-/

namespace ParrotServe

/-- `NONE_SEED`. -/
def noneSeed : ℕ := 1

/-- The name of every variable that is created by its content. -/
def constantName : Text := ['c', 'o', 'n', 's', 't', 'a', 'n', 't']

/-- A `SemanticVariable`: its identity and its text. -/
structure SemanticVariable where
  name : Text
  id : VarId
  isConstantPrefix : Bool
  seed : ℕ
  content : Option Text := none
  deriving DecidableEq

/-- `has_placeholder`. -/
def NodeKind.hasPlaceholder : NodeKind → Bool
  | .constantFill _ => false
  | _ => true

/-- `NativeFunctionParameter`: the fields and properties of a semantic one. -/
abbrev NativeFunctionParameter := SemanticFunctionParameter

/-- A `SemanticVariableNamespace`. -/
structure SemanticVariableNamespace where
  vars : Dict VarId SvRef := .empty
  seedPool : RecyclePool := { poolName := "SemanticVariable" }
  namespaceUuid : ℕ

namespace SemanticVariableNamespace

variable (ns : SemanticVariableNamespace)

/-- `get_var_by_id`, for an id that comes from outside. -/
def getVarById (varId : Text) : Option SvRef :=
  if h : '{' ∉ varId ∧ '}' ∉ varId then ns.vars.get? ⟨varId, h⟩ else none

/-- `free_var`. -/
def freeVar (sv : SemanticVariable) : Except PyError Unit × SemanticVariableNamespace :=
  if sv.id ∉ ns.vars.keys then (.error (.parrotAssert "SV ID does not exist."), ns)
  else if sv.seed = noneSeed then (.ok (), { ns with vars := ns.vars.erase sv.id })
  else
    match ns.seedPool.free sv.seed with
    | (.error e, pool) => (.error e, { ns with seedPool := pool })
    | (.ok (), pool) => (.ok (), { ns with seedPool := pool, vars := ns.vars.erase sv.id })

end SemanticVariableNamespace

/-- A `SemanticVariableManager`, with the variable objects. -/
structure SemanticVariableManager where
  obj : SvRef → SemanticVariable
  next : SvRef
  constantPrefixNamespace : SemanticVariableNamespace
  /-- Session id to namespace. -/
  sessionNamespaces : Dict ℕ SemanticVariableNamespace
  /-- Variable id to the last access, in nanoseconds. -/
  constantPrefixLastAccessTime : Dict VarId ℕ
  /-- In seconds. -/
  constantPrefixVarTimeout : ℕ
  /-- What `uuid.uuid4` returns next. -/
  nextUuid : ℕ

namespace SemanticVariableManager

lemma nil_without_brackets : '{' ∉ ([] : Text) ∧ '}' ∉ ([] : Text) := by simp

/-- A variable with a name without letters, for references nothing was created for. -/
def noVar : SemanticVariable where
  name := []
  id := ⟨[], nil_without_brackets⟩
  isConstantPrefix := false
  seed := noneSeed

/-- `SemanticVariableManager(constant_prefix_var_timeout)`. -/
def new (timeout : ℕ) : SemanticVariableManager where
  obj _ := noVar
  next := 0
  constantPrefixNamespace := { namespaceUuid := 0 }
  sessionNamespaces := .empty
  constantPrefixLastAccessTime := .empty
  constantPrefixVarTimeout := timeout
  nextUuid := 1

variable (uuid3 : ℕ → Text → VarId) (m : SemanticVariableManager)

/-! ## Variables -/

/-- A new `SemanticVariable` object. -/
def newVar (sv : SemanticVariable) : SvRef × SemanticVariableManager :=
  (m.next, { m with obj := Function.update m.obj m.next sv, next := m.next + 1 })

/-- `sv.set(content)`. -/
def setContent (r : SvRef) (content : Text) : Except PyError Unit × SemanticVariableManager :=
  match (m.obj r).content with
  | some _ => (.error (.assertionError ("This semantic variable (id=" ++
      String.ofList (m.obj r).id.val ++ ") is filled")), m)
  | none => (.ok (), { m with
      obj := Function.update m.obj r { m.obj r with content := some content } })

/-- `new_var_by_content`: the variable, the namespace and the objects. -/
def newVarByContent (ns : SemanticVariableNamespace) (content : Text) (isConstantPrefix : Bool) :
    SvRef × SemanticVariableNamespace × SemanticVariableManager :=
  let varId := uuid3 ns.namespaceUuid content
  match ns.vars.get? varId with
  | some r => (r, ns, m)
  | none =>
      let (r, m) := m.newVar {
        name := constantName
        id := varId
        isConstantPrefix
        seed := noneSeed
        content := some content }
      (r, { ns with vars := ns.vars.set varId r }, m)

/-- `new_var_by_name`: the seed stays allocated when the id exists. -/
def newVarByName (ns : SemanticVariableNamespace) (name : Text) (isConstantPrefix : Bool) :
    Except PyError SvRef × SemanticVariableNamespace × SemanticVariableManager :=
  match ns.seedPool.allocate with
  | (.error e, pool) => (.error e, { ns with seedPool := pool }, m)
  | (.ok seed, pool) =>
      let ns := { ns with seedPool := pool }
      let varId := uuid3 ns.namespaceUuid (Nat.toDigits 10 seed)
      if varId ∈ ns.vars.keys then (.error (.parrotAssert "SV ID already exists."), ns, m)
      else
        let (r, m) := m.newVar { name, id := varId, isConstantPrefix, seed }
        (.ok r, { ns with vars := ns.vars.set varId r }, m)

/-! ## Namespaces -/

/-- `register_local_var_space`. -/
def registerLocalVarSpace (sessionId : ℕ) : Except PyError Unit × SemanticVariableManager :=
  if sessionId ∈ m.sessionNamespaces.keys then
    (.error (.parrotAssert "Session ID already exists."), m)
  else (.ok (), { m with
    sessionNamespaces := m.sessionNamespaces.set sessionId { namespaceUuid := m.nextUuid }
    nextUuid := m.nextUuid + 1 })

/-- `free_local_var_space`. -/
def freeLocalVarSpace (sessionId : ℕ) : Except PyError Unit × SemanticVariableManager :=
  if sessionId ∈ m.sessionNamespaces.keys then
    (.ok (), { m with sessionNamespaces := m.sessionNamespaces.erase sessionId })
  else (.error (.parrotAssert "Session ID does not exist."), m)

/-- `_get_constant_prefix_var`. -/
def getConstantPrefixVar (now : ℕ) (content : Text) : SvRef × SemanticVariableManager :=
  let (r, ns, m) := m.newVarByContent uuid3 m.constantPrefixNamespace content true
  (r, { m with
    constantPrefixNamespace := ns
    constantPrefixLastAccessTime := m.constantPrefixLastAccessTime.set (m.obj r).id now })

/-- `_get_local_var_by_content`. -/
def getLocalVarByContent (sessionId : ℕ) (content : Text) :
    Except PyError SvRef × SemanticVariableManager :=
  match m.sessionNamespaces.get? sessionId with
  | none => (.error (.keyError (toString sessionId)), m)
  | some ns =>
      let (r, ns, m) := m.newVarByContent uuid3 ns content false
      (.ok r, { m with sessionNamespaces := m.sessionNamespaces.set sessionId ns })

/-- `_create_local_var_by_name`. -/
def createLocalVarByName (sessionId : ℕ) (varName : Text) :
    Except PyError SvRef × SemanticVariableManager :=
  match m.sessionNamespaces.get? sessionId with
  | none => (.error (.keyError (toString sessionId)), m)
  | some ns =>
      let (result, ns, m) := m.newVarByName uuid3 ns varName false
      (result, { m with sessionNamespaces := m.sessionNamespaces.set sessionId ns })

/-- `_get_local_var_by_id`. -/
def getLocalVarById (sessionId : ℕ) (varId : Text) : Except PyError SvRef :=
  match m.sessionNamespaces.get? sessionId with
  | none => .error (.keyError (toString sessionId))
  | some ns =>
      match ns.getVarById varId with
      | none => .error (.parrotAssert "Local variable does not exist.")
      | some r => .ok r

/-- `create_var`. -/
def createVar (sessionId : ℕ) (varName : Text) : Except PyError SvRef × SemanticVariableManager :=
  if sessionId ∈ m.sessionNamespaces.keys then m.createLocalVarByName uuid3 sessionId varName
  else (.error (.parrotAssert ("Local namespace of " ++ toString sessionId ++
    " does not exist.")), m)

/-! ## The variables of a request -/

/-- The body of the loop of `create_vars_for_semantic_request_chain`: the variable of a node. -/
def createVarForNode (sessionId now : ℕ) (constantPrefixFlag : Bool) :
    NodeKind → Except PyError SvRef × SemanticVariableManager
  | .constantFill text =>
      if constantPrefixFlag then
        let (r, m) := m.getConstantPrefixVar uuid3 now text
        (.ok r, m)
      else m.getLocalVarByContent uuid3 sessionId text
  | .placeholderFill param =>
      if param.shouldCreate then
        match m.createLocalVarByName uuid3 sessionId param.name with
        | (.error e, m) => (.error e, m)
        | (.ok r, m) =>
            match param.value with
            | none => (.error (.parrotAssert
                "No initial value when creating SV for PlaceholderFill."), m)
            | some value =>
                match m.setContent r value with
                | (.error e, m) => (.error e, m)
                | (.ok (), m) => (.ok r, m)
      else (m.getLocalVarById sessionId (param.varId.getD []), m)
  | .placeholderGen param => m.createLocalVarByName uuid3 sessionId param.name

/-- The loop of `create_vars_for_semantic_request_chain`: the variables of the nodes. -/
def createVarsLoop (sessionId now : ℕ) : Bool → List NodeKind → List SvRef →
    SemanticVariableManager → Except PyError (List SvRef) × SemanticVariableManager
  | _, [], rs, m => (.ok rs, m)
  | flag, kind :: kinds, rs, m =>
      let flag := if kind.hasPlaceholder then false else flag
      match m.createVarForNode uuid3 sessionId now flag kind with
      | (.error e, m) => (.error e, m)
      | (.ok r, m) => createVarsLoop sessionId now flag kinds (rs ++ [r]) m

/-- `create_vars_for_semantic_request_chain`. -/
def createVarsForSemanticRequestChain (sessionId now : ℕ) (cachePrefix : Bool)
    (kinds : List NodeKind) : Except PyError (List SvRef) × SemanticVariableManager :=
  createVarsLoop uuid3 sessionId now cachePrefix kinds [] m

/-- A parameter of `create_vars_for_pynative_func`: its variable. -/
def createVarForParam (sessionId : ℕ) (key : Text) (param : NativeFunctionParameter) :
    Except PyError SvRef × SemanticVariableManager :=
  if param.shouldCreate then
    match m.createLocalVarByName uuid3 sessionId key with
    | (.error e, m) => (.error e, m)
    | (.ok r, m) =>
        match param.value with
        | none => (.ok r, m)
        | some value =>
            match m.setContent r value with
            | (.error e, m) => (.error e, m)
            | (.ok (), m) => (.ok r, m)
  else (m.getLocalVarById sessionId (param.varId.getD []), m)

/-- `create_vars_for_pynative_func`: the input variables and the output variables. -/
def createVarsForPynativeFunc (sessionId : ℕ) : List (Text × NativeFunctionParameter) →
    List (Text × SvRef) → List (Text × SvRef) → SemanticVariableManager →
      Except PyError (List (Text × SvRef) × List (Text × SvRef)) × SemanticVariableManager
  | [], inputVars, outputVars, m => (.ok (inputVars, outputVars), m)
  | (key, param) :: params, inputVars, outputVars, m =>
      match m.createVarForParam uuid3 sessionId key param with
      | (.error e, m) => (.error e, m)
      | (.ok r, m) =>
          if param.isOutput then
            createVarsForPynativeFunc sessionId params inputVars (outputVars ++ [(key, r)]) m
          else createVarsForPynativeFunc sessionId params (inputVars ++ [(key, r)]) outputVars m

/-! ## Expiry -/

/-- `cur_time - last_access_time > constant_prefix_var_timeout * 1_000_000_000`. -/
def expired (curTime lastAccessTime : ℕ) : Bool :=
  decide (lastAccessTime + m.constantPrefixVarTimeout * 1000000000 < curTime)

/-- The loop of `free_expired_constant_prefix_vars`, over a copy of the access times. -/
def freeExpired (curTime : ℕ) : List (VarId × ℕ) → List SvRef → SemanticVariableManager →
    Except PyError (List SvRef) × SemanticVariableManager
  | [], ret, m => (.ok ret, m)
  | (varId, lastAccessTime) :: items, ret, m =>
      if m.expired curTime lastAccessTime then
        match m.constantPrefixNamespace.vars.get? varId with
        | none => (.error (.parrotAssert "Constant prefix variable does not exist."), m)
        | some r =>
            match m.constantPrefixNamespace.freeVar (m.obj r) with
            | (.error e, ns) => (.error e, { m with constantPrefixNamespace := ns })
            | (.ok (), ns) =>
                if varId ∈ m.constantPrefixLastAccessTime.keys then
                  freeExpired curTime items (ret ++ [r]) { m with
                    constantPrefixNamespace := ns
                    constantPrefixLastAccessTime := m.constantPrefixLastAccessTime.erase varId }
                else (.error (.keyError (String.ofList varId.val)),
                  { m with constantPrefixNamespace := ns })
      else freeExpired curTime items ret m

/-- `free_expired_constant_prefix_vars`. -/
def freeExpiredConstantPrefixVars (curTime : ℕ) :
    Except PyError (List SvRef) × SemanticVariableManager :=
  freeExpired curTime m.constantPrefixLastAccessTime.entries [] m

end SemanticVariableManager

end ParrotServe
