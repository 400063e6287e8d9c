import ParrotServe.Framework.TransitionSystem
import ParrotServe.Model.ConstantPrefixes
import ParrotServe.Model.RequestParser

/-!
# Semantic requests in a session

`Session._add_semantic_request` (`parrot/serve/session/session.py`) up to the executor: the
payload is parsed, the body becomes a chain of nodes, and each node gets its variable.  What a
completion task then takes to the context manager is `completionNodes`: the nodes that the
iterator of its completion chain finds.

`variableSystem` is everything that happens to the variables of a server: sessions come and go,
requests and native calls create variables, whoever produces a text sets it, and constant
prefixes expire.
-/

namespace ParrotServe

/-! ## The variables of a server -/

/-- What can happen to the variables. -/
inductive VariableAction
  | registerLocalVarSpace (sessionId : ℕ)
  | freeLocalVarSpace (sessionId : ℕ)
  | createVar (sessionId : ℕ) (varName : Text)
  | createVarsForSemanticRequestChain (sessionId now : ℕ) (cachePrefix : Bool)
      (kinds : List NodeKind)
  | createVarsForPynativeFunc (sessionId : ℕ) (params : List (Text × NativeFunctionParameter))
  /-- `sv.set(content)`, by an executor or by a client. -/
  | set (r : SvRef) (content : Text)
  | freeExpiredConstantPrefixVars (curTime : ℕ)

namespace SemanticVariableManager

variable (uuid3 : ℕ → Text → VarId) (m : SemanticVariableManager)

/-- Only variables that were created are set. -/
def Enabled : VariableAction → Prop
  | .set r _ => r < m.next
  | _ => True

instance : ∀ a, Decidable (m.Enabled a)
  | .set r _ => inferInstanceAs (Decidable (r < m.next))
  | .registerLocalVarSpace _ | .freeLocalVarSpace _ | .createVar _ _
  | .createVarsForSemanticRequestChain .. | .createVarsForPynativeFunc _ _
  | .freeExpiredConstantPrefixVars _ => inferInstanceAs (Decidable True)

/-- The effect of an action.  An exception is somebody else's; what was done before it stays. -/
def apply : VariableAction → SemanticVariableManager
  | .registerLocalVarSpace sessionId => (m.registerLocalVarSpace sessionId).2
  | .freeLocalVarSpace sessionId => (m.freeLocalVarSpace sessionId).2
  | .createVar sessionId varName => (m.createVar uuid3 sessionId varName).2
  | .createVarsForSemanticRequestChain sessionId now cachePrefix kinds =>
      (m.createVarsForSemanticRequestChain uuid3 sessionId now cachePrefix kinds).2
  | .createVarsForPynativeFunc sessionId params =>
      (createVarsForPynativeFunc uuid3 sessionId params [] [] m).2
  | .set r content => (m.setContent r content).2
  | .freeExpiredConstantPrefixVars curTime => (m.freeExpiredConstantPrefixVars curTime).2

/-- Every order of these actions. -/
def variableSystem (timeout : ℕ) : TransitionSystem SemanticVariableManager VariableAction :=
  .ofFun (new timeout) Enabled fun m a => m.apply uuid3 a

end SemanticVariableManager

/-! ## Adding a request -/

/-- `node.set_sv(sv)` for each node. -/
def GraphObjects.setSvs (g : GraphObjects) (nodes : List (NodeRef × SvRef)) : GraphObjects :=
  nodes.foldl (fun g n => g.setNode n.1 { g.node n.1 with sv := some n.2 }) g

/-- A request in front of the executor. -/
structure SemanticRequest where
  chunkedRequest : ChunkedSemanticCallRequest
  requestChain : RequestChain
  graph : GraphObjects

/-- `create_vars_for_semantic_request_chain`, with the nodes. -/
def createVarsForRequestChain (uuid3 : ℕ → Text → VarId) (sessionId now : ℕ) (rc : RequestChain)
    (g : GraphObjects) (m : SemanticVariableManager) :
    Except PyError (Option GraphObjects) × SemanticVariableManager :=
  match g.requestIter rc with
  | .error e => (.error e, m)
  | .ok none => (.ok none, m)
  | .ok (some nodes) =>
      match m.createVarsForSemanticRequestChain uuid3 sessionId now rc.metadata.cachePrefix
        (nodes.map fun n => (g.node n).kind) with
      | (.error e, m) => (.error e, m)
      | (.ok rs, m) => (.ok (some (g.setSvs (nodes.zip rs))), m)

/-- `_add_semantic_request` up to `self.executor.add_request`. -/
def addSemanticRequest (uuid3 : ℕ → Text → VarId) (sessionId requestId now : ℕ)
    (payload : SemanticCallPayload) (g : GraphObjects) (m : SemanticVariableManager) :
    Except PyError (Option SemanticRequest) × SemanticVariableManager :=
  match ChunkedSemanticCallRequest.parseFromPayload requestId sessionId payload with
  | .error e => (.error e, m)
  | .ok chunkedRequest =>
      match g.fromChunkedRequest chunkedRequest with
      | .error e => (.error e, m)
      | .ok none => (.ok none, m)
      | .ok (some (requestChain, g)) =>
          match createVarsForRequestChain uuid3 sessionId now requestChain g m with
          | (.error e, m) => (.error e, m)
          | (.ok none, m) => (.ok none, m)
          | (.ok (some graph), m) => (.ok (some { chunkedRequest, requestChain, graph }), m)

namespace SemanticRequest

variable (req : SemanticRequest) (m : SemanticVariableManager)

/-- What `set_task_contexts` reads of a node. -/
def chainNode (n : NodeRef) : Except PyError ChainNode :=
  match (req.graph.node n).sv with
  | none => .error (.parrotAssert "SVs are not created yet.")
  | some r => .ok (ConstantPrefixSystem.chainNode m (req.graph.node n).kind r)

/-- The nodes of a completion chain when its task is executed. -/
def completionNodes (c : ChainRef) : Except PyError (Option (List ChainNode)) :=
  match req.graph.iter c with
  | .error e => .error e
  | .ok none => .ok none
  | .ok (some nodes) =>
      match nodes.mapM (req.chainNode m) with
      | .error e => .error e
      | .ok chain => .ok (some chain)

end SemanticRequest

end ParrotServe
