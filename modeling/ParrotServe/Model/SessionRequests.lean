import ParrotServe.Framework.TransitionSystem
import ParrotServe.Model.GraphTraverse
import ParrotServe.Model.SemanticRequests

/-!
# Requests of sessions

`Session.add_request` (`parrot/serve/session/session.py`) with everything it reaches: the request
gets its variables, its nodes enter the `ComputeGraph` of the session (`graph.py`, `node.py`), the
execution coroutines are started, and `_traverse` (`graph_traverse.py`) activates the outputs if a
criteria is given.

Nodes, chains and variables are objects that all sessions make, and their edges are fields of
these objects; a graph only has a set of nodes, a list of chains and a pool of ids.  A native node
takes its reference from the same counter as the semantic nodes, so references are the order in
which nodes were constructed.

The handlers answer an exception, and what was done before it stays: every operation returns the
heap next to its result.  `ok none` is a loop or a recursion that did not end.
-/

namespace ParrotServe

/-! ## The objects -/

/-- A `NativeFuncNode`: its variables, by the names of the parameters. -/
structure NativeFuncNode where
  inputVars : List (Text × SvRef)
  outputVars : List (Text × SvRef)
  deriving DecidableEq

/-- The fields of a `ComputeGraph`. -/
structure NodeGraph where
  nodes : List NodeRef := []
  chains : List ChainRef := []
  nodeIdPool : RecyclePool := { poolName := "Node Pool" }
  deriving DecidableEq

/-- What an execution coroutine is for. -/
inductive ExecutionCoroutine
  | completionChain (c : ChainRef)
  | nativeFunc (n : NodeRef)
  deriving DecidableEq

/-- A `Session` with the graph and the coroutines of its executors. -/
structure RequestSession where
  graph : NodeGraph := {}
  coroutines : List ExecutionCoroutine := []
  requestIdCounter : ℕ := 0
  /-- The ids that requests and registrations have returned, which no code of the server reads. -/
  returned : List VarId := []

/-- An entry of the param info. -/
structure ParamInfo where
  parameterName : Text
  isOutput : Bool
  varName : Text
  varId : VarId
  deriving DecidableEq

/-- A `PyNativeCallRequest`. -/
structure PyNativeCallRequest where
  parametersMap : List (Text × NativeFunctionParameter)
  outputCriteria : Option Text := none
  deriving DecidableEq

/-- The objects of all requests, and the sessions. -/
structure RequestHeap where
  vars : SemanticVariableManager
  objs : GraphObjects
  native : NodeRef → Option NativeFuncNode
  /-- `node._id_in_graph`. -/
  idInGraph : NodeRef → Option ℕ
  /-- `var._producer`. -/
  producer : SvRef → Option NodeRef
  /-- `var._consumers`. -/
  consumers : SvRef → List NodeRef
  /-- `var._criteria` and `var._depth`, once it is activated. -/
  activation : SvRef → Option (PerformanceCriteria × ℕ)
  nextGroup : GroupRef
  /-- `chain_group.chains`. -/
  groupChains : GroupRef → List ChainRef
  /-- `chain.chain_groups`. -/
  chainGroups : ChainRef → List GroupRef
  sessions : ℕ → RequestSession

namespace RequestHeap

/-- No requests, and no sessions. -/
def start (timeout : ℕ) : RequestHeap where
  vars := .new timeout
  objs := .empty
  native _ := none
  idInGraph _ := none
  producer _ := none
  consumers _ := []
  activation _ := none
  nextGroup := 0
  groupChains _ := []
  chainGroups _ := []
  sessions _ := {}

variable (s : RequestHeap)

/-- Overwrite a session. -/
def setSession (sessionId : ℕ) (session : RequestSession) : RequestHeap :=
  { s with sessions := Function.update s.sessions sessionId session }

/-- Overwrite the graph of a session. -/
def setGraph (sessionId : ℕ) (graph : NodeGraph) : RequestHeap :=
  s.setSession sessionId { s.sessions sessionId with graph }

/-- `create_task_in_loop`. -/
def startCoroutines (sessionId : ℕ) (coroutines : List ExecutionCoroutine) : RequestHeap :=
  let session := s.sessions sessionId
  s.setSession sessionId { session with coroutines := session.coroutines ++ coroutines }

/-- `node.sv`. -/
def nodeSv (n : NodeRef) : Except PyError SvRef :=
  match (s.objs.node n).sv with
  | none => .error (.parrotAssert "This node has no SV.")
  | some var => .ok var

/-- `assign_producer`. -/
def assignProducer (var : SvRef) (producer : NodeRef) : Except PyError Unit × RequestHeap :=
  match s.producer var with
  | some _ => (.error (.parrotAssert "This SV already has a producer"), s)
  | none => (.ok (), { s with producer := Function.update s.producer var (some producer) })

/-- `add_consumer`. -/
def addConsumer (var : SvRef) (consumer : NodeRef) : RequestHeap :=
  { s with consumers := Function.update s.consumers var (s.consumers var ++ [consumer]) }

/-! ## Inserting nodes -/

/-- `_insert_node`, before it links the edges. -/
def enterNode (sessionId : ℕ) (n : NodeRef) : Except PyError Unit × RequestHeap :=
  let graph := (s.sessions sessionId).graph
  let nodes := graph.nodes.insert n
  match graph.nodeIdPool.allocate with
  | (.error e, nodeIdPool) => (.error e, s.setGraph sessionId { graph with nodes, nodeIdPool })
  | (.ok id, nodeIdPool) => (.ok (), { s.setGraph sessionId { graph with nodes, nodeIdPool } with
      idInGraph := Function.update s.idInGraph n (some id) })

/-- `_insert_node` for a `SemanticNode`. -/
def insertSemanticNode (sessionId : ℕ) (n : NodeRef) : Except PyError Unit × RequestHeap :=
  match s.enterNode sessionId n with
  | (.error e, s) => (.error e, s)
  | (.ok (), s) =>
      match s.nodeSv n with
      | .error e => (.error e, s)
      | .ok var =>
          if (s.objs.node n).isGen then s.assignProducer var n
          else (.ok (), s.addConsumer var n)

/-- The loop over the output variables. -/
def assignProducers (producer : NodeRef) : List SvRef → RequestHeap →
    Except PyError Unit × RequestHeap
  | [], s => (.ok (), s)
  | var :: outputs, s =>
      match s.assignProducer var producer with
      | (.error e, s) => (.error e, s)
      | (.ok (), s) => assignProducers producer outputs s

/-- `_insert_node` for a `NativeFuncNode`. -/
def insertNativeNode (sessionId : ℕ) (n : NodeRef) (node : NativeFuncNode) :
    Except PyError Unit × RequestHeap :=
  match s.enterNode sessionId n with
  | (.error e, s) => (.error e, s)
  | (.ok (), s) =>
      let s := (node.inputVars.map Prod.snd).foldl (fun s var => s.addConsumer var n) s
      assignProducers n (node.outputVars.map Prod.snd) s

/-- The param info of a parameter and its variable. -/
def paramInfo (parameter : SemanticFunctionParameter) (var : SvRef) : ParamInfo where
  parameterName := parameter.name
  isOutput := parameter.isOutput
  varName := (s.vars.obj var).name
  varId := (s.vars.obj var).id

/-- The param info of a node, if it has a placeholder. -/
def nodeParamInfo (n : NodeRef) : List ParamInfo :=
  match (s.objs.node n).kind, (s.objs.node n).sv with
  | .placeholderFill parameter, some var | .placeholderGen parameter, some var =>
      [s.paramInfo parameter var]
  | _, _ => []

/-- The loop of `insert_and_update_request_chain`. -/
def insertNodes (sessionId : ℕ) : List NodeRef → List ParamInfo → RequestHeap →
    Except PyError (List ParamInfo) × RequestHeap
  | [], info, s => (.ok info, s)
  | n :: nodes, info, s =>
      match s.insertSemanticNode sessionId n with
      | (.error e, s) => (.error e, s)
      | (.ok (), s) => insertNodes sessionId nodes (info ++ s.nodeParamInfo n) s

/-- `insert_and_update_request_chain`.  Insertion does not touch the edges that are iterated. -/
def insertAndUpdateRequestChain (sessionId : ℕ) (rc : RequestChain) :
    Except PyError (Option (List ParamInfo)) × RequestHeap :=
  match s.nodeSv rc.firstNode with
  | .error e => (.error e, s)
  | .ok _ =>
      if (s.idInGraph rc.firstNode).isSome then
        (.error (.parrotAssert
          "Insert failed: RequestChain has been inserted into a graph."), s)
      else
        match s.objs.requestIter rc with
        | .error e => (.error e, s)
        | .ok none => (.ok none, s)
        | .ok (some nodes) =>
            match insertNodes sessionId nodes [] s with
            | (.error e, s) => (.error e, s)
            | (.ok info, s) =>
                let graph := (s.sessions sessionId).graph
                (.ok (some info),
                  s.setGraph sessionId { graph with chains := graph.chains ++ rc.compChains })

/-- `GraphExecutor.add_request`. -/
def executorAddRequest (sessionId : ℕ) (rc : RequestChain) :
    Except PyError (Option (List ParamInfo)) × RequestHeap :=
  match s.insertAndUpdateRequestChain sessionId rc with
  | (.error e, s) => (.error e, s)
  | (.ok none, s) => (.ok none, s)
  | (.ok (some info), s) =>
      (.ok (some info), s.startCoroutines sessionId (rc.compChains.map .completionChain))

/-- `insert_native_func_node`. -/
def insertNativeFuncNode (sessionId : ℕ) (n : NodeRef) (node : NativeFuncNode)
    (request : PyNativeCallRequest) : Except PyError (List ParamInfo) × RequestHeap :=
  match s.insertNativeNode sessionId n node with
  | (.error e, s) => (.error e, s)
  | (.ok (), s) =>
      let info := (request.parametersMap.filter fun (_, param) => !param.hasValue).mapM
        fun (key, param) =>
          match (if param.isOutput then node.outputVars else node.inputVars).lookup key with
          | none => Except.error (PyError.keyError (String.ofList key))
          | some var => .ok (s.paramInfo param var)
      (info, s)

/-- `PyNativeExecutor.add_native_func`. -/
def addNativeFunc (sessionId : ℕ) (n : NodeRef) (node : NativeFuncNode)
    (request : PyNativeCallRequest) : Except PyError (List ParamInfo) × RequestHeap :=
  match s.insertNativeFuncNode sessionId n node request with
  | (.error e, s) => (.error e, s)
  | (.ok info, s) => (.ok info, s.startCoroutines sessionId [.nativeFunc n])

/-! ## Traversing backward -/

/-- `producer.comp_chain`. -/
def compChain (n : NodeRef) : Except PyError ChainRef :=
  if (s.idInGraph n).isNone then
    .error (.parrotAssert "Should be inserted before get DAG info.")
  else
    match (s.objs.node n).completionChain with
    | none => .error (.parrotAssert "This node has no completion chain.")
    | some c => .ok c

/-- `chain_group.chains.add(chain)` and `chain.chain_groups.append(chain_group)`. -/
def joinGroup (c : ChainRef) : Option GroupRef → RequestHeap
  | none => s
  | some group =>
      { s with
        groupChains := Function.update s.groupChains group ((s.groupChains group).insert c)
        chainGroups := Function.update s.chainGroups c (s.chainGroups c ++ [group]) }

/-- `CompChainGroup()`. -/
def newGroup : RequestHeap := { s with nextGroup := s.nextGroup + 1 }

/-- `var.activate(criteria, depth)`, and the depth `_traverse` returns after it. -/
def activate (var : SvRef) (criteria : PerformanceCriteria) (depth : ℕ) :
    Except PyError (Option ℕ) × RequestHeap :=
  if (s.activation var).isSome then
    (.error (.parrotAssert "Semantic Variable has been activated."), s)
  else (.ok (some depth),
    { s with activation := Function.update s.activation var (some (criteria, depth)) })

/-- What a call of `_traverse` gives: the depth, `none` for a recursion that does not end. -/
abbrev Visit (α : Type) := α → RequestHeap → Except PyError (Option ℕ) × RequestHeap

/-- The loops of `_traverse`: `weight` is what one layer adds. -/
def visitAll {α : Type} (visit : Visit α) (weight : ℕ) : List α → ℕ → RequestHeap →
    Except PyError (Option ℕ) × RequestHeap
  | [], depth, s => (.ok (some depth), s)
  | a :: as, depth, s =>
      match visit a s with
      | (.error e, s) => (.error e, s)
      | (.ok none, s) => (.ok none, s)
      | (.ok (some prevDepth), s) => visitAll visit weight as (max depth (prevDepth + weight)) s

/-- Visit `node.sv`. -/
def visitNode (visit : Visit SvRef) : Visit NodeRef := fun n s =>
  match s.nodeSv n with
  | .error e => (.error e, s)
  | .ok var => visit var s

/-- The node in front of a chain, which has to be a Gen. -/
def visitPrev (visit : Visit SvRef) (first : NodeRef) (depth : ℕ) (s : RequestHeap) :
    Except PyError (Option ℕ) × RequestHeap :=
  match (s.objs.node first).edgeAPrevNode with
  | none => (.ok (some depth), s)
  | some prev =>
      if (s.objs.node prev).isGen then visitAll (visitNode visit) 1 [prev] depth s
      else (.error (.parrotAssert "The previous node is not a Gen node."), s)

/-- The variables that a completion chain depends on. -/
def visitChain (visit : Visit SvRef) : Visit ChainRef := fun c s =>
  match s.objs.iterFill c with
  | .error e => (.error e, s)
  | .ok none => (.ok none, s)
  | .ok (some nodes) =>
      match visitAll (visitNode visit) 1 nodes 0 s with
      | (.error e, s) => (.error e, s)
      | (.ok none, s) => (.ok none, s)
      | (.ok (some depth), s) =>
          match (s.objs.chain c).firstNode with
          | none => (.error .attributeError, s)
          | some first => visitPrev visit first depth s

/-- Activate the variable with the depth that was found. -/
def activateAt (var : SvRef) (criteria : PerformanceCriteria) :
    Except PyError (Option ℕ) × RequestHeap → Except PyError (Option ℕ) × RequestHeap
  | (.error e, s) => (.error e, s)
  | (.ok none, s) => (.ok none, s)
  | (.ok (some depth), s) => s.activate var criteria depth

/-- `_traverse`, given up at the depth `fuel` of the recursion. -/
def traverse : ℕ → SvRef → PerformanceCriteria → Option GroupRef → RequestHeap →
    Except PyError (Option ℕ) × RequestHeap
  | 0, _, _, _, s => (.ok none, s)
  | fuel + 1, var, criteria, chainGroup, s =>
      match backPropagateCriteria criteria with
      | .error e => (.error e, s)
      | .ok nextCriteria =>
          match s.producer var with
          | none => (.ok (some 0), s)
          | some producer =>
              match s.native producer with
              | none =>
                  match s.compChain producer with
                  | .error e => (.error e, s)
                  | .ok c =>
                      match s.activation var with
                      | some (_, depth) => (.ok (some depth), s)
                      | none =>
                          let prevChainGroup := some s.nextGroup
                          let visit var s := traverse fuel var nextCriteria prevChainGroup s
                          activateAt var criteria
                            (visitChain visit c (s.joinGroup c chainGroup).newGroup)
              | some node =>
                  let visit var s := traverse fuel var nextCriteria chainGroup s
                  activateAt var criteria (visitAll visit 0 (node.inputVars.map Prod.snd) 0 s)

/-- `activate_sv`.  Variables depend on what was made before them, so the recursion has at most one
level for each node. -/
def activateSv (var : SvRef) (criteria : PerformanceCriteria) :
    Except PyError (Option Unit) × RequestHeap :=
  if (s.activation var).isSome then
    (.error (.parrotAssert "Variable is already activated."), s)
  else
    match traverse (s.objs.nextNode + 1) var criteria none s with
    | (.error e, s) => (.error e, s)
    | (.ok none, s) => (.ok none, s)
    | (.ok (some _), s) => (.ok (some ()), s)

/-! ## Adding a request -/

/-- `get_performance_criteria`. -/
def getPerformanceCriteria (criteria : Text) : Except PyError PerformanceCriteria :=
  if criteria = "latency".toList then .ok .latency
  else if criteria = "throughput".toList then .ok .throughput
  else if criteria = "TTFT".toList then .ok .ttft
  else if criteria = "TPOT".toList then .ok .tpot
  else .error (.notImplementedError ("PerformanceCriteria " ++ String.ofList criteria ++
    " is not supported."))

/-- The end of `_add_semantic_request`: the last output is activated, if a criteria is given. -/
def activateLastOutput (req : SemanticRequest) : Except PyError (Option Unit) × RequestHeap :=
  match req.chunkedRequest.metadata.outputCriteria with
  | none => (.ok (some ()), s)
  | some criteria =>
      match getPerformanceCriteria criteria with
      | .error e => (.error e, s)
      | .ok criteria =>
          match req.requestChain.compChains.getLast? with
          | none => (.error .indexError, s)
          | some c =>
              match (s.objs.chain c).genNode with
              | none => (.error .attributeError, s)
              | some gen =>
                  match s.nodeSv gen with
                  | .error e => (.error e, s)
                  | .ok var => s.activateSv var criteria

/-- `_add_semantic_request`. -/
def addSemanticRequest (uuid3 : ℕ → Text → VarId) (sessionId requestId now : ℕ)
    (payload : SemanticCallPayload) : Except PyError (Option (List ParamInfo)) × RequestHeap :=
  match ParrotServe.addSemanticRequest uuid3 sessionId requestId now payload s.objs s.vars with
  | (.error e, vars) => (.error e, { s with vars })
  | (.ok none, vars) => (.ok none, { s with vars })
  | (.ok (some req), vars) =>
      match { s with vars, objs := req.graph }.executorAddRequest sessionId req.requestChain with
      | (.error e, s) => (.error e, s)
      | (.ok none, s) => (.ok none, s)
      | (.ok (some info), s) =>
          match s.activateLastOutput req with
          | (.error e, s) => (.error e, s)
          | (.ok none, s) => (.ok none, s)
          | (.ok (some ()), s) => (.ok (some info), s)

/-- The loop over the outputs of a native function. -/
def activateOutputs (criteria : PerformanceCriteria) : List SvRef → RequestHeap →
    Except PyError (Option Unit) × RequestHeap
  | [], s => (.ok (some ()), s)
  | var :: outputs, s =>
      match s.activateSv var criteria with
      | (.error e, s) => (.error e, s)
      | (.ok none, s) => (.ok none, s)
      | (.ok (some ()), s) => activateOutputs criteria outputs s

/-- The end of `_add_py_native_request`. -/
def activateNativeOutputs (request : PyNativeCallRequest) (node : NativeFuncNode) :
    Except PyError (Option Unit) × RequestHeap :=
  match request.outputCriteria with
  | none => (.ok (some ()), s)
  | some criteria =>
      match getPerformanceCriteria criteria with
      | .error e => (.error e, s)
      | .ok criteria => activateOutputs criteria (node.outputVars.map Prod.snd) s

/-- `NativeFuncNode(native_func)` with its variables. -/
def newNativeNode (node : NativeFuncNode) : NodeRef × RequestHeap :=
  (s.objs.nextNode, { s with
    objs := { s.objs with nextNode := s.objs.nextNode + 1 }
    native := Function.update s.native s.objs.nextNode (some node) })

/-- `_add_py_native_request`, behind the parser. -/
def addPyNativeRequest (uuid3 : ℕ → Text → VarId) (sessionId : ℕ) (request : PyNativeCallRequest) :
    Except PyError (Option (List ParamInfo)) × RequestHeap :=
  match SemanticVariableManager.createVarsForPynativeFunc uuid3 sessionId request.parametersMap
    [] [] s.vars with
  | (.error e, vars) => (.error e, { s with vars })
  | (.ok (inputVars, outputVars), vars) =>
      let node : NativeFuncNode := { inputVars, outputVars }
      let (n, s) := { s with vars }.newNativeNode node
      match s.addNativeFunc sessionId n node request with
      | (.error e, s) => (.error e, s)
      | (.ok info, s) =>
          match s.activateNativeOutputs request node with
          | (.error e, s) => (.error e, s)
          | (.ok none, s) => (.ok none, s)
          | (.ok (some ()), s) => (.ok (some info), s)

/-- The request id of `add_request`. -/
def countRequest (sessionId : ℕ) : ℕ × RequestHeap :=
  let session := s.sessions sessionId
  (session.requestIdCounter,
    s.setSession sessionId { session with requestIdCounter := session.requestIdCounter + 1 })

/-- Ids that are returned to a client. -/
def giveOut (sessionId : ℕ) (ids : List VarId) : RequestHeap :=
  let session := s.sessions sessionId
  s.setSession sessionId { session with returned := session.returned ++ ids }

/-- The answer of `add_request`. -/
def answerRequest (sessionId requestId : ℕ) :
    Except PyError (Option (List ParamInfo)) × RequestHeap →
      Except PyError (Option (ℕ × List ParamInfo)) × RequestHeap
  | (.error e, s) => (.error e, s)
  | (.ok none, s) => (.ok none, s)
  | (.ok (some info), s) =>
      (.ok (some (requestId, info)), s.giveOut sessionId (info.map ParamInfo.varId))

/-- `add_request(request_payload, is_native=False)`. -/
def addRequest (uuid3 : ℕ → Text → VarId) (sessionId now : ℕ) (payload : SemanticCallPayload) :
    Except PyError (Option (ℕ × List ParamInfo)) × RequestHeap :=
  let (requestId, s) := s.countRequest sessionId
  answerRequest sessionId requestId (s.addSemanticRequest uuid3 sessionId requestId now payload)

/-- `add_request(request_payload, is_native=True)`, behind the parser. -/
def addNativeRequest (uuid3 : ℕ → Text → VarId) (sessionId : ℕ) (request : PyNativeCallRequest) :
    Except PyError (Option (ℕ × List ParamInfo)) × RequestHeap :=
  let (requestId, s) := s.countRequest sessionId
  answerRequest sessionId requestId (s.addPyNativeRequest uuid3 sessionId request)

/-! ## The sessions of a server -/

/-- `register_semantic_variable`. -/
def registerSemanticVariable (uuid3 : ℕ → Text → VarId) (sessionId : ℕ) (varName : Text) :
    Except PyError VarId × RequestHeap :=
  match s.vars.createVar uuid3 sessionId varName with
  | (.error e, vars) => (.error e, { s with vars })
  | (.ok var, vars) =>
      (.ok (vars.obj var).id, { s with vars }.giveOut sessionId [(vars.obj var).id])

/-- A new `Session`. -/
def registerSession (sessionId : ℕ) : RequestHeap :=
  match s.vars.registerLocalVarSpace sessionId with
  | (.error _, vars) => { s with vars }
  | (.ok (), vars) => { s with vars }.setSession sessionId {}

/-- `get_semantic_variable` up to its first `await`, for the variable that `get_var` finds. -/
def getSemanticVariable (var : SvRef) (criteria : Text) : RequestHeap :=
  if (s.producer var).isSome && (s.activation var).isNone then
    match getPerformanceCriteria criteria with
    | .error _ => s
    | .ok criteria => (s.activateSv var criteria).2
  else s

/-- What happens to requests and their variables. -/
inductive Action
  | registerSession (sessionId : ℕ)
  | freeSessionResources (sessionId : ℕ)
  | registerSemanticVariable (sessionId : ℕ) (varName : Text)
  | addRequest (sessionId now : ℕ) (payload : SemanticCallPayload)
  | addNativeRequest (sessionId : ℕ) (request : PyNativeCallRequest)
  | getSemanticVariable (var : SvRef) (criteria : Text)
  /-- `var.set(content)`, by an executor or by a client. -/
  | set (var : SvRef) (content : Text)
  | freeExpiredConstantPrefixVars (curTime : ℕ)

/-- Requests are for sessions that there are, and so are the variables. -/
def Enabled (s : RequestHeap) : Action → Prop
  | .addRequest sessionId _ _ | .addNativeRequest sessionId _ =>
      sessionId ∈ s.vars.sessionNamespaces.keys
  | .getSemanticVariable var _ | .set var _ => var < s.vars.next
  | _ => True

instance (s : RequestHeap) (a : Action) : Decidable (s.Enabled a) := by
  unfold Enabled
  split <;> infer_instance

/-- The effect of an action.  An exception is somebody else's; what was done before it stays. -/
def apply (uuid3 : ℕ → Text → VarId) (s : RequestHeap) : Action → RequestHeap
  | .registerSession sessionId => s.registerSession sessionId
  | .freeSessionResources sessionId =>
      { s with vars := (s.vars.freeLocalVarSpace sessionId).2 }.setSession sessionId {}
  | .registerSemanticVariable sessionId varName =>
      (s.registerSemanticVariable uuid3 sessionId varName).2
  | .addRequest sessionId now payload => (s.addRequest uuid3 sessionId now payload).2
  | .addNativeRequest sessionId request => (s.addNativeRequest uuid3 sessionId request).2
  | .getSemanticVariable var criteria => s.getSemanticVariable var criteria
  | .set var content => { s with vars := (s.vars.setContent var content).2 }
  | .freeExpiredConstantPrefixVars curTime =>
      { s with vars := (s.vars.freeExpiredConstantPrefixVars curTime).2 }

/-- Every order of these actions. -/
def system (uuid3 : ℕ → Text → VarId) (timeout : ℕ) : TransitionSystem RequestHeap Action :=
  .ofFun (start timeout) Enabled (apply uuid3)

end RequestHeap

end ParrotServe
