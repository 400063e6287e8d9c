import ParrotServe.Model.SessionRequests

/-!
# Chains that leave the graph

`ComputeGraph.remove_completion_chain` (`parrot/serve/graph/graph.py`), and everything else that
happens to a graph: nodes are constructed, `RequestChain.from_chunked_request` or
`RequestChain.from_nodes` makes a request of them, the nodes get their variables and the request is
inserted; native nodes are inserted, and chains are removed.

An exception in the middle of a removal leaves what was removed before it.
-/

namespace ParrotServe

/-- The two constructors of `RequestChain`, with their arguments. -/
inductive RequestConstructor
  | fromChunkedRequest (req : ChunkedSemanticCallRequest)
  | fromNodes (nodes : List NodeRef) (metadata : SemanticCallMetadata)

/-- Construct a request chain. -/
def GraphObjects.construct (g : GraphObjects) :
    RequestConstructor → Except PyError (Option (RequestChain × GraphObjects))
  | .fromChunkedRequest req => g.fromChunkedRequest req
  | .fromNodes nodes metadata => g.fromNodes nodes metadata

namespace RequestHeap

variable (s : RequestHeap)

/-! ## Removing chains -/

/-- One round of the loop of `remove_completion_chain`. -/
def removeNode (sessionId : ℕ) (n : NodeRef) : Except PyError Unit × RequestHeap :=
  let graph := (s.sessions sessionId).graph
  if n ∈ graph.nodes then
    let graph := { graph with nodes := graph.nodes.erase n }
    match s.idInGraph n with
    | none => (.error (.parrotAssert "This node is not inserted."), s.setGraph sessionId graph)
    | some id =>
        let (result, nodeIdPool) := graph.nodeIdPool.free id
        (result, s.setGraph sessionId { graph with nodeIdPool })
  else (.error (.keyError (toString n)), s)

/-- The loop of `remove_completion_chain`. -/
def removeNodes (sessionId : ℕ) : List NodeRef → RequestHeap → Except PyError Unit × RequestHeap
  | [], s => (.ok (), s)
  | n :: nodes, s =>
      match s.removeNode sessionId n with
      | (.error e, s) => (.error e, s)
      | (.ok (), s) => removeNodes sessionId nodes s

/-- `remove_completion_chain`.  Removal does not touch the edges that are iterated. -/
def removeCompletionChain (sessionId : ℕ) (c : ChainRef) :
    Except PyError (Option Unit) × RequestHeap :=
  let graph := (s.sessions sessionId).graph
  if c ∈ graph.chains then
    let s := s.setGraph sessionId { graph with chains := graph.chains.erase c }
    match s.objs.iter c with
    | .error e => (.error e, s)
    | .ok none => (.ok none, s)
    | .ok (some nodes) =>
        match removeNodes sessionId nodes s with
        | (.error e, s) => (.error e, s)
        | (.ok (), s) => (.ok (some ()), s)
  else (.error (.valueError "list.remove(x): x not in list"), s)

/-- `remove_completion_chain` on one chain after the other. -/
def removeCompletionChains (sessionId : ℕ) : List ChainRef → RequestHeap →
    Except PyError (Option Unit) × RequestHeap
  | [], s => (.ok (some ()), s)
  | c :: cs, s =>
      match s.removeCompletionChain sessionId c with
      | (.error e, s) => (.error e, s)
      | (.ok none, s) => (.ok none, s)
      | (.ok (some ()), s) => removeCompletionChains sessionId cs s

/-! ## Constructing and inserting a request -/

/-- The nodes of a request get the variables that `varOf` says. -/
def giveVariables (rc : RequestChain) (varOf : NodeRef → SvRef) (objs : GraphObjects) :
    Except PyError (Option GraphObjects) :=
  match objs.requestIter rc with
  | .error e => .error e
  | .ok none => .ok none
  | .ok (some nodes) => .ok (some (objs.setSvs (nodes.map fun n => (n, varOf n))))

/-- Construct a request chain, create its variables, and insert it. -/
def insertRequest (sessionId : ℕ) (source : RequestConstructor) (varOf : NodeRef → SvRef) :
    Except PyError (Option RequestChain) × RequestHeap :=
  match s.objs.construct source with
  | .error e => (.error e, s)
  | .ok none => (.ok none, s)
  | .ok (some (rc, objs)) =>
      match giveVariables rc varOf objs with
      | .error e => (.error e, s)
      | .ok none => (.ok none, s)
      | .ok (some objs) =>
          match { s with objs }.insertAndUpdateRequestChain sessionId rc with
          | (.error e, s) => (.error e, s)
          | (.ok none, s) => (.ok none, s)
          | (.ok (some _), s) => (.ok (some rc), s)

/-! ## The uses of a graph -/

/-- What happens to a graph. -/
inductive GraphUse
  | newNode (kind : NodeKind)
  | insertRequest (source : RequestConstructor) (varOf : NodeRef → SvRef)
  | insertNativeFuncNode (node : NativeFuncNode) (request : PyNativeCallRequest)
  | removeCompletionChain (c : ChainRef)

/-- A list of nodes is made of nodes that were not used before. -/
def Constructible : RequestConstructor → Prop
  | .fromChunkedRequest _ => True
  | .fromNodes nodes _ =>
      nodes.Nodup ∧ ∀ n ∈ nodes,
        s.objs.node n = { kind := (s.objs.node n).kind } ∧ n < s.objs.nextNode ∧
          s.idInGraph n = none

instance : ∀ source, Decidable (s.Constructible source)
  | .fromChunkedRequest _ => inferInstanceAs (Decidable True)
  | .fromNodes nodes _ => inferInstanceAs (Decidable (nodes.Nodup ∧ ∀ n ∈ nodes, _))

/-- Requests are made of new nodes. -/
def UseEnabled (s : RequestHeap) : GraphUse → Prop
  | .insertRequest source _ => s.Constructible source
  | _ => True

/-- The effect of a use.  An exception is somebody else's; what was done before it stays. -/
def use (sessionId : ℕ) (s : RequestHeap) : GraphUse → RequestHeap
  | .newNode kind => { s with objs := (s.objs.newNode kind).2 }
  | .insertRequest source varOf => (s.insertRequest sessionId source varOf).2
  | .insertNativeFuncNode node request =>
      let (n, s) := s.newNativeNode node
      (s.insertNativeFuncNode sessionId n node request).2
  | .removeCompletionChain c => (s.removeCompletionChain sessionId c).2

/-- Every order of the uses of one graph. -/
def graphUses (timeout sessionId : ℕ) : TransitionSystem RequestHeap GraphUse :=
  .ofFun (start timeout) UseEnabled (use sessionId)

end RequestHeap

end ParrotServe
