import ParrotServe.Framework.Iteration
import ParrotServe.Model.RecyclePool
import Mathlib.Logic.Function.Basic

/-!
# Requests as chains of nodes

`ChunkedSemanticCallRequest` (`parrot/serve/graph/call_request.py`), the nodes of
`parrot/serve/graph/node.py` and `RequestChain` / `CompletionChain` of
`parrot/serve/graph/graph.py`.

Nodes and completion chains are objects that point to each other, so they live in a heap,
`GraphObjects`.  A request is a doubly linked list of nodes; a completion chain keeps its first
node and its Gen node, and what belongs to it is whatever its iterator finds.  The three
iterators are the `__next__` functions `completionChainNext`, `completionChainFillNext` and
`requestChainNext`.

The constructor of a completion chain runs its own iterator, over a list that is still being
built.  Results are `Except PyError (Option _)`: `ok none` is a loop that did not end within one
call per node of the heap.
-/

namespace ParrotServe

/-- A Python string, as its characters. -/
abbrev Text := List Char

instance : LawfulBEq Text := inferInstanceAs (LawfulBEq (List Char))

/-- The identity of a graph node. -/
abbrev NodeRef := ℕ

/-- The identity of a completion chain. -/
abbrev ChainRef := ℕ

/-- The identity of a Semantic Variable. -/
abbrev SvRef := ℕ

/-! ## Requests -/

/-- A chunk of the request body: `TextChunk` or `PlaceholderChunk`. -/
inductive BodyChunk
  | textChunk (posId : ℕ) (text : Text)
  | placeholderChunk (posId : ℕ) (name : Text)
  deriving DecidableEq, Repr

/-- `SemanticFunctionParameter`, without its sampling config. -/
structure SemanticFunctionParameter where
  name : Text
  isOutput : Bool
  varId : Option Text := none
  value : Option Text := none
  deriving DecidableEq, Repr

namespace SemanticFunctionParameter

/-- `has_var`. -/
def hasVar (p : SemanticFunctionParameter) : Bool := p.varId.isSome

/-- `has_value`. -/
def hasValue (p : SemanticFunctionParameter) : Bool := p.value.isSome

/-- `should_create`. -/
def shouldCreate (p : SemanticFunctionParameter) : Bool := p.isOutput || !p.hasVar

end SemanticFunctionParameter

/-- `SemanticCallMetadata`, with the defaults of `get_default_dict`. -/
structure SemanticCallMetadata where
  models : List Text := []
  modelType : Text := "token_id".toList
  removePureFill : Bool := true
  cachePrefix : Bool := true
  outputCriteria : Option Text := none
  fuseFill : Bool := false
  deriving DecidableEq, Repr

/-- `ChunkedSemanticCallRequest`. -/
structure ChunkedSemanticCallRequest where
  requestId : ℕ
  sessionId : ℕ
  metadata : SemanticCallMetadata := {}
  body : List BodyChunk := []
  parametersMap : List (Text × SemanticFunctionParameter) := []
  deriving DecidableEq, Repr

/-! ## Nodes and chains -/

/-- The class of a semantic node, with its own attribute. -/
inductive NodeKind
  | constantFill (constantText : Text)
  | placeholderFill (placeholderParam : SemanticFunctionParameter)
  | placeholderGen (placeholderParam : SemanticFunctionParameter)
  deriving DecidableEq, Repr

/-- `isinstance(node, PlaceholderGen)`. -/
def NodeKind.isGen : NodeKind → Bool
  | .placeholderGen _ => true
  | _ => false

/-- A `SemanticNode`. -/
structure SemanticNode where
  kind : NodeKind
  sv : Option SvRef := none
  completionChain : Option ChainRef := none
  edgeAPrevNode : Option NodeRef := none
  edgeANextNode : Option NodeRef := none
  deriving DecidableEq, Repr

/-- `is_gen`. -/
abbrev SemanticNode.isGen (n : SemanticNode) : Bool := n.kind.isGen

/-- A `CompletionChain`. -/
structure CompletionChain where
  firstNode : Option NodeRef
  genNode : Option NodeRef
  deriving DecidableEq, Repr

/-- A `RequestChain`. -/
structure RequestChain where
  requestId : ℕ
  sessionId : ℕ
  firstNode : NodeRef
  metadata : SemanticCallMetadata
  compChains : List ChainRef := []
  deriving DecidableEq, Repr

/-- The nodes and chains that were constructed so far. -/
structure GraphObjects where
  node : NodeRef → SemanticNode
  nextNode : NodeRef
  chain : ChainRef → CompletionChain
  nextChain : ChainRef

namespace GraphObjects

variable (g : GraphObjects)

/-- Nothing constructed. -/
def empty : GraphObjects where
  node _ := { kind := .constantFill [] }
  nextNode := 0
  chain _ := { firstNode := none, genNode := none }
  nextChain := 0

/-- Overwrite a node. -/
def setNode (n : NodeRef) (x : SemanticNode) : GraphObjects :=
  { g with node := Function.update g.node n x }

/-- A new, unlinked node. -/
def newNode (kind : NodeKind) : NodeRef × GraphObjects :=
  (g.nextNode,
    { g with node := Function.update g.node g.nextNode { kind }, nextNode := g.nextNode + 1 })

/-- `set_comp_chain`. -/
def setCompChain (n : NodeRef) (c : ChainRef) : GraphObjects :=
  g.setNode n { g.node n with completionChain := some c }

/-- `node.link_edge_a_with(prev_node)`. -/
def linkEdgeAWith (n prev : NodeRef) : GraphObjects :=
  let g := g.setNode n { g.node n with edgeAPrevNode := some prev }
  g.setNode prev { g.node prev with edgeANextNode := some n }

/-- `node.has_edge_a_prev_node and node.get_edge_a_prev_node().is_gen`. -/
def prevIsGen (n : NodeRef) : Bool :=
  match (g.node n).edgeAPrevNode with
  | none => false
  | some p => (g.node p).isGen

/-- `_CompletionChainIterator.__next__`. -/
def completionChainNext : IterNext PyError (Option NodeRef) NodeRef
  | none => .ok none
  | some n => if g.prevIsGen n then .ok none else .ok (some (n, (g.node n).edgeANextNode))

/-- `_CompletionChainFillIterator.__next__`. -/
def completionChainFillNext : IterNext PyError (Option NodeRef) NodeRef
  | none => .error .attributeError
  | some n => if (g.node n).isGen then .ok none else .ok (some (n, (g.node n).edgeANextNode))

/-- `_RequestChainIterator.__next__`. -/
def requestChainNext : IterNext PyError (Option NodeRef) NodeRef
  | none => .ok none
  | some n => .ok (some (n, (g.node n).edgeANextNode))

/-- `list(chain.iter())`. -/
def iter (c : ChainRef) : Except PyError (Option (List NodeRef)) :=
  drain g.completionChainNext (g.nextNode + 1) (g.chain c).firstNode

/-- `list(chain.iter_fill())`. -/
def iterFill (c : ChainRef) : Except PyError (Option (List NodeRef)) :=
  drain g.completionChainFillNext (g.nextNode + 1) (g.chain c).firstNode

/-- `list(request_chain.iter())`. -/
def requestIter (rc : RequestChain) : Except PyError (Option (List NodeRef)) :=
  drain g.requestChainNext (g.nextNode + 1) (some rc.firstNode)

/-! ## Construction -/

/-- `CompletionChain(request_chain, first_node, gen_node)`: the constructor assigns the chain to
the nodes its iterator finds. -/
def newCompletionChain (firstNode : Option NodeRef) (genNode : NodeRef) :
    Except PyError (Option (ChainRef × GraphObjects)) :=
  let c := g.nextChain
  let g := { g with
    chain := Function.update g.chain c { firstNode, genNode := some genNode }
    nextChain := c + 1 }
  match g.iter c with
  | .error e => .error e
  | .ok none => .ok none
  | .ok (some nodes) => .ok (some (c, nodes.foldl (fun g n => g.setCompChain n c) g))

/-- What the loops of `from_nodes` and `from_chunked_request` do with the nodes after the first:
link the node, and close a completion chain at a Gen node.  `fetch` gives the node of an entry
and `nextFirst` the first node of the following chain. -/
def buildChains {β : Type} (fetch : GraphObjects → β → Except PyError (NodeRef × GraphObjects))
    (nextFirst : GraphObjects → NodeRef → Except PyError (Option NodeRef)) :
    List β → NodeRef → Option NodeRef → RequestChain → GraphObjects →
      Except PyError (Option (RequestChain × GraphObjects))
  | [], _, _, rc, g => .ok (some (rc, g))
  | b :: bs, prevNode, firstNode, rc, g =>
      match fetch g b with
      | .error e => .error e
      | .ok (node, g) =>
          let g := g.linkEdgeAWith node prevNode
          if (g.node node).isGen then
            match g.newCompletionChain firstNode node with
            | .error e => .error e
            | .ok none => .ok none
            | .ok (some (c, g)) =>
                match nextFirst g node with
                | .error e => .error e
                | .ok first =>
                    buildChains fetch nextFirst bs node first
                      { rc with compChains := rc.compChains ++ [c] } g
          else
            buildChains fetch nextFirst bs node firstNode rc g

/-- `from_nodes` goes on with the node after the Gen. -/
def nextFirstOfNodes (g : GraphObjects) (node : NodeRef) : Except PyError (Option NodeRef) :=
  .ok (g.node node).edgeANextNode

/-- `RequestChain.from_nodes`. -/
def fromNodes (nodes : List NodeRef) (metadata : SemanticCallMetadata := {}) :
    Except PyError (Option (RequestChain × GraphObjects)) :=
  match nodes with
  | [] => .error (.parrotAssert "RequestChain creation failed: Empty nodes.")
  | n :: ns =>
      buildChains (fun g n => .ok (n, g)) nextFirstOfNodes ns n (some n)
        { requestId := 0, sessionId := 0, firstNode := n, metadata } g

/-- `from_chunked_request` goes on with the node before the Gen. -/
def nextFirstOfChunks (g : GraphObjects) (node : NodeRef) : Except PyError (Option NodeRef) := do
  parrotAssert (g.node node).edgeAPrevNode.isSome "Gen node should have a prev node."
  return (g.node node).edgeAPrevNode

end GraphObjects

/-- The node a chunk of the body becomes. -/
def ChunkedSemanticCallRequest.nodeKind (req : ChunkedSemanticCallRequest) :
    BodyChunk → Except PyError NodeKind
  | .textChunk _ text => .ok (.constantFill text)
  | .placeholderChunk _ name =>
      match req.parametersMap.lookup name with
      | none => .error (.keyError (String.ofList name))
      | some p => .ok (if p.isOutput then .placeholderGen p else .placeholderFill p)

/-- Construct the node of a chunk. -/
def ChunkedSemanticCallRequest.newChunkNode (req : ChunkedSemanticCallRequest)
    (g : GraphObjects) (chunk : BodyChunk) : Except PyError (NodeRef × GraphObjects) := do
  let kind ← req.nodeKind chunk
  return g.newNode kind

namespace GraphObjects

/-- `RequestChain.from_chunked_request`.  The first round of the loop is written out: it records
the first node and has nothing to link to. -/
def fromChunkedRequest (g : GraphObjects) (req : ChunkedSemanticCallRequest) :
    Except PyError (Option (RequestChain × GraphObjects)) :=
  match req.body with
  | [] => .error (.unboundLocalError "request_chain")
  | chunk :: chunks =>
      match req.newChunkNode g chunk with
      | .error e => .error e
      | .ok (node, g) =>
          let rc : RequestChain :=
            { requestId := req.requestId, sessionId := req.sessionId, firstNode := node,
              metadata := req.metadata }
          if (g.node node).isGen then
            match g.newCompletionChain (some node) node with
            | .error e => .error e
            | .ok none => .ok none
            | .ok (some (c, g)) =>
                match nextFirstOfChunks g node with
                | .error e => .error e
                | .ok first =>
                    buildChains req.newChunkNode nextFirstOfChunks chunks node first
                      { rc with compChains := [c] } g
          else
            buildChains req.newChunkNode nextFirstOfChunks chunks node (some node) rc g

end GraphObjects

end ParrotServe
