import ParrotServe.Framework.TransitionSystem
import ParrotServe.Model.RequestChain

/-!
# Performance deduction over the compute graph

`_traverse` and `activate_sv` of `parrot/serve/graph/graph_traverse.py`, over the part of
`SemanticVariable`, `CompletionChain` and `ComputeGraph` they read and write.

A `SemanticVariable` is an object: it is identified by an `SvRef`, in the order of creation.  Its
producer is the Gen node of a completion chain or a native function, and is assigned when the
request is inserted, together with the creation of the variable.  A fill given by a value and a
constant have a variable without a producer, which `createVar` creates.  Of a completion chain
the traversal reads the variables its fill iterator yields, and the node before its first one:
this is its `CompletionChainView`.

`activate_sv` is called from an HTTP handler, which outlives an exception; what was activated
before it stays activated.  So every operation returns the graph next to its result.
-/

namespace ParrotServe

/-! ## The graph -/

/-- A `CompChainGroup` object. -/
abbrev GroupRef := ℕ

/-- `PerformanceCriteria`. -/
inductive PerformanceCriteria
  | latency
  | throughput
  | ttft
  | tpot
  deriving DecidableEq, Repr

/-- What `_traverse` reads of a `CompletionChain`. -/
structure CompletionChainView where
  /-- The variables of `iter_fill()`. -/
  fills : List SvRef
  /-- `first_node.get_edge_a_prev_node()`: whether it is a Gen, and its variable. -/
  edgeAPrev : Option (Bool × SvRef)
  deriving DecidableEq, Repr

/-- `SVProducer`. -/
inductive SVProducer
  /-- A `PlaceholderGen`, with its `comp_chain`. -/
  | placeholderGen (chain : CompletionChainView)
  /-- A `NativeFuncNode`, with the values of its `input_vars`. -/
  | nativeFuncNode (inputVars : List SvRef)
  deriving DecidableEq, Repr

/-- The variables of a session with their producers, and the groups of its chains.  A chain has
one Gen node and is identified by the variable of it. -/
structure ComputeGraph where
  /-- The next variable. -/
  next : SvRef
  /-- `var.get_producer()`. -/
  producer : SvRef → Option SVProducer
  /-- `_criteria` and `_depth`, once `_activated_event` is set. -/
  activation : SvRef → Option (PerformanceCriteria × ℕ)
  /-- The next group. -/
  nextGroup : GroupRef
  /-- `CompChainGroup.chains`. -/
  chains : GroupRef → List SvRef
  /-- `chain.chain_groups`. -/
  chainGroups : SvRef → List GroupRef

namespace ComputeGraph

/-- A graph of a new session. -/
def empty : ComputeGraph where
  next := 0
  producer _ := none
  activation _ := none
  nextGroup := 0
  chains _ := []
  chainGroups _ := []

variable (g : ComputeGraph)

/-- `var.has_producer`. -/
def HasProducer (var : SvRef) : Prop := g.producer var ≠ none

instance (var : SvRef) : Decidable (g.HasProducer var) :=
  inferInstanceAs (Decidable (g.producer var ≠ none))

/-- `var.is_activated`. -/
def IsActivated (var : SvRef) : Prop := g.activation var ≠ none

instance (var : SvRef) : Decidable (g.IsActivated var) :=
  inferInstanceAs (Decidable (g.activation var ≠ none))

/-! ## Inserting requests -/

/-- A new variable without a producer. -/
def createVar : ComputeGraph := { g with next := g.next + 1 }

/-- A new variable with a producer. -/
def createProduced (p : SVProducer) : ComputeGraph :=
  { g with next := g.next + 1, producer := Function.update g.producer g.next (some p) }

/-- `create_vars_for_semantic_request_chain` and `insert_and_update_request_chain` for a request
with one output: its chain starts at the first node of the request. -/
def insertRequestChain (fills : List SvRef) : ComputeGraph :=
  g.createProduced (.placeholderGen { fills, edgeAPrev := none })

/-- `create_vars_for_pynative_func` and `insert_native_func_node`: every output is a new
variable with the same producer. -/
def insertNativeFuncNode (inputVars : List SvRef) : ℕ → ComputeGraph
  | 0 => g
  | n + 1 => (insertNativeFuncNode inputVars n).createProduced (.nativeFuncNode inputVars)

/-! ## Traversing backward -/

/-- `chain_group.chains.add(chain)` and `chain.chain_groups.append(chain_group)`. -/
def joinGroup (chain : SvRef) : Option GroupRef → ComputeGraph
  | none => g
  | some group =>
      { g with
        chains := Function.update g.chains group ((g.chains group).insert chain)
        chainGroups := Function.update g.chainGroups chain (g.chainGroups chain ++ [group]) }

/-- `CompChainGroup()`. -/
def newGroup : ComputeGraph := { g with nextGroup := g.nextGroup + 1 }

/-- `SemanticVariable.activate`, and the depth `_traverse` returns after it. -/
def activate (var : SvRef) (criteria : PerformanceCriteria) (depth : ℕ) :
    Except PyError ℕ × ComputeGraph :=
  if g.IsActivated var then (.error (.parrotAssert "Semantic Variable has been activated."), g)
  else
    (.ok depth, { g with activation := Function.update g.activation var (some (criteria, depth)) })

end ComputeGraph

/-- `_back_propagate_criteria`. -/
def backPropagateCriteria : PerformanceCriteria → Except PyError PerformanceCriteria
  | .latency => .ok .latency
  | .throughput => .ok .throughput
  | .ttft =>
      .error (.notImplementedError "PerformanceCriteria PerformanceCriteria.TTFT is not supported.")
  | .tpot =>
      .error (.notImplementedError "PerformanceCriteria PerformanceCriteria.TPOT is not supported.")

/-- The loop over the variables a producer depends on, `depth` being the depth so far and
`weight` what one layer adds. -/
def traverseAll (visit : SvRef → ComputeGraph → Except PyError ℕ × ComputeGraph) (weight : ℕ) :
    List SvRef → ℕ → ComputeGraph → Except PyError ℕ × ComputeGraph
  | [], depth, g => (.ok depth, g)
  | var :: vars, depth, g =>
      match visit var g with
      | (.error e, g) => (.error e, g)
      | (.ok prevDepth, g) => traverseAll visit weight vars (max depth (prevDepth + weight)) g

/-- `_traverse`, with the depth of the recursion bounded by `fuel`. -/
def traverse : ℕ → SvRef → PerformanceCriteria → Option GroupRef → ComputeGraph →
    Except PyError ℕ × ComputeGraph
  | 0, _, _, _, g => (.error (.runtimeError "maximum recursion depth exceeded"), g)
  | fuel + 1, var, criteria, chainGroup, g =>
      match backPropagateCriteria criteria with
      | .error e => (.error e, g)
      | .ok nextCriteria =>
          match g.producer var with
          | none => (.ok 0, g)
          | some (.placeholderGen chain) =>
              match g.activation var with
              | some (_, depth) => (.ok depth, g)
              | none =>
                  let prevChainGroup := g.nextGroup
                  let g := (g.joinGroup var chainGroup).newGroup
                  let visit var g := traverse fuel var nextCriteria (some prevChainGroup) g
                  match traverseAll visit 1 chain.fills 0 g with
                  | (.error e, g) => (.error e, g)
                  | (.ok depth, g) =>
                      match chain.edgeAPrev with
                      | none => g.activate var criteria depth
                      | some (false, _) =>
                          (.error (.parrotAssert "The previous node is not a Gen node."), g)
                      | some (true, prev) =>
                          match traverseAll visit 1 [prev] depth g with
                          | (.error e, g) => (.error e, g)
                          | (.ok depth, g) => g.activate var criteria depth
          | some (.nativeFuncNode inputVars) =>
              let visit var g := traverse fuel var nextCriteria chainGroup g
              match traverseAll visit 0 inputVars 0 g with
              | (.error e, g) => (.error e, g)
              | (.ok depth, g) => g.activate var criteria depth

/-- `activate_sv`.  Variables depend on earlier ones, so the recursion has at most one level for
each variable up to `var`. -/
def activateSv (var : SvRef) (criteria : PerformanceCriteria) (g : ComputeGraph) :
    Except PyError Unit × ComputeGraph :=
  if g.IsActivated var then (.error (.parrotAssert "Variable is already activated."), g)
  else
    match traverse (var + 1) var criteria none g with
    | (.error e, g) => (.error e, g)
    | (.ok _, g) => (.ok (), g)

/-! ## The graph of a session -/

namespace ComputeGraph

/-- What happens to the graph of a session. -/
inductive Action
  | createVar
  | insertRequestChain (fills : List SvRef)
  | insertNativeFuncNode (inputVars : List SvRef) (outputs : ℕ)
  | activateSv (var : SvRef) (criteria : PerformanceCriteria)
  deriving DecidableEq, Repr

/-- A request refers to variables that exist, and the callers of `activate_sv` pass a variable
that has a producer and is not activated. -/
def Enabled (g : ComputeGraph) : Action → Prop
  | .createVar => True
  | .insertRequestChain fills => ∀ var ∈ fills, var < g.next
  | .insertNativeFuncNode inputVars _ => ∀ var ∈ inputVars, var < g.next
  | .activateSv var _ => g.HasProducer var ∧ ¬ g.IsActivated var

instance (g : ComputeGraph) (a : Action) : Decidable (g.Enabled a) := by
  cases a <;> unfold Enabled <;> infer_instance

/-- One step. -/
def apply (g : ComputeGraph) : Action → ComputeGraph
  | .createVar => g.createVar
  | .insertRequestChain fills => g.insertRequestChain fills
  | .insertNativeFuncNode inputVars outputs => g.insertNativeFuncNode inputVars outputs
  | .activateSv var criteria => (ParrotServe.activateSv var criteria g).2

/-- The system. -/
def system : TransitionSystem ComputeGraph Action := .ofFun empty Enabled apply

end ComputeGraph

end ParrotServe
