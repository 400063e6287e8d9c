import ParrotServe.Model.SessionExecution
import ParrotServe.Properties.ChainGroups
import ParrotServe.Properties.ConstructedRequests
import ParrotServe.Properties.NewVariables
import ParrotServe.Properties.SessionRuns

/-!
# What a request launches

A variable that a request produces is new and has no content, and a coroutine was started that
will set it.  This needs that the insertion into the graph does not fail half way: the pool of node
ids has no size, and the producers are assigned to variables that nobody else writes.

`GenChain` is what the coroutine of a completion chain finds: the chain ends with its Gen node,
behind Fill nodes that have their variables.  For a request with at most one output this is its only
chain (`addSemanticRequest_genChain`).  Chains of more outputs are excluded here: the chain of a
later output ends with the Gen node of the output before it.

`Launches` says of a whole action what it launches, and that nodes, chains and variables that were
there stay.
-/

namespace ParrotServe

open GraphObjects SemanticVariableManager

/-! ## The chain of a Gen node -/

namespace GraphObjects

variable {g g' : GraphObjects} {p n : NodeRef} {c : ChainRef} {fills : List NodeRef}
  {vars : List SvRef}

/-- The completion chain of a Gen node: it ends with the node, behind Fill nodes with variables. -/
structure GenChain (g : GraphObjects) (p : NodeRef) (c : ChainRef) (fills : List NodeRef)
    (vars : List SvRef) : Prop where
  gen : (g.node p).isGen = true
  lt : p < g.nextNode
  chain : (g.node p).completionChain = some c
  genNode : (g.chain c).genNode = some p
  iterFill : Yields g.completionChainFillNext (g.chain c).firstNode fills
  iter : Yields g.completionChainNext (g.chain c).firstNode (fills ++ [p])
  before : ∀ n ∈ fills, n < p
  length : fills.length < g.nextNode
  isFill : ∀ n ∈ fills, (g.node n).isGen = false
  svs : fills.map (fun n => (g.node n).sv) = vars.map some
  prev : ∀ n ∈ fills, ∀ m, (g.node n).edgeAPrevNode = some m → m ∈ fills

lemma GenChain.iterFill_eq (h : g.GenChain p c fills vars) : g.iterFill c = .ok (some fills) :=
  drain_of_yields h.iterFill (h.length.trans (Nat.lt_succ_self _))

lemma GenChain.iter_eq (h : g.GenChain p c fills vars) : g.iter c = .ok (some (fills ++ [p])) :=
  drain_of_yields h.iter (by
    rw [List.length_append, List.length_singleton]
    exact Nat.succ_lt_succ h.length)

lemma SameEdges.completionChainFillNext_eq (h : SameEdges g g') :
    g'.completionChainFillNext = g.completionChainFillNext := by
  funext cursor
  cases cursor with
  | none => rfl
  | some n => rw [completionChainFillNext, completionChainFillNext, SemanticNode.isGen, (h n).1,
      (h n).2.2]

/-- The iterator of a chain over nodes that stay as they are. -/
lemma yields_iter_appended (h : g.Forward) (hnode : ∀ n < g.nextNode, g'.node n = g.node n) :
    ∀ {l : List NodeRef} {q : Option NodeRef}, (∀ n, q = some n → n < g.nextNode) →
      Yields g.completionChainNext q l → Yields g'.completionChainNext q l := by
  have hprev : ∀ n < g.nextNode, g'.prevIsGen n = g.prevIsGen n := by
    intro n hn
    rw [prevIsGen, prevIsGen, hnode n hn]
    cases hp : (g.node n).edgeAPrevNode with
    | none => rfl
    | some m =>
        dsimp only
        rw [hnode m ((h.prev hp).trans hn)]
  have hnext : ∀ q : Option NodeRef, (∀ n, q = some n → n < g.nextNode) →
      g'.completionChainNext q = g.completionChainNext q := by
    intro q hq
    cases q with
    | none => rfl
    | some n =>
        rw [completionChainNext, completionChainNext, hprev n (hq n rfl), hnode n (hq n rfl)]
  intro l
  induction l with
  | nil =>
      intro q hq hl
      rw [Yields, hnext q hq]
      exact hl
  | cons a l ih =>
      rintro q hq ⟨cursor, hc, hl⟩
      refine ⟨cursor, (hnext q hq).trans hc, ih (fun n hn => ?_) hl⟩
      cases q with
      | none => cases hc
      | some x =>
          rw [completionChainNext] at hc
          split_ifs at hc
          · cases hc
          · obtain ⟨-, rfl⟩ := Prod.mk.inj (Option.some.inj (Except.ok.inj hc))
            exact (h.next hn).2.1

/-- A chain stays as it is when nodes and chains are added. -/
lemma GenChain.congr (h : g.GenChain p c fills vars) (hforward : g.Forward)
    (hle : g.nextNode ≤ g'.nextNode) (hnode : ∀ n < g.nextNode, g'.node n = g.node n)
    (hchain : ∀ c < g.nextChain, g'.chain c = g.chain c) : g'.GenChain p c fills vars := by
  obtain ⟨hlt, q, hfirst, hpath⟩ := hforward.chain h.gen h.chain
  have hq : q < g.nextNode := (hforward.yields hpath h.gen).1.trans_lt h.lt
  have hfills : ∀ n ∈ fills, g'.node n = g.node n := fun n hn =>
    hnode n ((h.before n hn).trans h.lt)
  have hiterFill := h.iterFill
  have hiter := h.iter
  rw [hfirst] at hiterFill hiter
  refine ⟨by rw [hnode p h.lt]; exact h.gen, h.lt.trans_le hle, by rw [hnode p h.lt]; exact h.chain,
    by rw [hchain c hlt]; exact h.genNode, ?_, ?_, h.before, h.length.trans_le hle,
    fun n hn => by rw [hfills n hn]; exact h.isFill n hn, ?_, fun n hn m hm => ?_⟩
  · rw [hchain c hlt, hfirst]
    exact RequestHeap.yields_appended hforward hnode hq hiterFill
  · rw [hchain c hlt, hfirst]
    refine yields_iter_appended hforward hnode (fun n hn => ?_) hiter
    exact Option.some.inj hn ▸ hq
  · rw [← h.svs]
    exact List.map_congr_left fun n hn => by rw [hfills n hn]
  · rw [hfills n hn] at hm
    exact h.prev n hn m hm

end GraphObjects

/-! ## Requests with at most one output -/

namespace SemanticRequest

variable {uuid3 : ℕ → Text → VarId} {req : SemanticRequest} {g : GraphObjects}
  {m m' : SemanticVariableManager} {payload : SemanticCallPayload}
  {sessionId requestId now : ℕ}

/-- The request has at most one output. -/
def OneOutput (payload : SemanticCallPayload) : Prop :=
  match ChunkedSemanticCallRequest.parseFromPayload 0 0 payload with
  | .error _ => True
  | .ok req => outputs (req.body.map (chunkKind req)) ≤ 1

instance (payload : SemanticCallPayload) : Decidable (OneOutput payload) := by
  unfold OneOutput
  split <;> infer_instance

section ParsedIds

variable (requestId sessionId) (template : Text) (req : ChunkedSemanticCallRequest)

lemma parseParameters_ids (parameters : List ParameterPayload) :
    ∀ req : ChunkedSemanticCallRequest,
      { req with requestId, sessionId }.parseParameters parameters =
        (req.parseParameters parameters).map fun req => { req with requestId, sessionId } := by
  induction parameters with
  | nil => exact fun _ => rfl
  | cons parameter parameters ih =>
      intro req
      unfold ChunkedSemanticCallRequest.parseParameters
      cases parameter.construct with
      | error e => rfl
      | ok parsed =>
          dsimp only
          split_ifs
          · rfl
          · exact ih { req with parametersMap := req.parametersMap ++ [(parsed.name, parsed)] }

lemma pushText_ids (text : Text) : { req with requestId, sessionId }.pushText text =
    { req.pushText text with requestId, sessionId } := by
  unfold ChunkedSemanticCallRequest.pushText
  split <;> rfl

lemma parseMatches_ids (found : List (ℕ × ℕ)) : ∀ (lastPos : ℕ) (req : ChunkedSemanticCallRequest),
    ChunkedSemanticCallRequest.parseMatches template lastPos found
        { req with requestId, sessionId } =
      ({ (ChunkedSemanticCallRequest.parseMatches template lastPos found req).1 with
          requestId, sessionId },
        (ChunkedSemanticCallRequest.parseMatches template lastPos found req).2) := by
  induction found with
  | nil => exact fun _ _ => rfl
  | cons found rest ih =>
      intro lastPos req
      obtain ⟨start, stop⟩ := found
      simp only [ChunkedSemanticCallRequest.parseMatches, pushText_ids]
      exact ih stop ((req.pushText (slice template lastPos start)).pushChunk .placeholderChunk
        (slice template (start + 2) (stop - 2)))

/-- What a payload is parsed to, but for the ids. -/
lemma parseFromPayload_ids (payload : SemanticCallPayload) :
    ChunkedSemanticCallRequest.parseFromPayload requestId sessionId payload =
      (ChunkedSemanticCallRequest.parseFromPayload 0 0 payload).map fun req =>
        { req with requestId, sessionId } := by
  unfold ChunkedSemanticCallRequest.parseFromPayload
  split
  · rfl
  · rfl
  · rename_i template parameters _ _
    dsimp only
    have hids := parseParameters_ids sessionId requestId parameters
      { requestId := 0, sessionId := 0, metadata := payload.metadata }
    dsimp only at hids
    rw [hids]
    cases ChunkedSemanticCallRequest.parseParameters
      { requestId := 0, sessionId := 0, metadata := payload.metadata } parameters with
    | error e => rfl
    | ok req =>
        simp only [Except.map, ChunkedSemanticCallRequest.parseBody, parseMatches_ids]
        split_ifs
        · rw [pushText_ids]
        · rfl

end ParsedIds

/-- The ids of a request do not matter. -/
lemma OneOutput.parsed (h : OneOutput payload) {req : ChunkedSemanticCallRequest}
    (hok : ChunkedSemanticCallRequest.parseFromPayload requestId sessionId payload = .ok req) :
    outputs (req.body.map (chunkKind req)) ≤ 1 := by
  rw [parseFromPayload_ids] at hok
  unfold OneOutput at h
  cases hparse : ChunkedSemanticCallRequest.parseFromPayload 0 0 payload with
  | error e =>
      rw [hparse] at hok
      cases hok
  | ok req₀ =>
      rw [hparse] at hok h
      obtain rfl := Except.ok.inj hok
      exact h

/-- Variables that are all there. -/
lemma map_eq_map_some {α β : Type} {f : α → Option β} {l : List α}
    (h : ∀ a ∈ l, ∃ b, f a = some b) : l.map f = (l.filterMap f).map some := by
  induction l with
  | nil => rfl
  | cons a l ih =>
      obtain ⟨b, hb⟩ := h a List.mem_cons_self
      rw [List.map_cons, ih fun a ha => h a (List.mem_cons_of_mem _ ha),
        List.filterMap_cons_some hb, List.map_cons, hb]

/-- The pieces of a list with at most one Gen. -/
lemma one_gen_split {nodes : List NodeRef} (hone : outputs (nodes.map fun n => (g.node n).kind) ≤ 1)
    {p : NodeRef} (hp : p ∈ nodes) (hgen : (g.node p).isGen = true) :
    ∃ before after, nodes = before ++ p :: after ∧ (∀ n ∈ before, (g.node n).isGen = false) ∧
      ∀ n ∈ after, (g.node n).isGen = false := by
  obtain ⟨before, after, rfl⟩ := List.append_of_mem hp
  have hkind : (g.node p).kind.isGen = true := hgen
  rw [outputs, List.map_append, List.map_cons, List.countP_append,
    List.countP_cons_of_pos hkind] at hone
  have hzero : ∀ {l : List NodeRef}, (l.map fun n => (g.node n).kind).countP NodeKind.isGen = 0 →
      ∀ n ∈ l, (g.node n).isGen = false := fun h n hn =>
    Bool.eq_false_of_not_eq_true (List.countP_eq_zero.mp h _ (List.mem_map_of_mem hn))
  exact ⟨before, after, rfl, hzero (by omega), hzero (by omega)⟩

/-- The Gen nodes of a request with at most one output end its only chain. -/
lemma addSemanticRequest_genChain (hone : OneOutput payload)
    (hok : addSemanticRequest uuid3 sessionId requestId now payload g m = (.ok (some req), m'))
    {nodes : List NodeRef} {rs : List SvRef} (hnew : RequestHeap.NewNodes g req nodes rs) :
    (∀ p ∈ nodes, (req.graph.node p).isGen = true → ∃ c fills vars,
      req.requestChain.compChains = [c] ∧ req.graph.GenChain p c fills vars) ∧
    ∀ c ∈ req.requestChain.compChains, g.nextChain ≤ c ∧ ∃ p ∈ nodes,
      (req.graph.node p).isGen = true ∧ ∃ fills vars, req.graph.GenChain p c fills vars := by
  obtain ⟨g₁, nodes', rs', hparse, hchain, hiter, -, hgraph⟩ := addSemanticRequest_cases hok
  obtain ⟨hedges, hsame, hnext, -, -⟩ := setSvs_spec (nodes'.zip rs') g₁
  obtain ⟨-, hchains'⟩ := setSvs_chains (nodes'.zip rs') g₁
  rw [← hgraph] at hedges hsame hnext hchains'
  obtain ⟨ns, hbuilt, hhead, -, -, hfirst, hbody⟩ := fromChunkedRequest_endsEarly hchain
  have hyields : Yields g₁.requestChainNext (some req.requestChain.firstNode) ns :=
    hhead ▸ hbuilt.linked.yields_request ns [] rfl
  obtain rfl : nodes' = ns := (yields_of_drain hiter).unique hyields
  obtain rfl : nodes = nodes' := by
    refine (yields_of_drain hnew.iter).unique ?_
    rw [hedges.requestChainNext_eq]
    exact hyields
  obtain ⟨_, hconstructed, -⟩ := fromChunkedRequest_constructed hchain
  have hgens : ∀ n, (req.graph.node n).isGen = (g₁.node n).isGen := fun n =>
    congrArg NodeKind.isGen (hedges n).1
  have hkinds : (nodes.map fun n => (g₁.node n).kind) =
      req.chunkedRequest.body.map (chunkKind req.chunkedRequest) := hbuilt.kinds
  have houtputs := hone.parsed hparse
  have hne : req.chunkedRequest.body.map (chunkKind req.chunkedRequest) ≠ [] := by
    rw [← hkinds]
    intro hnil
    rw [List.map_eq_nil_iff.mp hnil] at hhead
    cases hhead
  obtain ⟨rc, g₂, hok₂, nodes₂, hyields₂, -, hpieces⟩ :=
    (fromChunkedRequest_partitions_iff g hbody hfirst).mpr ⟨hne, houtputs⟩
  obtain ⟨rfl, rfl⟩ := Prod.mk.inj (Option.some.inj (Except.ok.inj (hok₂.symm.trans hchain)))
  obtain rfl : nodes₂ = nodes := hyields₂.unique hyields
  rw [← hkinds] at houtputs
  suffices hgenChain : ∀ p ∈ nodes₂, (req.graph.node p).isGen = true → ∃ c fills vars,
      req.requestChain.compChains = [c] ∧ req.graph.GenChain p c fills vars by
    refine ⟨hgenChain, fun c hc => ⟨(hconstructed.chains c hc).1, ?_⟩⟩
    by_cases hexists : ∃ p ∈ nodes₂, (req.graph.node p).isGen = true
    · obtain ⟨p, hp, hgen⟩ := hexists
      obtain ⟨c', fills, vars, hchains, hchain⟩ := hgenChain p hp hgen
      obtain rfl := List.mem_singleton.mp (hchains ▸ hc)
      exact ⟨p, hp, hgen, fills, vars, hchain⟩
    · -- without a Gen there is no piece
      push Not at hexists
      rw [cutAfter_eq_nil fun n hn => Bool.eq_false_of_not_eq_true
        ((hgens n).symm ▸ hexists n hn)] at hpieces
      rw [List.forall₂_nil_right_iff.mp hpieces] at hc
      exact absurd hc List.not_mem_nil
  intro p hp hgen
  obtain ⟨before, after, rfl, hbefore, hafter⟩ :=
    one_gen_split houtputs hp ((hgens p).symm.trans hgen)
  -- there is one piece, up to the Gen
  rw [cutAfter_append_cons hbefore ((hgens p).symm.trans hgen), cutAfter_eq_nil hafter] at hpieces
  obtain ⟨c, cs, hc, hcs, hrc⟩ := List.forall₂_cons_right_iff.mp hpieces
  obtain rfl := List.forall₂_nil_right_iff.mp hcs
  have hiterFill := hc.iterFill
  have hgenNode := hc.genNode
  rw [List.dropLast_concat] at hiterFill
  rw [List.getLast?_concat] at hgenNode
  have hlen := hbuilt.length_le
  rw [List.length_append, List.length_cons] at hlen
  have hsv : ∀ n ∈ before, ∃ v, (req.graph.node n).sv = some v := by
    intro n hn
    have hmem : n ∈ ((before ++ p :: after).zip rs).map Prod.fst := by
      rw [List.map_fst_zip hnew.length.le]
      exact List.mem_append_left _ hn
    obtain ⟨x, hx, rfl⟩ := List.mem_map.mp hmem
    exact ⟨x.2, (hnew.svs (hnew.range x.1 (List.of_mem_zip hx).1).1).mpr hx⟩
  refine ⟨c, before, _, hrc, hgen, (hnew.range p hp).2, ?_, hsame ▸ hgenNode, ?_, ?_, ?_, ?_, ?_,
    map_eq_map_some hsv, fun n hn m hm => ?_⟩
  · rw [hchains']
    exact (hc.compChain p hp).mpr (by simp)
  · rw [hedges.completionChainFillNext_eq, hsame]
    exact hiterFill
  · rw [hedges.completionChainNext_eq, hsame]
    exact hc.iter
  · intro n hn
    exact (List.pairwise_append.mp hnew.sorted).2.2 n hn p List.mem_cons_self
  · rw [hnext]
    omega
  · exact fun n hn => (hgens n).trans (hbefore n hn)
  · obtain ⟨l, r, rfl⟩ := List.append_of_mem hn
    rw [(hedges n).2.1, hbuilt.linked.prev l n (r ++ p :: after) (by simp)] at hm
    exact List.mem_append_left _ (List.mem_of_getLast? hm)

end SemanticRequest

namespace RequestHeap

variable {uuid3 : ℕ → Text → VarId} {s s' s'' : RequestHeap} {n p : NodeRef} {v : SvRef}
  {sessionId requestId now : ℕ}

/-! ## Insertion does not fail -/

/-- The pools of node ids have no size. -/
def PoolsOpen (s : RequestHeap) : Prop :=
  ∀ sessionId, (s.sessions sessionId).graph.nodeIdPool.poolSize = none

/-- The objects, the variables, the coroutines and the sizes of the pools stay. -/
structure EdgesOnly (s s' : RequestHeap) : Prop where
  vars : s'.vars = s.vars
  objs : s'.objs = s.objs
  native : s'.native = s.native
  activation : s'.activation = s.activation
  coroutines : ∀ sessionId, (s'.sessions sessionId).coroutines = (s.sessions sessionId).coroutines
  pools : s.PoolsOpen → s'.PoolsOpen

lemma EdgesOnly.refl (s : RequestHeap) : s.EdgesOnly s := ⟨rfl, rfl, rfl, rfl, fun _ => rfl, id⟩

lemma EdgesOnly.trans (h : s.EdgesOnly s') (h' : s'.EdgesOnly s'') : s.EdgesOnly s'' where
  vars := h'.vars.trans h.vars
  objs := h'.objs.trans h.objs
  native := h'.native.trans h.native
  activation := h'.activation.trans h.activation
  coroutines id := (h'.coroutines id).trans (h.coroutines id)
  pools hs := h'.pools (h.pools hs)

/-- A session changes, its coroutines and the size of its pool do not. -/
lemma EdgesOnly.setGraph {graph : NodeGraph}
    (h : (s.sessions sessionId).graph.nodeIdPool.poolSize = none →
      graph.nodeIdPool.poolSize = none) : s.EdgesOnly (s.setGraph sessionId graph) where
  vars := rfl
  objs := rfl
  native := rfl
  activation := rfl
  coroutines id := by
    rw [RequestHeap.setGraph, setSession]
    dsimp only
    rw [Function.update_apply]
    split_ifs with hid
    · rw [hid]
    · rfl
  pools hs id := by
    rw [RequestHeap.setGraph, setSession]
    dsimp only
    rw [Function.update_apply]
    split_ifs
    · exact h (hs sessionId)
    · exact hs id

/-- `_insert_node`, before it links the edges. -/
lemma enterNode_ok (hpools : s.PoolsOpen) (sessionId : ℕ) (n : NodeRef) :
    ∃ s', s.enterNode sessionId n = (.ok (), s') ∧ s.EdgesOnly s' ∧ s'.producer = s.producer := by
  obtain ⟨id, pool, hallocate⟩ := RecyclePool.allocate_unbounded (hpools sessionId)
  have hsize : pool.poolSize = none := by
    have := RecyclePool.allocate_poolSize (s.sessions sessionId).graph.nodeIdPool
    rw [hallocate] at this
    exact this.trans (hpools sessionId)
  unfold enterNode
  dsimp only
  rw [hallocate]
  refine ⟨_, rfl, ?_, rfl⟩
  have hgraph : s.EdgesOnly (s.setGraph sessionId { (s.sessions sessionId).graph with
      nodes := (s.sessions sessionId).graph.nodes.insert n, nodeIdPool := pool }) :=
    .setGraph fun _ => hsize
  exact ⟨hgraph.vars, hgraph.objs, hgraph.native, hgraph.activation, hgraph.coroutines,
    hgraph.pools⟩

/-- `_insert_node` for a node with a variable that is produced by nobody, if the node is a Gen. -/
lemma insertSemanticNode_ok (hpools : s.PoolsOpen) (sessionId : ℕ)
    (hsv : (s.objs.node n).sv = some v)
    (hfree : (s.objs.node n).isGen = true → s.producer v = none) :
    ∃ s', s.insertSemanticNode sessionId n = (.ok (), s') ∧ s.EdgesOnly s' ∧
      ∀ w, s'.producer w =
        if (s.objs.node n).isGen = true ∧ w = v then some n else s.producer w := by
  obtain ⟨s₁, henter, hedges, hproducer⟩ := enterNode_ok hpools sessionId n
  have hvar : s₁.nodeSv n = .ok v := by
    rw [nodeSv, hedges.objs, hsv]
  unfold insertSemanticNode
  rw [henter]
  dsimp only
  rw [hvar, hedges.objs]
  dsimp only
  by_cases hgen : (s.objs.node n).isGen = true
  · rw [if_pos hgen, assignProducer, hproducer, hfree hgen]
    refine ⟨_, rfl, ⟨hedges.vars, hedges.objs, hedges.native, hedges.activation,
      hedges.coroutines, hedges.pools⟩, fun w => ?_⟩
    dsimp only
    rw [Function.update_apply]
    simp only [hgen, true_and]
  · rw [if_neg hgen]
    refine ⟨_, rfl, ⟨hedges.vars, hedges.objs, hedges.native, hedges.activation,
      hedges.coroutines, hedges.pools⟩, fun w => ?_⟩
    rw [if_neg fun h => hgen h.1]
    exact congrFun hproducer w

/-- The loop over the nodes of a request: its Gen nodes become the producers of their
variables. -/
lemma insertNodes_ok (sessionId : ℕ) (nodes : List NodeRef) :
    ∀ (info : List ParamInfo) {s : RequestHeap}, s.PoolsOpen → nodes.Nodup →
      (∀ n ∈ nodes, ∃ v, (s.objs.node n).sv = some v) →
      (∀ n ∈ nodes, ∀ v, (s.objs.node n).isGen = true → (s.objs.node n).sv = some v →
        s.producer v = none) →
      (∀ n ∈ nodes, ∀ n' ∈ nodes, ∀ v, (s.objs.node n).isGen = true →
        (s.objs.node n').isGen = true → (s.objs.node n).sv = some v →
        (s.objs.node n').sv = some v → n = n') →
      ∃ info' s', insertNodes sessionId nodes info s = (.ok info', s') ∧ s.EdgesOnly s' ∧
        ∀ w p, s'.producer w = some p ↔ s.producer w = some p ∨
          p ∈ nodes ∧ (s.objs.node p).isGen = true ∧ (s.objs.node p).sv = some w := by
  induction nodes with
  | nil =>
      intro info s _ _ _ _ _
      exact ⟨info, s, rfl, .refl s, fun w p => by simp⟩
  | cons n nodes ih =>
      intro info s hpools hnodup hsvs hfree honce
      obtain ⟨hn, hnodup⟩ := List.nodup_cons.mp hnodup
      obtain ⟨v, hv⟩ := hsvs n List.mem_cons_self
      obtain ⟨s₁, hone, hedges, hproducer⟩ := insertSemanticNode_ok hpools sessionId hv
        fun hgen => hfree n List.mem_cons_self v hgen hv
      have hfree₁ : ∀ m ∈ nodes, ∀ w, (s₁.objs.node m).isGen = true →
          (s₁.objs.node m).sv = some w → s₁.producer w = none := by
        intro m hm w hgen hw
        rw [hedges.objs] at hgen hw
        rw [hproducer, if_neg, hfree m (List.mem_cons_of_mem _ hm) w hgen hw]
        rintro ⟨hgen', rfl⟩
        exact hn (honce n List.mem_cons_self m (List.mem_cons_of_mem _ hm) w hgen' hgen hv hw ▸ hm)
      obtain ⟨info', s', hrest, hedges', hproducer'⟩ := ih (info ++ s₁.nodeParamInfo n)
        (hedges.pools hpools) hnodup
        (fun m hm => hedges.objs ▸ hsvs m (List.mem_cons_of_mem _ hm)) hfree₁
        (fun m hm m' hm' w => hedges.objs ▸
          honce m (List.mem_cons_of_mem _ hm) m' (List.mem_cons_of_mem _ hm') w)
      refine ⟨info', s', ?_, hedges.trans hedges', fun w p => ?_⟩
      · rw [insertNodes, hone]
        exact hrest
      · rw [hproducer', hproducer, hedges.objs, List.mem_cons]
        constructor
        · rintro (h | ⟨hp, hgen, hw⟩)
          · split_ifs at h with hcase
            · obtain rfl := Option.some.inj h
              exact .inr ⟨.inl rfl, hcase.1, hcase.2 ▸ hv⟩
            · exact .inl h
          · exact .inr ⟨.inr hp, hgen, hw⟩
        · rintro (h | ⟨rfl | hp, hgen, hw⟩)
          · left
            rw [if_neg]
            · exact h
            · rintro ⟨hgen, rfl⟩
              rw [hfree n List.mem_cons_self w hgen hv] at h
              cases h
          · left
            rw [if_pos ⟨hgen, Option.some.inj (hw.symm.trans hv)⟩]
          · exact .inr ⟨hp, hgen, hw⟩

/-! ## What an action launches -/

/-- The coroutine will set the variable, which the node produces. -/
def RunsFor (s : RequestHeap) (v : SvRef) (p : NodeRef) : ExecutionCoroutine → Prop
  | .completionChain c => s.native p = none ∧ (s.objs.node p).sv = some v ∧
      ∃ fills vars, s.objs.GenChain p c fills vars
  | .nativeFunc n => n = p ∧ p < s.objs.nextNode ∧ ∃ node, s.native p = some node ∧
      v ∈ node.outputVars.map Prod.snd ∧ (node.outputVars.map Prod.snd).Nodup

/-- The coroutine is for a chain or a function that was not there. -/
def IsNewCoroutine (s : RequestHeap) : ExecutionCoroutine → Prop
  | .completionChain c => s.objs.nextChain ≤ c
  | .nativeFunc n => s.objs.nextNode ≤ n

/-- What a coroutine was started for: it sets variables that it produces. -/
def Serves (s : RequestHeap) : ExecutionCoroutine → Prop
  | .completionChain c => ∃ v p, s.producer v = some p ∧ s.RunsFor v p (.completionChain c)
  | .nativeFunc n => n < s.objs.nextNode ∧ ∃ node, s.native n = some node ∧
      (node.outputVars.map Prod.snd).Nodup ∧ ∀ v ∈ node.outputVars.map Prod.snd,
        s.producer v = some n

/-- What was there stays, and a new producer has a coroutine among the new ones, which will set its
variable. -/
structure Launches (new : List ExecutionCoroutine) (s s' : RequestHeap) : Prop where
  nextNode : s.objs.nextNode ≤ s'.objs.nextNode
  nextChain : s.objs.nextChain ≤ s'.objs.nextChain
  node : ∀ n < s.objs.nextNode, s'.objs.node n = s.objs.node n
  chain : ∀ c < s.objs.nextChain, s'.objs.chain c = s.objs.chain c
  native : ∀ n < s.objs.nextNode, s'.native n = s.native n
  vars : OnlyNew s.vars s'.vars
  kept : ∀ v p, s.producer v = some p → s'.producer v = some p
  fresh : ∀ v p, s'.producer v = some p → s.producer v = some p ∨
    s.vars.next ≤ v ∧ s'.content v = none ∧ ∃ co ∈ new, s'.RunsFor v p co
  serves : ∀ co ∈ new, s'.Serves co
  new : ∀ co ∈ new, s.IsNewCoroutine co
  ends : s.objs.EndsOnce → s'.objs.EndsOnce
  pools : s.PoolsOpen → s'.PoolsOpen

/-- Nothing is launched when only activations, sessions and namespaces change. -/
lemma Launches.of_same (hobjs : s'.objs = s.objs) (hnative : s'.native = s.native)
    (hproducer : s'.producer = s.producer) (hvars : OnlyNew s.vars s'.vars)
    (hpools : s.PoolsOpen → s'.PoolsOpen) : Launches [] s s' where
  nextNode := by rw [hobjs]
  nextChain := by rw [hobjs]
  node n _ := by rw [hobjs]
  chain c _ := by rw [hobjs]
  native n _ := by rw [hnative]
  vars := hvars
  kept v p h := by rwa [hproducer]
  fresh v p h := .inl (by rwa [hproducer] at h)
  serves co h := absurd h List.not_mem_nil
  new co h := absurd h List.not_mem_nil
  ends h := hobjs ▸ h
  pools := hpools

lemma RunsFor.congr {co : ExecutionCoroutine} (h : s.RunsFor v p co) (hforward : s.objs.Forward)
    (hnode : s.objs.nextNode ≤ s'.objs.nextNode)
    (hnodes : ∀ n < s.objs.nextNode, s'.objs.node n = s.objs.node n)
    (hchains : ∀ c < s.objs.nextChain, s'.objs.chain c = s.objs.chain c)
    (hnative : ∀ n < s.objs.nextNode, s'.native n = s.native n) : s'.RunsFor v p co := by
  cases co with
  | completionChain c =>
      obtain ⟨hno, hsv, fills, vars, hchain⟩ := h
      exact ⟨by rw [hnative p hchain.lt]; exact hno, by rw [hnodes p hchain.lt]; exact hsv,
        fills, vars, hchain.congr hforward hnode hnodes hchains⟩
  | nativeFunc n =>
      obtain ⟨rfl, hlt, node, hnode', hv⟩ := h
      exact ⟨rfl, hlt.trans_le hnode, node, (hnative n hlt).trans hnode', hv⟩

/-- Activations and sessions do not matter. -/
lemma Launches.congr {new : List ExecutionCoroutine} (h : Launches new s s')
    (hobjs : s''.objs = s'.objs) (hnative : s''.native = s'.native)
    (hproducer : s''.producer = s'.producer) (hvars : s''.vars = s'.vars)
    (hpools : s'.PoolsOpen → s''.PoolsOpen) : Launches new s s'' where
  nextNode := hobjs ▸ h.nextNode
  nextChain := hobjs ▸ h.nextChain
  node := hobjs ▸ h.node
  chain := hobjs ▸ h.chain
  native := hnative ▸ h.native
  vars := hvars ▸ h.vars
  kept := hproducer ▸ h.kept
  fresh v p hp := by
    rw [hproducer] at hp
    refine (h.fresh v p hp).imp_right fun ⟨hv, hnone, co, hco, hruns⟩ =>
      ⟨hv, by rw [content, hvars]; exact hnone, co, hco, ?_⟩
    cases co <;> simpa only [RunsFor, hobjs, hnative] using hruns
  new := h.new
  serves co hco := by
    have hserves := h.serves co hco
    cases co <;> simpa only [Serves, RunsFor, hobjs, hnative, hproducer] using hserves
  ends hs := hobjs ▸ h.ends hs
  pools hs := hpools (h.pools hs)

/-- What runs before a launch does not matter either. -/
lemma Launches.comp {new : List ExecutionCoroutine} (h : Launches [] s s')
    (h' : Launches new s' s'') : Launches new s s'' where
  nextNode := h.nextNode.trans h'.nextNode
  nextChain := h.nextChain.trans h'.nextChain
  node n hn := (h'.node n (hn.trans_le h.nextNode)).trans (h.node n hn)
  chain c hc := (h'.chain c (hc.trans_le h.nextChain)).trans (h.chain c hc)
  native n hn := (h'.native n (hn.trans_le h.nextNode)).trans (h.native n hn)
  vars := h.vars.trans h'.vars
  kept v p hp := h'.kept v p (h.kept v p hp)
  fresh v p hp := by
    rcases h'.fresh v p hp with hp | ⟨hv, hrest⟩
    · refine .inl ((h.fresh v p hp).resolve_right ?_)
      rintro ⟨-, -, co, hco, -⟩
      exact absurd hco List.not_mem_nil
    · exact .inr ⟨h.vars.next.trans hv, hrest⟩
  new co hco := by
    have hnew := h'.new co hco
    cases co with
    | completionChain c => exact h.nextChain.trans hnew
    | nativeFunc n => exact h.nextNode.trans hnew
  serves := h'.serves
  ends hs := h'.ends (h.ends hs)
  pools hs := h'.pools (h.pools hs)

/-! ## Semantic requests -/

/-- `GraphExecutor.add_request` for a request whose nodes are new. -/
lemma executorAddRequest_ok (hpools : s.PoolsOpen) (sessionId : ℕ) {rc : RequestChain}
    {nodes : List NodeRef} (hfirst : ∃ v, (s.objs.node rc.firstNode).sv = some v)
    (hid : s.idInGraph rc.firstNode = none) (hiter : s.objs.requestIter rc = .ok (some nodes))
    (hnodup : nodes.Nodup) (hsvs : ∀ n ∈ nodes, ∃ v, (s.objs.node n).sv = some v)
    (hfree : ∀ n ∈ nodes, ∀ v, (s.objs.node n).isGen = true → (s.objs.node n).sv = some v →
      s.producer v = none)
    (honce : ∀ n ∈ nodes, ∀ n' ∈ nodes, ∀ v, (s.objs.node n).isGen = true →
      (s.objs.node n').isGen = true → (s.objs.node n).sv = some v →
      (s.objs.node n').sv = some v → n = n') :
    ∃ info s₁, s.executorAddRequest sessionId rc = (.ok (some info),
        s₁.startCoroutines sessionId (rc.compChains.map .completionChain)) ∧ s.EdgesOnly s₁ ∧
      ∀ w p, s₁.producer w = some p ↔ s.producer w = some p ∨
        p ∈ nodes ∧ (s.objs.node p).isGen = true ∧ (s.objs.node p).sv = some w := by
  obtain ⟨v, hv⟩ := hfirst
  have hvar : s.nodeSv rc.firstNode = .ok v := by rw [nodeSv, hv]
  obtain ⟨info, s₁, hall, hedges, hproducer⟩ :=
    insertNodes_ok sessionId nodes [] hpools hnodup hsvs hfree honce
  have hgraph : s₁.EdgesOnly (s₁.setGraph sessionId { (s₁.sessions sessionId).graph with
      chains := (s₁.sessions sessionId).graph.chains ++ rc.compChains }) := .setGraph fun h => h
  refine ⟨info, _, ?_, hedges.trans hgraph, hproducer⟩
  rw [executorAddRequest, insertAndUpdateRequestChain, hvar]
  simp only [hid, Option.isSome_none, Bool.false_eq_true, if_false]
  rw [hiter]
  dsimp only
  rw [hall]

/-- Behind the insertion: outputs are activated, and sessions keep their books. -/
inductive Activates (s : RequestHeap) : RequestHeap → Prop
  | refl : Activates s s
  | activateSv {s' : RequestHeap} (v : SvRef) (criteria : PerformanceCriteria) :
      Activates s s' → Activates s (s'.activateSv v criteria).2
  | setSession {s' : RequestHeap} (sessionId : ℕ) (session : RequestSession) :
      Activates s s' → session.graph = (s'.sessions sessionId).graph →
        Activates s (s'.setSession sessionId session)

lemma Activates.trans (h : Activates s s') (h' : Activates s' s'') : Activates s s'' := by
  induction h' with
  | refl => exact h
  | activateSv v criteria _ ih => exact .activateSv v criteria ih
  | setSession sessionId session _ hgraph ih => exact .setSession sessionId session ih hgraph

/-- The objects, the variables and the edges stay. -/
lemma Activates.same (h : Activates s s') : s'.objs = s.objs ∧ s'.native = s.native ∧
    s'.producer = s.producer ∧ s'.vars = s.vars ∧ (s.PoolsOpen → s'.PoolsOpen) := by
  induction h with
  | refl => exact ⟨rfl, rfl, rfl, rfl, id⟩
  | activateSv v criteria _ ih =>
      have ht := activateSv_traversed (s := ‹RequestHeap›) v criteria
      refine ⟨ht.objs.trans ih.1, ht.native.trans ih.2.1, ht.producer.trans ih.2.2.1,
        ht.vars.trans ih.2.2.2.1, fun hs id => ?_⟩
      rw [ht.sessions]
      exact ih.2.2.2.2 hs id
  | setSession sessionId session _ hgraph ih =>
      refine ⟨ih.1, ih.2.1, ih.2.2.1, ih.2.2.2.1, fun hs id => ?_⟩
      rw [RequestHeap.setSession]
      dsimp only
      rw [Function.update_apply]
      split_ifs
      · rw [hgraph]
        exact ih.2.2.2.2 hs sessionId
      · exact ih.2.2.2.2 hs id

lemma Launches.activates {new : List ExecutionCoroutine} (h : Launches new s s')
    (ha : Activates s' s'') : Launches new s s'' :=
  have hsame := ha.same
  h.congr hsame.1 hsame.2.1 hsame.2.2.1 hsame.2.2.2.1 hsame.2.2.2.2

/-- The end of `_add_semantic_request` calls `activate_sv`, or raises before. -/
lemma activateLastOutput_activates (req : SemanticRequest) :
    Activates s (s.activateLastOutput req).2 ∧
      ∀ id, ((s.activateLastOutput req).2.sessions id) = s.sessions id := by
  have ht := activateLastOutput_traversed (s := s) req
  refine ⟨?_, fun id => congrFun ht.sessions id⟩
  unfold activateLastOutput
  split
  · exact .refl
  · split
    · exact .refl
    · split
      · exact .refl
      · split
        · exact .refl
        · split
          · exact .refl
          · exact .activateSv _ _ .refl

/-- A request that makes variables and no nodes. -/
lemma addSemanticRequest_onlyNew {payload : SemanticCallPayload}
    {result : Except PyError (Option SemanticRequest)} {vars : SemanticVariableManager}
    (hok : ParrotServe.addSemanticRequest uuid3 sessionId requestId now payload s.objs s.vars =
      (result, vars)) : OnlyNew s.vars vars := by
  obtain hsame | ⟨cachePrefix, kinds, hcreate⟩ :=
    addSemanticRequest_vars uuid3 sessionId requestId now payload s.objs s.vars
  · rw [hok] at hsame
    obtain rfl : vars = s.vars := hsame
    exact .refl _
  · rw [hok] at hcreate
    obtain rfl : vars = _ := hcreate
    exact (createVarsLoop_outputs kinds rfl).1

/-- The objects of a request that was built: old ones stay, and its chains are new. -/
lemma addSemanticRequest_appended (h : s.Ordered) (hends : s.objs.EndsOnce)
    {payload : SemanticCallPayload} {req : SemanticRequest} {vars : SemanticVariableManager}
    (hok : ParrotServe.addSemanticRequest uuid3 sessionId requestId now payload s.objs s.vars =
      (.ok (some req), vars)) :
    Appended s.objs.nextNode s.objs req.graph ∧ req.graph.EndsOnce := by
  obtain ⟨g₁, nodes, rs, -, hchain, hiter, -, hgraph⟩ :=
    SemanticRequest.addSemanticRequest_cases hok
  obtain ⟨happ, hends₁⟩ := fromChunkedRequest_appended h.forward hends hchain
  obtain ⟨hforward, -, hfirst, hlt⟩ := h.forward.fromChunkedRequest hchain
  have hrange := (hforward.requestNodes nodes (hfirst ▸ hlt) (yields_of_drain hiter)).2
  rw [hgraph]
  refine ⟨happ.trans (setSvs_appended _ fun n hn => ?_), ?_⟩
  · obtain ⟨x, hx, rfl⟩ := List.mem_map.mp hn
    exact hfirst ▸ (hrange x.1 (List.of_mem_zip hx).1).1
  · obtain ⟨-, hchains, hnext, -, -⟩ := setSvs_spec (nodes.zip rs) g₁
    exact hends₁.congr hnext.ge hchains (setSvs_chains _ g₁).1

/-- **A semantic request** with at most one output launches its chain. -/
lemma addSemanticRequest_launches (uuid3 : ℕ → Text → VarId) (sessionId requestId now : ℕ)
    (h : s.Ordered) (hgrounded : s.Grounded)
    (hends : s.objs.EndsOnce) (hpools : s.PoolsOpen) {payload : SemanticCallPayload}
    (hone : SemanticRequest.OneOutput payload) :
    ∃ s₁ new, Launches new s s₁ ∧ s₁.activation = s.activation ∧
      s₁.Activates (s.addSemanticRequest uuid3 sessionId requestId now payload).2 ∧
      ((s.addSemanticRequest uuid3 sessionId requestId now payload).2.sessions
        sessionId).coroutines = (s.sessions sessionId).coroutines ++ new := by
  unfold RequestHeap.addSemanticRequest
  split
  · rename_i vars hok
    exact ⟨{ s with vars }, [],
      .of_same rfl rfl rfl (addSemanticRequest_onlyNew hok) fun h => h, rfl, .refl,
      (List.append_nil _).symm⟩
  · rename_i vars hok
    exact ⟨{ s with vars }, [],
      .of_same rfl rfl rfl (addSemanticRequest_onlyNew hok) fun h => h, rfl, .refl,
      (List.append_nil _).symm⟩
  · rename_i req vars hok
    obtain ⟨nodes, rs, hnew, hvars⟩ := addSemanticRequest_newNodes h.forward hok
    obtain ⟨-, hext, -, -⟩ := addSemanticRequest_extended h hok
    have hord := h.extended hext
    obtain ⟨happ, hends'⟩ := addSemanticRequest_appended h hends hok
    obtain ⟨hgens, hchains⟩ := SemanticRequest.addSemanticRequest_genChain hone hok hnew
    obtain ⟨honly, hunset⟩ := createVarsLoop_outputs _ hvars
    obtain ⟨new, hrs, hunset⟩ := hunset rs rfl
    rw [List.nil_append] at hrs
    obtain rfl := hrs
    have hsvs : ∀ n ∈ nodes, ∃ v, (n, v) ∈ nodes.zip rs := by
      intro n hn
      rw [← List.map_fst_zip hnew.length.le] at hn
      obtain ⟨x, hx, rfl⟩ := List.mem_map.mp hn
      exact ⟨x.2, hx⟩
    have hsv : ∀ n ∈ nodes, ∀ v, (req.graph.node n).sv = some v ↔ (n, v) ∈ nodes.zip rs :=
      fun n hn v => hnew.svs (hnew.range n hn).1
    have hwrites : ∀ n ∈ nodes, ∀ v, (req.graph.node n).isGen = true →
        (req.graph.node n).sv = some v →
          Writes { s with vars, objs := req.graph } n v ∧ s.vars.next ≤ v := by
      intro n hn v hgen hv
      have hw : Writes { s with vars, objs := req.graph } n v := .inl ⟨hgen, hv⟩
      exact ⟨hw, (hext.writes (hnew.range n hn).1 hw).2.1⟩
    have hfirst : req.requestChain.firstNode ∈ nodes := by
      have hyields := yields_of_drain hnew.iter
      cases nodes with
      | nil => cases hyields
      | cons n rest =>
          obtain ⟨c, hc, -⟩ := hyields
          obtain ⟨hn, -⟩ := Prod.mk.inj (Option.some.inj (Except.ok.inj hc))
          exact hn ▸ List.mem_cons_self
    have hid : s.idInGraph req.requestChain.firstNode = none := by
      rw [hnew.first, ← Option.not_isSome_iff_eq_none]
      exact fun hsome => lt_irrefl _ (hgrounded.numbered hsome)
    obtain ⟨info, s₁, hadd, hedges, hproducer⟩ := executorAddRequest_ok
      (s := { s with vars, objs := req.graph }) hpools sessionId
      ((hsvs _ hfirst).imp fun v hv => (hsv _ hfirst v).mpr hv) hid hnew.iter
      (hnew.sorted.imp fun hab => hab.ne)
      (fun n hn => (hsvs n hn).imp fun v hv => (hsv n hn v).mpr hv)
      (fun n hn v hgen hv => by
        obtain ⟨-, hfresh⟩ := hwrites n hn v hgen hv
        cases hp : s.producer v with
        | none => rfl
        | some p => exact absurd (h.writes (h.producer hp)).2 hfresh.not_gt)
      (fun n hn n' hn' v hgen hgen' hv hv' =>
        hord.once (hwrites n hn v hgen hv).1 (hwrites n' hn' v hgen' hv').1)
    have hnone : ∀ p ∈ nodes, s₁.native p = none := by
      intro p hmem
      rw [hedges.native]
      cases hno : s.native p with
      | none => rfl
      | some node => exact absurd (h.native hno) (hnew.range p hmem).1.not_gt
    refine ⟨s₁, req.requestChain.compChains.map .completionChain, ?_, hedges.activation, ?_, ?_⟩
    · refine ⟨hedges.objs ▸ happ.nextNode, hedges.objs ▸ happ.nextChain,
        fun n hn => by rw [hedges.objs]; exact happ.node n hn,
        fun c hc => by rw [hedges.objs]; exact happ.chain c hc, fun n _ => by rw [hedges.native],
        hedges.vars ▸ honly, fun v p hp => (hproducer v p).mpr (.inl hp), fun v p hp => ?_,
        fun co hco => ?_, fun co hco => ?_, fun _ => hedges.objs ▸ hends', hedges.pools⟩
      · refine ((hproducer v p).mp hp).imp id fun ⟨hmem, hgen, hv⟩ => ?_
        obtain ⟨c, fills, vars', hc, hchain⟩ := hgens p hmem hgen
        refine ⟨(hwrites p hmem v hgen hv).2, ?_, .completionChain c, ?_, ?_, ?_, fills, vars', ?_⟩
        · rw [content, hedges.vars]
          refine hunset (((req.graph.node p).kind), v) ?_ hgen
          rw [List.zip_map_left]
          exact List.mem_map.mpr ⟨(p, v), (hsv p hmem v).mp hv, rfl⟩
        · rw [hc]
          exact List.mem_singleton_self _
        · exact hnone p hmem
        · rw [hedges.objs]
          exact hv
        · rw [hedges.objs]
          exact hchain
      · obtain ⟨c, hc, rfl⟩ := List.mem_map.mp hco
        obtain ⟨-, p, hmem, hgen, fills, vars', hchain⟩ := hchains c hc
        obtain ⟨v, hv⟩ := hsvs p hmem
        have hsv' := (hsv p hmem v).mpr hv
        exact ⟨v, p, (hproducer v p).mpr (.inr ⟨hmem, hgen, hsv'⟩), hnone p hmem,
          hedges.objs ▸ hsv', fills, vars', hedges.objs ▸ hchain⟩
      · obtain ⟨c, hc, rfl⟩ := List.mem_map.mp hco
        exact (hchains c hc).1
    all_goals
      rw [hadd]
      dsimp only
      obtain ⟨hact, hsame⟩ := activateLastOutput_activates (s := s₁.startCoroutines sessionId
        (req.requestChain.compChains.map .completionChain)) req
    · have hstart : s₁.Activates (s₁.startCoroutines sessionId
          (req.requestChain.compChains.map .completionChain)) := .setSession _ _ .refl rfl
      have hall := hstart.trans hact
      split
      · rename_i hlast
        rwa [hlast] at hall
      · rename_i hlast
        rwa [hlast] at hall
      · rename_i hlast
        rwa [hlast] at hall
    · have hco : (((s₁.startCoroutines sessionId
          (req.requestChain.compChains.map .completionChain)).sessions sessionId).coroutines) =
            (s.sessions sessionId).coroutines ++
              req.requestChain.compChains.map .completionChain := by
        rw [startCoroutines, setSession]
        dsimp only
        rw [Function.update_self, hedges.coroutines]
      rw [← hco, ← hsame sessionId]
      split
      · rename_i hlast
        rw [hlast]
      · rename_i hlast
        rw [hlast]
      · rename_i hlast
        rw [hlast]

/-! ## Native functions -/

lemma addConsumers_edgesOnly (n : NodeRef) (l : List SvRef) : ∀ s : RequestHeap,
    s.EdgesOnly (l.foldl (fun s var => s.addConsumer var n) s) ∧
      (l.foldl (fun s var => s.addConsumer var n) s).producer = s.producer := by
  induction l with
  | nil => exact fun s => ⟨.refl s, rfl⟩
  | cons v l ih =>
      intro s
      obtain ⟨hedges, hproducer⟩ := ih (s.addConsumer v n)
      have hone : s.EdgesOnly (s.addConsumer v n) := ⟨rfl, rfl, rfl, rfl, fun _ => rfl, id⟩
      exact ⟨hone.trans hedges, hproducer⟩

/-- The loop over the outputs, which nobody produces. -/
lemma assignProducers_ok (n : NodeRef) (l : List SvRef) : ∀ {s : RequestHeap}, l.Nodup →
    (∀ v ∈ l, s.producer v = none) → ∃ s', assignProducers n l s = (.ok (), s') ∧
      s.EdgesOnly s' ∧ ∀ w p, s'.producer w = some p ↔ s.producer w = some p ∨ w ∈ l ∧ p = n := by
  induction l with
  | nil => exact fun _ _ => ⟨_, rfl, .refl _, fun w p => by simp⟩
  | cons v l ih =>
      intro s hnodup hfree
      obtain ⟨hv, hnodup⟩ := List.nodup_cons.mp hnodup
      have hone : s.assignProducer v n =
          (.ok (), { s with producer := Function.update s.producer v (some n) }) := by
        rw [assignProducer, hfree v List.mem_cons_self]
      obtain ⟨s', hrest, hedges, hproducer⟩ :=
        ih (s := { s with producer := Function.update s.producer v (some n) }) hnodup
          fun w hw => by
            have hne : w ≠ v := by
              rintro rfl
              exact hv hw
            exact (Function.update_of_ne hne _ _).trans (hfree w (List.mem_cons_of_mem _ hw))
      refine ⟨s', ?_, ⟨hedges.vars, hedges.objs, hedges.native, hedges.activation,
        hedges.coroutines, hedges.pools⟩, fun w p => ?_⟩
      · rw [assignProducers, hone]
        exact hrest
      · rw [hproducer, List.mem_cons]
        dsimp only
        rw [Function.update_apply]
        split_ifs with hw
        · subst hw
          have hnone := hfree w List.mem_cons_self
          simp only [hnone, Option.some.injEq, reduceCtorEq, true_or, true_and, false_or]
          constructor
          · rintro (rfl | ⟨-, rfl⟩) <;> rfl
          · exact fun h => .inl h.symm
        · simp only [hw, false_or]

/-- A list of pairs that has the key. -/
lemma lookup_of_mem {α : Type} {key : Text} {a : α} {l : List (Text × α)} (h : (key, a) ∈ l) :
    ∃ b, l.lookup key = some b := by
  induction l with
  | nil => exact absurd h List.not_mem_nil
  | cons x l ih =>
      obtain ⟨key', b⟩ := x
      by_cases hkey : key = key'
      · exact ⟨b, by rw [hkey, List.lookup_cons_self]⟩
      · rcases List.mem_cons.mp h with heq | h
        · exact absurd (Prod.mk.inj heq).1 hkey
        · obtain ⟨c, hc⟩ := ih h
          exact ⟨c, by rw [List.lookup_cons, beq_eq_false_iff_ne.mpr hkey]; exact hc⟩

lemma exists_mapM_ok {ε α β : Type} {f : α → Except ε β} : ∀ {l : List α},
    (∀ a ∈ l, ∃ b, f a = .ok b) → ∃ bs, l.mapM f = .ok bs
  | [], _ => ⟨[], rfl⟩
  | a :: l, h => by
      obtain ⟨b, hb⟩ := h a List.mem_cons_self
      obtain ⟨bs, hbs⟩ := exists_mapM_ok fun a ha => h a (List.mem_cons_of_mem _ ha)
      exact ⟨b :: bs, by rw [List.mapM_cons, hb, hbs]; rfl⟩

/-- `PyNativeExecutor.add_native_func`, for a node with its variables. -/
lemma addNativeFunc_ok (hpools : s.PoolsOpen) (sessionId : ℕ) (n : NodeRef)
    (node : NativeFuncNode) (request : PyNativeCallRequest)
    (hnodup : (node.outputVars.map Prod.snd).Nodup)
    (hfree : ∀ v ∈ node.outputVars.map Prod.snd, s.producer v = none)
    (hkeys : ∀ key param, (key, param) ∈ request.parametersMap →
      ∃ r, (key, r) ∈ if param.isOutput then node.outputVars else node.inputVars) :
    ∃ info s₁, s.addNativeFunc sessionId n node request =
        (.ok info, s₁.startCoroutines sessionId [.nativeFunc n]) ∧ s.EdgesOnly s₁ ∧
      ∀ w p, s₁.producer w = some p ↔
        s.producer w = some p ∨ w ∈ node.outputVars.map Prod.snd ∧ p = n := by
  obtain ⟨s₁, henter, hedges, hproducer⟩ := enterNode_ok hpools sessionId n
  obtain ⟨hedges₂, hproducer₂⟩ := addConsumers_edgesOnly n (node.inputVars.map Prod.snd) s₁
  obtain ⟨s₃, hassign, hedges₃, hproducer₃⟩ := assignProducers_ok n (node.outputVars.map Prod.snd)
    (s := (node.inputVars.map Prod.snd).foldl (fun s var => s.addConsumer var n) s₁) hnodup
    fun v hv => by
      rw [hproducer₂, hproducer]
      exact hfree v hv
  have hinsert : s.insertNativeNode sessionId n node = (.ok (), s₃) := by
    rw [insertNativeNode, henter]
    exact hassign
  have hall : ∃ info, s.insertNativeFuncNode sessionId n node request = (.ok info, s₃) := by
    rw [insertNativeFuncNode, hinsert]
    simp only [Prod.mk.injEq, and_true]
    refine exists_mapM_ok fun x hx => ?_
    obtain ⟨r, hr⟩ := hkeys x.1 x.2 (List.mem_of_mem_filter hx)
    obtain ⟨b, hb⟩ := lookup_of_mem hr
    exact ⟨s₃.paramInfo x.2 b, by rw [hb]⟩
  obtain ⟨info, hinfo⟩ := hall
  refine ⟨info, s₃, ?_, hedges.trans (hedges₂.trans hedges₃), fun w p => ?_⟩
  · rw [addNativeFunc, hinfo]
  · rw [hproducer₃, hproducer₂, hproducer]

/-- The end of `_add_py_native_request`. -/
lemma activateOutputs_activates (criteria : PerformanceCriteria) (outputs : List SvRef) :
    ∀ s : RequestHeap, s.Activates (activateOutputs criteria outputs s).2 := by
  induction outputs with
  | nil => exact fun _ => .refl
  | cons v outputs ih =>
      intro s
      have hone : s.Activates (s.activateSv v criteria).2 := .activateSv v criteria .refl
      unfold activateOutputs
      split
      · rename_i hok
        rwa [hok] at hone
      · rename_i hok
        rwa [hok] at hone
      · rename_i hok
        rw [hok] at hone
        exact hone.trans (ih _)

lemma activateNativeOutputs_activates (request : PyNativeCallRequest) (node : NativeFuncNode) :
    s.Activates (s.activateNativeOutputs request node).2 := by
  unfold activateNativeOutputs
  split
  · exact .refl
  · split
    · exact .refl
    · exact activateOutputs_activates _ _ _

/-- **A native function** whose outputs have no initial values launches its coroutine. -/
lemma addPyNativeRequest_launches (uuid3 : ℕ → Text → VarId) (sessionId : ℕ)
    (h : s.Ordered) (hpools : s.PoolsOpen)
    {request : PyNativeCallRequest}
    (hvalues : ∀ x ∈ request.parametersMap, x.2.isOutput = true → x.2.value = none) :
    ∃ s₁ new, Launches new s s₁ ∧ s₁.activation = s.activation ∧
      s₁.Activates (s.addPyNativeRequest uuid3 sessionId request).2 ∧
      ((s.addPyNativeRequest uuid3 sessionId request).2.sessions sessionId).coroutines =
        (s.sessions sessionId).coroutines ++ new := by
  unfold addPyNativeRequest
  split
  · rename_i vars hok
    exact ⟨{ s with vars }, [],
      .of_same rfl rfl rfl (createVarsForPynativeFunc_outputs 0 _ hok).1 fun h => h, rfl,
      .refl, (List.append_nil _).symm⟩
  · rename_i inputVars outputVars vars hok
    obtain ⟨honly, hall⟩ :=
      createVarsForPynativeFunc_outputs s.vars.next request.parametersMap hok
    obtain ⟨hkeys, -, -, houtputs⟩ := hall inputVars outputVars rfl
    have houts := houtputs hvalues le_rfl ⟨List.nodup_nil, by simp, by simp⟩
    obtain ⟨info, s₁, hadd, hedges, hproducer⟩ := addNativeFunc_ok
      (s := (newNativeNode { s with vars } { inputVars, outputVars }).2) hpools sessionId
      s.objs.nextNode { inputVars, outputVars } request houts.nodup
      (fun v hv => by
        obtain ⟨x, hx, rfl⟩ := List.mem_map.mp hv
        cases hp : s.producer x.2 with
        | none => exact hp
        | some p =>
            exact absurd (h.writes (h.producer hp)).2 (houts.range x hx).1.not_gt) hkeys
    have hnative : ∀ m, s₁.native m =
        if m = s.objs.nextNode then some { inputVars, outputVars } else s.native m := fun m => by
      rw [hedges.native]
      exact Function.update_apply _ _ _ _
    have hnode : s₁.objs = { s.objs with nextNode := s.objs.nextNode + 1 } := hedges.objs
    refine ⟨s₁, [.nativeFunc s.objs.nextNode], ?_, hedges.activation, ?_, ?_⟩
    · refine ⟨by rw [hnode]; exact Nat.le_succ _, by rw [hnode], fun n _ => by rw [hnode],
        fun c _ => by rw [hnode], fun n hn => by rw [hnative, if_neg hn.ne],
        hedges.vars ▸ honly, fun v p hp => (hproducer v p).mpr (.inl hp), fun v p hp => ?_,
        fun co hco => ?_, fun co hco => ?_, fun hs => hnode ▸ hs.congr (Nat.le_succ _) rfl rfl,
        hedges.pools⟩
      · refine ((hproducer v p).mp hp).imp id ?_
        rintro ⟨hv, rfl⟩
        obtain ⟨x, hx, rfl⟩ := List.mem_map.mp hv
        refine ⟨(houts.range x hx).1, ?_, _, List.mem_singleton_self _, rfl, ?_, _, ?_, hv,
          houts.nodup⟩
        · rw [content, hedges.vars]
          exact houts.unset x hx
        · rw [hnode]
          exact Nat.lt_succ_self _
        · rw [hnative, if_pos rfl]
      · obtain rfl := List.mem_singleton.mp hco
        refine ⟨?_, _, (hnative _).trans (if_pos rfl), houts.nodup, fun v hv =>
          (hproducer v _).mpr (.inr ⟨hv, rfl⟩)⟩
        rw [hnode]
        exact Nat.lt_succ_self _
      · obtain rfl := List.mem_singleton.mp hco
        exact le_rfl
    all_goals
      dsimp only
      rw [show (newNativeNode { s with vars } { inputVars, outputVars }).1 = s.objs.nextNode
        from rfl, hadd]
      dsimp only
      have hact := activateNativeOutputs_activates
        (s := s₁.startCoroutines sessionId [.nativeFunc s.objs.nextNode]) request
        { inputVars, outputVars }
      have htraversed := activateNativeOutputs_traversed
        (s := s₁.startCoroutines sessionId [.nativeFunc s.objs.nextNode]) request
        { inputVars, outputVars }
    · have hstart : s₁.Activates
          (s₁.startCoroutines sessionId [.nativeFunc s.objs.nextNode]) := .setSession _ _ .refl rfl
      have hall := hstart.trans hact
      split
      · rename_i hlast
        rwa [hlast] at hall
      · rename_i hlast
        rwa [hlast] at hall
      · rename_i hlast
        rwa [hlast] at hall
    · have hco : ((s₁.startCoroutines sessionId [.nativeFunc s.objs.nextNode]).sessions
          sessionId).coroutines = (s.sessions sessionId).coroutines ++
            [.nativeFunc s.objs.nextNode] := by
        rw [startCoroutines, setSession]
        dsimp only
        rw [Function.update_self, hedges.coroutines]
        rfl
      rw [← hco, ← htraversed.sessions]
      split
      · rename_i hlast
        rw [hlast]
      · rename_i hlast
        rw [hlast]
      · rename_i hlast
        rw [hlast]

end RequestHeap

end ParrotServe
