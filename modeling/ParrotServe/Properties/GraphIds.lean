import ParrotServe.Properties.ConstructedRequests

/-!
# The ids of the nodes in a graph

A graph draws the ids of its nodes from a pool.  In every order of insertions and removals, also
behind those that raise in the middle, the live ids of the pool are the ids of the nodes in the
graph, and no two nodes have the same (`Numbered`, `graph_invariant`).

`NodesEntered` and `NodesRemoved` say what insertions and removals do to a graph, to the ids of the
nodes and to the edges of the variables.
-/

namespace ParrotServe

/-! ## The ids of a graph -/

namespace NodeGraph

variable {graph : NodeGraph} {ids : NodeRef → Option ℕ} {n : NodeRef}

/-- The nodes of a graph have the live ids of its pool, each its own. -/
structure Numbered (graph : NodeGraph) (ids : NodeRef → Option ℕ) : Prop where
  nodup : graph.nodes.Nodup
  once : ∀ n ∈ graph.nodes, ∃ id, ids n = some id ∧ ∀ m ∈ graph.nodes, ids m = some id → m = n
  live : ∀ id, id ∈ graph.nodeIdPool.liveIds ↔ ∃ n ∈ graph.nodes, ids n = some id
  owns : graph.nodeIdPool.Owns graph.nodeIdPool.liveIds
  size : graph.nodeIdPool.poolSize = none

lemma numbered_empty : Numbered {} ids where
  nodup := List.nodup_nil
  once _ hn := absurd hn List.not_mem_nil
  live id := ⟨fun h => absurd h.1 (Nat.not_lt_zero id),
    fun ⟨_, hn, _⟩ => absurd hn List.not_mem_nil⟩
  owns := (RecyclePool.owns_empty _ _ _).mono fun id h => absurd h.1 (Nat.not_lt_zero id)
  size := rfl

/-- A new node takes an id that is not live. -/
lemma Numbered.enter (h : graph.Numbered ids) (hn : n ∉ graph.nodes) {id : ℕ} {pool : RecyclePool}
    (ha : graph.nodeIdPool.allocate = (.ok id, pool)) :
    Numbered { graph with nodes := graph.nodes.insert n, nodeIdPool := pool }
      (Function.update ids n (some id)) := by
  obtain ⟨hid, howns⟩ := h.owns.allocate_ok ha
  have hfree : ∀ m ∈ graph.nodes, ids m ≠ some id := fun m hm hmid =>
    hid ((h.live id).mpr ⟨m, hm, hmid⟩)
  have hother : ∀ m ∈ graph.nodes, Function.update ids n (some id) m = ids m := fun m hm =>
    Function.update_of_ne (ne_of_mem_of_not_mem hm hn) _ _
  have hlive : pool.liveIds = insert id graph.nodeIdPool.liveIds :=
    Set.ext fun _ => h.owns.mem_liveIds_allocate ha
  have hsize : pool.poolSize = none := by
    have hsame := RecyclePool.allocate_poolSize graph.nodeIdPool
    rwa [ha, h.size] at hsame
  refine ⟨h.nodup.insert, ?_, fun x => ?_, hlive ▸ howns, hsize⟩
  · simp only [List.mem_insert_iff, forall_eq_or_imp, Function.update_self]
    refine ⟨⟨id, rfl, fun _ => trivial, fun m hm hmid => ?_⟩, fun m hm => ?_⟩
    · exact absurd (hother m hm ▸ hmid) (hfree m hm)
    · obtain ⟨x, hx, honce⟩ := h.once m hm
      refine ⟨x, (hother m hm).trans hx, fun hnx => ?_, fun m' hm' hx' =>
        honce m' hm' (hother m' hm' ▸ hx')⟩
      exact absurd (hx.trans hnx.symm) (hfree m hm)
  · simp only [hlive, Set.mem_insert_iff, h.live, List.mem_insert_iff, exists_eq_or_imp,
      Function.update_self, Option.some.injEq]
    refine or_congr eq_comm (exists_congr fun m => and_congr_right fun hm => ?_)
    rw [hother m hm]

/-- A node that leaves gives its id back. -/
lemma Numbered.leave (h : graph.Numbered ids) (hn : n ∈ graph.nodes) :
    ∃ id, ids n = some id ∧ (graph.nodeIdPool.free id).1 = .ok () ∧
      Numbered { graph with
        nodes := graph.nodes.erase n, nodeIdPool := (graph.nodeIdPool.free id).2 } ids := by
  obtain ⟨id, hid, honce⟩ := h.once n hn
  have hmem : id ∈ graph.nodeIdPool.liveIds := (h.live id).mpr ⟨n, hn, hid⟩
  obtain ⟨hok, -, howns⟩ := h.owns.free_ok hmem
  have hlive : (graph.nodeIdPool.free id).2.liveIds = graph.nodeIdPool.liveIds \ {id} :=
    Set.ext fun _ => h.owns.mem_liveIds_free hmem
  refine ⟨id, hid, hok, h.nodup.erase n, fun m hm => ?_, fun x => ?_, hlive ▸ howns, ?_⟩
  · obtain ⟨x, hx, honce'⟩ := h.once m (List.mem_of_mem_erase hm)
    exact ⟨x, hx, fun m' hm' => honce' m' (List.mem_of_mem_erase hm')⟩
  · simp only [hlive, Set.mem_sdiff, Set.mem_singleton_iff, h.live, h.nodup.mem_erase_iff]
    refine ⟨fun ⟨⟨m, hm, hx⟩, hne⟩ => ⟨m, ⟨fun he => hne ?_, hm⟩, hx⟩,
      fun ⟨m, ⟨hne, hm⟩, hx⟩ => ⟨⟨m, hm, hx⟩, fun he => hne (honce m hm (he ▸ hx))⟩⟩
    rw [he, hid] at hx
    exact (Option.some.inj hx).symm
  · rw [RecyclePool.free_poolSize]
    exact h.size

end NodeGraph

namespace RequestHeap

open GraphObjects

variable {s s' s'' : RequestHeap} {sessionId : ℕ} {n : NodeRef} {ns ns' : List NodeRef} {v : SvRef}

/-- The graph of a session. -/
abbrev graph (s : RequestHeap) (sessionId : ℕ) : NodeGraph := (s.sessions sessionId).graph

@[simp] lemma setGraph_graph (graph : NodeGraph) :
    ((s.setGraph sessionId graph).sessions sessionId).graph = graph := by
  simp [setGraph, setSession]

/-- The nodes and the chains of the graph were constructed, and its nodes have their ids. -/
structure GraphInv (sessionId : ℕ) (s : RequestHeap) : Prop where
  numbered : (s.graph sessionId).Numbered s.idInGraph
  bound : ∀ n ∈ (s.graph sessionId).nodes, n < s.objs.nextNode
  chains : ∀ c ∈ (s.graph sessionId).chains, c < s.objs.nextChain

/-- The invariant, read off the graph. -/
lemma GraphInv.of_graph {graph : NodeGraph} (hgraph : s.graph sessionId = graph)
    (hnumbered : graph.Numbered s.idInGraph) (hbound : ∀ n ∈ graph.nodes, n < s.objs.nextNode)
    (hchains : ∀ c ∈ graph.chains, c < s.objs.nextChain) : GraphInv sessionId s := by
  subst hgraph
  exact ⟨hnumbered, hbound, hchains⟩

/-- More objects, in no graph. -/
lemma GraphInv.congr (h : GraphInv sessionId s) (hgraph : s'.graph sessionId = s.graph sessionId)
    (hids : s'.idInGraph = s.idInGraph) (hnode : s.objs.nextNode ≤ s'.objs.nextNode)
    (hchain : s.objs.nextChain ≤ s'.objs.nextChain) : GraphInv sessionId s' :=
  .of_graph hgraph (hids ▸ h.numbered) (fun n hn => (h.bound n hn).trans_le hnode)
    fun c hc => (h.chains c hc).trans_le hchain

/-- A node that was never inserted is not in the graph. -/
lemma GraphInv.not_mem (h : GraphInv sessionId s)
    (hn : s.objs.nextNode ≤ n ∨ s.idInGraph n = none) : n ∉ (s.graph sessionId).nodes := by
  intro hmem
  rcases hn with hn | hn
  · exact absurd (h.bound n hmem) hn.not_gt
  · obtain ⟨id, hid, -⟩ := h.numbered.once n hmem
    rw [hn] at hid
    cases hid

/-! ## Insertions -/

/-- The nodes `ns` enter the graph, and edges are added. -/
structure NodesEntered (sessionId : ℕ) (ns : List NodeRef) (s s' : RequestHeap) : Prop where
  inv : GraphInv sessionId s'
  objs : s'.objs = s.objs
  nodes : ∀ m, m ∈ (s'.graph sessionId).nodes ↔ m ∈ ns ∨ m ∈ (s.graph sessionId).nodes
  chains : (s'.graph sessionId).chains = (s.graph sessionId).chains
  ids : ∀ m ∉ ns, s'.idInGraph m = s.idInGraph m
  producer : ∀ {v p}, s.producer v = some p → s'.producer v = some p
  consumers : ∀ v, s.consumers v <+: s'.consumers v

/-- Only edges are added. -/
lemma NodesEntered.of_edges (h : GraphInv sessionId s) (hobjs : s'.objs = s.objs)
    (hsessions : s'.sessions = s.sessions) (hids : s'.idInGraph = s.idInGraph)
    (hproducer : ∀ {v p}, s.producer v = some p → s'.producer v = some p)
    (hconsumers : ∀ v, s.consumers v <+: s'.consumers v) : NodesEntered sessionId [] s s' where
  inv := h.congr (by rw [graph, hsessions]) hids (hobjs ▸ le_rfl) (hobjs ▸ le_rfl)
  objs := hobjs
  nodes m := by simp [graph, hsessions]
  chains := by rw [graph, hsessions]
  ids _ _ := by rw [hids]
  producer := hproducer
  consumers := hconsumers

lemma NodesEntered.refl (h : GraphInv sessionId s) : NodesEntered sessionId [] s s :=
  .of_edges h rfl rfl rfl (fun hp => hp) fun _ => List.prefix_rfl

lemma NodesEntered.trans (h : NodesEntered sessionId ns s s')
    (h' : NodesEntered sessionId ns' s' s'') : NodesEntered sessionId (ns ++ ns') s s'' where
  inv := h'.inv
  objs := h'.objs.trans h.objs
  nodes m := by rw [h'.nodes, h.nodes, List.mem_append, or_left_comm, or_assoc]
  chains := h'.chains.trans h.chains
  ids m hm := by
    rw [List.mem_append, not_or] at hm
    exact (h'.ids m hm.2).trans (h.ids m hm.1)
  producer hp := h'.producer (h.producer hp)
  consumers v := (h.consumers v).trans (h'.consumers v)

/-- The variable of a node lists it. -/
def Lists (s : RequestHeap) (n : NodeRef) : Prop :=
  ∃ v, (s.objs.node n).sv = some v ∧
    if (s.objs.node n).isGen then s.producer v = some n else n ∈ s.consumers v

lemma Lists.entered (h : s.Lists n) (he : NodesEntered sessionId ns s s') : s'.Lists n := by
  obtain ⟨v, hv, hlists⟩ := h
  rw [← he.objs] at hv hlists
  refine ⟨v, hv, ?_⟩
  split_ifs at hlists ⊢
  · exact he.producer hlists
  · exact (he.consumers v).subset hlists

lemma enterNode_entered (h : GraphInv sessionId s) (hn : n ∉ (s.graph sessionId).nodes)
    (hlt : n < s.objs.nextNode) : (s.enterNode sessionId n).1 = .ok () ∧
      NodesEntered sessionId [n] s (s.enterNode sessionId n).2 := by
  obtain ⟨id, pool, ha⟩ := RecyclePool.allocate_unbounded h.numbered.size
  have henter := h.numbered.enter hn ha
  rw [enterNode, ha]
  dsimp only
  refine ⟨rfl, .of_graph (setGraph_graph _) henter (fun m hm => ?_) h.chains, rfl, fun m => ?_, ?_,
    fun m hm => ?_, fun hp => hp, fun _ => List.prefix_rfl⟩
  · exact (List.mem_insert_iff.mp hm).elim (fun he => he ▸ hlt) (h.bound m)
  · rw [graph, setGraph_graph, List.mem_singleton]
    exact List.mem_insert_iff
  · rw [graph, setGraph_graph]
  · exact Function.update_of_ne (fun he => hm (List.mem_singleton.mpr he)) _ _

lemma assignProducer_entered (h : GraphInv sessionId s) :
    NodesEntered sessionId [] s (s.assignProducer v n).2 := by
  rw [assignProducer]
  split
  · exact .refl h
  · rename_i hnone
    refine .of_edges h rfl rfl rfl (fun {w p} hp => ?_) fun _ => List.prefix_rfl
    have hne : w ≠ v := by
      rintro rfl
      rw [hnone] at hp
      cases hp
    exact (Function.update_of_ne hne _ _).trans hp

lemma addConsumer_entered (h : GraphInv sessionId s) :
    NodesEntered sessionId [] s (s.addConsumer v n) := by
  refine .of_edges h rfl rfl rfl (fun hp => hp) fun w => ?_
  simp only [addConsumer, Function.update_apply]
  split_ifs with hw
  · exact hw ▸ List.prefix_append _ _
  · exact List.prefix_rfl

/-- The variable of a node did not list it, and now does. -/
def NewEdge (n : NodeRef) (s s' : RequestHeap) : Prop :=
  ∃ v, (s'.objs.node n).sv = some v ∧
    if (s'.objs.node n).isGen then s.producer v = none ∧ s'.producer v = some n
    else s'.consumers v = s.consumers v ++ [n]

lemma NewEdge.lists (h : NewEdge n s s') : s'.Lists n := by
  obtain ⟨v, hv, hedge⟩ := h
  refine ⟨v, hv, ?_⟩
  split_ifs at hedge ⊢
  · exact hedge.2
  · rw [hedge]
    exact List.mem_append_right _ (List.mem_singleton_self n)

/-- A new edge stays. -/
lemma NewEdge.edges_ne (h : NewEdge n s s') (he : NodesEntered sessionId ns s' s'') :
    ¬ (s''.producer = s.producer ∧ s''.consumers = s.consumers) := by
  rintro ⟨hproducer, hconsumers⟩
  obtain ⟨v, -, hedge⟩ := h
  split_ifs at hedge
  · have hp := he.producer hedge.2
    rw [hproducer, hedge.1] at hp
    cases hp
  · have hlen := (he.consumers v).length_le
    rw [hconsumers, hedge, List.length_append, List.length_singleton] at hlen
    exact absurd hlen (Nat.lt_succ_self _).not_ge

/-- **Step lemma for insertions.** -/
lemma insertSemanticNode_entered (h : GraphInv sessionId s) (hn : n ∉ (s.graph sessionId).nodes)
    (hlt : n < s.objs.nextNode) :
    NodesEntered sessionId [n] s (s.insertSemanticNode sessionId n).2 ∧
      ((s.insertSemanticNode sessionId n).1 = .ok () →
        NewEdge n s (s.insertSemanticNode sessionId n).2) := by
  obtain ⟨hok, henter⟩ := enterNode_entered h hn hlt
  have hedges : (s.enterNode sessionId n).2.producer = s.producer ∧
      (s.enterNode sessionId n).2.consumers = s.consumers := by
    rw [enterNode]
    dsimp only
    split
    · exact ⟨rfl, rfl⟩
    · exact ⟨rfl, rfl⟩
  rw [insertSemanticNode]
  generalize s.enterNode sessionId n = r at *
  obtain ⟨r, s₁⟩ := r
  obtain rfl : r = .ok () := hok
  dsimp only at henter hedges ⊢
  cases hv : s₁.nodeSv n with
  | error e => exact ⟨henter, fun hok => by cases hok⟩
  | ok v =>
      have hsv : (s₁.objs.node n).sv = some v := by
        rw [nodeSv] at hv
        split at hv
        · cases hv
        · rename_i hsv
          rw [hsv, Except.ok.inj hv]
      dsimp only
      split_ifs with hgen
      · refine ⟨henter.trans (assignProducer_entered henter.inv), fun hok => ?_⟩
        rw [assignProducer] at hok ⊢
        split at hok
        · cases hok
        · rename_i hnone
          refine ⟨v, hsv, ?_⟩
          rw [if_pos hgen]
          exact ⟨hedges.1 ▸ hnone, Function.update_self _ _ _⟩
      · refine ⟨henter.trans (addConsumer_entered henter.inv), fun _ => ⟨v, hsv, ?_⟩⟩
        rw [addConsumer, if_neg hgen, ← hedges.2]
        exact Function.update_self _ _ _

/-- **The nodes of a request** enter one after the other. -/
lemma insertNodes_entered (nodes : List NodeRef) : ∀ {info : List ParamInfo} {s : RequestHeap},
    GraphInv sessionId s → nodes.Nodup →
    (∀ n ∈ nodes, n ∉ (s.graph sessionId).nodes ∧ n < s.objs.nextNode) →
    ∃ entered, NodesEntered sessionId entered s (insertNodes sessionId nodes info s).2 ∧
      ∀ info', (insertNodes sessionId nodes info s).1 = .ok info' → entered = nodes ∧
        (∀ n ∈ nodes, (insertNodes sessionId nodes info s).2.Lists n) ∧
        (nodes ≠ [] → ¬ ((insertNodes sessionId nodes info s).2.producer = s.producer ∧
          (insertNodes sessionId nodes info s).2.consumers = s.consumers)) := by
  induction nodes with
  | nil => exact fun h _ _ => ⟨[], .refl h, fun _ _ => ⟨rfl, by simp, fun hne => absurd rfl hne⟩⟩
  | cons n nodes ih =>
      intro info s h hnodup hfresh
      obtain ⟨hn, hlt⟩ := hfresh n List.mem_cons_self
      obtain ⟨hnot, hnodup⟩ := List.nodup_cons.mp hnodup
      obtain ⟨henter, hedge⟩ := insertSemanticNode_entered h hn hlt
      rw [insertNodes]
      generalize s.insertSemanticNode sessionId n = r at *
      obtain ⟨r | _, s₁⟩ := r
      · exact ⟨[n], henter, fun _ hok => by cases hok⟩
      · dsimp only at henter hedge ⊢
        obtain ⟨entered, hrest, hok⟩ := @ih (info ++ s₁.nodeParamInfo n) s₁ henter.inv hnodup
          fun m hm => by
            rw [henter.nodes, List.mem_singleton, not_or, henter.objs]
            have hm' := hfresh m (List.mem_cons_of_mem _ hm)
            exact ⟨⟨ne_of_mem_of_not_mem hm hnot, hm'.1⟩, hm'.2⟩
        refine ⟨n :: entered, henter.trans hrest, fun info' hinfo => ?_⟩
        obtain ⟨rfl, hlists, -⟩ := hok info' hinfo
        exact ⟨rfl, List.forall_mem_cons.mpr ⟨(hedge rfl).lists.entered hrest, hlists⟩,
          fun _ => (hedge rfl).edges_ne hrest⟩

/-! ## Requests -/

/-- A request with the nodes `ns` was inserted. -/
structure InsertedAs (sessionId : ℕ) (rc : RequestChain) (ns : List NodeRef) (ks : List NodeKind)
    (s s' : RequestHeap) : Prop where
  inv : GraphInv sessionId s'
  constructed : Constructed s.objs s'.objs rc ns ks
  fresh : ∀ n ∈ ns, n ∉ (s.graph sessionId).nodes
  nodes : ∀ m, m ∈ (s'.graph sessionId).nodes ↔ m ∈ ns ∨ m ∈ (s.graph sessionId).nodes
  chains : (s'.graph sessionId).chains = (s.graph sessionId).chains ++ rc.compChains
  ids : ∀ m ∉ ns, s'.idInGraph m = s.idInGraph m
  lists : ∀ n ∈ ns, s'.Lists n
  edges : ¬ (s'.producer = s.producer ∧ s'.consumers = s.consumers)
  oneChain : OneOutputLast ks → ∃ c, rc.compChains = [c] ∧
    Yields s'.objs.completionChainNext (s'.objs.chain c).firstNode ns

/-- `insert_and_update_request_chain`, for a request of nodes that are in no graph. -/
lemma insertAndUpdateRequestChain_spec (h : GraphInv sessionId s) {rc : RequestChain}
    (hiter : s.objs.requestIter rc = .ok (some ns)) (hnodup : ns.Nodup)
    (hfresh : ∀ n ∈ ns, n ∉ (s.graph sessionId).nodes ∧ n < s.objs.nextNode)
    (hchains : ∀ c ∈ rc.compChains, c < s.objs.nextChain) :
    GraphInv sessionId (s.insertAndUpdateRequestChain sessionId rc).2 ∧
      ∀ info, (s.insertAndUpdateRequestChain sessionId rc).1 = .ok (some info) →
        ∃ s₁, NodesEntered sessionId ns s s₁ ∧ (∀ n ∈ ns, s₁.Lists n) ∧
          (ns ≠ [] → ¬ (s₁.producer = s.producer ∧ s₁.consumers = s.consumers)) ∧
          (s.insertAndUpdateRequestChain sessionId rc).2 = s₁.setGraph sessionId
            { s₁.graph sessionId with
              chains := (s₁.graph sessionId).chains ++ rc.compChains } := by
  obtain ⟨entered, henter, hok⟩ := @insertNodes_entered sessionId ns [] s h hnodup hfresh
  rw [insertAndUpdateRequestChain]
  split
  · exact ⟨h, fun _ hinfo => by cases hinfo⟩
  split_ifs
  · exact ⟨h, fun _ hinfo => by cases hinfo⟩
  rw [hiter]
  dsimp only
  generalize insertNodes sessionId ns [] s = r at *
  obtain ⟨e | info, s₁⟩ := r
  · exact ⟨henter.inv, fun _ hinfo => by cases hinfo⟩
  obtain ⟨rfl, hlists, hedges⟩ := hok info rfl
  refine ⟨.of_graph (setGraph_graph _) { henter.inv.numbered with } henter.inv.bound
    fun c hc => ?_, fun _ _ => ⟨s₁, henter, hlists, hedges, rfl⟩⟩
  rcases List.mem_append.mp hc with hc | hc
  · exact henter.inv.chains c hc
  · exact (hchains c hc).trans_eq (congrArg _ henter.objs.symm)

/-- **A request is constructed and inserted.** -/
lemma insertRequest_spec (h : GraphInv sessionId s) {source : RequestConstructor}
    (hsource : s.Constructible source) (varOf : NodeRef → SvRef) :
    GraphInv sessionId (s.insertRequest sessionId source varOf).2 ∧
      ∀ rc, (s.insertRequest sessionId source varOf).1 = .ok (some rc) →
        ∃ ns, InsertedAs sessionId rc ns (source.kinds s.objs) s
          (s.insertRequest sessionId source varOf).2 := by
  rw [insertRequest]
  split
  · exact ⟨h, fun _ hrc => by cases hrc⟩
  · exact ⟨h, fun _ hrc => by cases hrc⟩
  rename_i rc objs hconstruct
  obtain ⟨ns, hns, hnew⟩ := construct_constructed hsource hconstruct
  have hone := construct_one_chain hsource hconstruct hns
  split
  · exact ⟨h, fun _ hrc => by cases hrc⟩
  · exact ⟨h, fun _ hrc => by cases hrc⟩
  rename_i objs' hgive
  obtain ⟨hns', hedges, hchain, hiter, -⟩ := giveVariables_spec hns hgive
  have h' : GraphInv sessionId { s with objs := objs' } :=
    h.congr rfl rfl hns'.nextNode hns'.nextChain
  have hfresh : ∀ n ∈ ns, n ∉ (s.graph sessionId).nodes := fun n hn => h.not_mem (hnew n hn)
  obtain ⟨hinv, hok⟩ := insertAndUpdateRequestChain_spec h' hiter hns'.built.linked.nodup
    (fun n hn => ⟨hfresh n hn, hns'.built.bound n hn⟩) fun c hc => (hns'.chains c hc).2
  generalize insertAndUpdateRequestChain { s with objs := objs' } sessionId rc = r at *
  obtain ⟨e | _ | info, s'⟩ := r
  · exact ⟨hinv, fun _ hrc => by cases hrc⟩
  · exact ⟨hinv, fun _ hrc => by cases hrc⟩
  refine ⟨hinv, fun rc' hrc => ?_⟩
  obtain rfl : rc = rc' := Option.some.inj (Except.ok.inj hrc)
  obtain ⟨s₁, henter, hlists, hne, rfl⟩ := hok _ rfl
  have hobjs : s₁.objs = objs' := henter.objs
  refine ⟨ns, hinv, ?_, hfresh, fun m => ?_, ?_, henter.ids, hlists, hne fun hnil => ?_,
    fun hks => ?_⟩
  · exact hobjs.symm ▸ hns'
  · rw [graph, setGraph_graph]
    exact henter.nodes m
  · rw [graph, setGraph_graph]
    exact congrArg (· ++ rc.compChains) henter.chains
  · have hfirst := hns.first
    rw [hnil] at hfirst
    cases hfirst
  · obtain ⟨c, hc, hl⟩ := hone hks
    refine ⟨c, hc, ?_⟩
    dsimp only [setGraph, setSession]
    rw [hobjs, hedges.completionChainNext_eq, hchain]
    exact hl

/-! ## Native nodes -/

lemma assignProducers_inv (l : List SvRef) : ∀ {s : RequestHeap}, GraphInv sessionId s →
    GraphInv sessionId (assignProducers n l s).2 := by
  induction l with
  | nil => exact fun h => h
  | cons v l ih =>
      intro s h
      have hone := (assignProducer_entered (n := n) (v := v) h).inv
      rw [assignProducers]
      split
      · rename_i hok
        rwa [hok] at hone
      · rename_i hok
        rw [hok] at hone
        exact ih hone

lemma addConsumers_inv (l : List SvRef) : ∀ {s : RequestHeap}, GraphInv sessionId s →
    GraphInv sessionId (l.foldl (fun s var => s.addConsumer var n) s) := by
  induction l with
  | nil => exact fun h => h
  | cons v l ih => exact fun h => ih (addConsumer_entered h).inv

/-- `insert_native_func_node`. -/
lemma insertNativeFuncNode_inv (h : GraphInv sessionId s) (hn : n ∉ (s.graph sessionId).nodes)
    (hlt : n < s.objs.nextNode) (node : NativeFuncNode) (request : PyNativeCallRequest) :
    GraphInv sessionId (s.insertNativeFuncNode sessionId n node request).2 := by
  obtain ⟨hok, henter⟩ := enterNode_entered h hn hlt
  have hinsert : GraphInv sessionId (s.insertNativeNode sessionId n node).2 := by
    rw [insertNativeNode]
    generalize s.enterNode sessionId n = r at *
    obtain ⟨r, s₁⟩ := r
    obtain rfl : r = .ok () := hok
    exact assignProducers_inv _ (addConsumers_inv _ henter.inv)
  rw [insertNativeFuncNode]
  generalize s.insertNativeNode sessionId n node = r at *
  obtain ⟨e | _, s₁⟩ := r
  · exact hinsert
  · exact hinsert

/-! ## Removals -/

/-- The nodes `ns` leave the graph, and the edges stay. -/
structure NodesRemoved (sessionId : ℕ) (ns : List NodeRef) (s s' : RequestHeap) : Prop where
  inv : GraphInv sessionId s'
  objs : s'.objs = s.objs
  nodes : ∀ m, m ∈ (s'.graph sessionId).nodes ↔ m ∉ ns ∧ m ∈ (s.graph sessionId).nodes
  ids : s'.idInGraph = s.idInGraph
  producer : s'.producer = s.producer
  consumers : s'.consumers = s.consumers

lemma NodesRemoved.refl (h : GraphInv sessionId s) : NodesRemoved sessionId [] s s :=
  ⟨h, rfl, fun _ => by simp, rfl, rfl, rfl⟩

lemma NodesRemoved.trans (h : NodesRemoved sessionId ns s s')
    (h' : NodesRemoved sessionId ns' s' s'') : NodesRemoved sessionId (ns ++ ns') s s'' where
  inv := h'.inv
  objs := h'.objs.trans h.objs
  nodes m := by rw [h'.nodes, h.nodes, List.mem_append, not_or, and_left_comm, and_assoc]
  ids := h'.ids.trans h.ids
  producer := h'.producer.trans h.producer
  consumers := h'.consumers.trans h.consumers

lemma Lists.removed (h : s.Lists n) (hr : NodesRemoved sessionId ns s s') : s'.Lists n := by
  rw [Lists, hr.objs, hr.producer, hr.consumers]
  exact h

/-- **Step lemma for removals.** -/
lemma removeNode_removed (h : GraphInv sessionId s) (hn : n ∈ (s.graph sessionId).nodes) :
    (s.removeNode sessionId n).1 = .ok () ∧
      NodesRemoved sessionId [n] s (s.removeNode sessionId n).2 ∧
      ((s.removeNode sessionId n).2.graph sessionId).chains = (s.graph sessionId).chains := by
  obtain ⟨id, hid, hok, hleave⟩ := h.numbered.leave hn
  rw [removeNode, if_pos hn]
  dsimp only
  rw [hid]
  refine ⟨hok, ⟨.of_graph (setGraph_graph _) hleave (fun m hm => ?_) h.chains, rfl, fun m => ?_,
    rfl, rfl, rfl⟩, ?_⟩
  · exact h.bound m (List.mem_of_mem_erase hm)
  · rw [graph, setGraph_graph, List.mem_singleton]
    exact h.numbered.nodup.mem_erase_iff
  · rw [graph, setGraph_graph]

/-- **The nodes of a chain** leave one after the other; all of them, if they are in the graph. -/
lemma removeNodes_removed (nodes : List NodeRef) : ∀ {s : RequestHeap}, GraphInv sessionId s →
    ∃ gone ⊆ nodes, NodesRemoved sessionId gone s (removeNodes sessionId nodes s).2 ∧
      ((removeNodes sessionId nodes s).2.graph sessionId).chains =
        (s.graph sessionId).chains ∧
      (nodes.Nodup → nodes ⊆ (s.graph sessionId).nodes →
        (removeNodes sessionId nodes s).1 = .ok () ∧ gone = nodes) := by
  induction nodes with
  | nil => exact fun h => ⟨[], List.Subset.refl _, .refl h, rfl, fun _ _ => ⟨rfl, rfl⟩⟩
  | cons n nodes ih =>
      intro s h
      rw [removeNodes]
      by_cases hn : n ∈ (s.graph sessionId).nodes
      · obtain ⟨hok, hone, hchains⟩ := removeNode_removed h hn
        generalize s.removeNode sessionId n = r at *
        obtain ⟨r, s₁⟩ := r
        obtain rfl : r = .ok () := hok
        obtain ⟨gone, hsub, hrest, hchains', hall⟩ := ih hone.inv
        refine ⟨n :: gone, List.cons_subset_cons n hsub, hone.trans hrest,
          hchains'.trans hchains, fun hnodup hnodes => ?_⟩
        obtain ⟨hnot, hnodup⟩ := List.nodup_cons.mp hnodup
        obtain ⟨hok, rfl⟩ := hall hnodup fun m hm => (hone.nodes m).mpr
          ⟨fun he => hnot (List.mem_singleton.mp he ▸ hm), hnodes (List.mem_cons_of_mem _ hm)⟩
        exact ⟨hok, rfl⟩
      · rw [removeNode, if_neg hn]
        exact ⟨[], List.nil_subset _, .refl h, rfl, fun _ hnodes =>
          absurd (hnodes List.mem_cons_self) hn⟩

/-- The chain goes first. -/
lemma eraseChain_removed (h : GraphInv sessionId s) (c : ChainRef) :
    NodesRemoved sessionId [] s (s.setGraph sessionId { s.graph sessionId with
      chains := (s.graph sessionId).chains.erase c }) := by
  refine ⟨.of_graph (setGraph_graph _) { h.numbered with } h.bound fun c' hc' => ?_, rfl,
    fun m => ?_, rfl, rfl, rfl⟩
  · exact h.chains c' (List.mem_of_mem_erase hc')
  · rw [graph, setGraph_graph]
    simp

/-- **A chain leaves the graph**, with nodes that its iterator finds; with all of them, if they are
in the graph. -/
lemma removeCompletionChain_removed (h : GraphInv sessionId s) (c : ChainRef) :
    ∃ gone, NodesRemoved sessionId gone s (s.removeCompletionChain sessionId c).2 ∧
      (∀ n ∈ gone, ∃ l, s.objs.iter c = .ok (some l) ∧ n ∈ l) ∧
      ∀ l, s.objs.iter c = .ok (some l) → c ∈ (s.graph sessionId).chains → l.Nodup →
        l ⊆ (s.graph sessionId).nodes →
        (s.removeCompletionChain sessionId c).1 = .ok (some ()) ∧ gone = l ∧
          ((s.removeCompletionChain sessionId c).2.graph sessionId).chains =
            (s.graph sessionId).chains.erase c := by
  rw [removeCompletionChain]
  by_cases hc : c ∈ (s.graph sessionId).chains
  · have herase := eraseChain_removed h c
    have hchains := congrArg NodeGraph.chains (@setGraph_graph s sessionId
      { s.graph sessionId with chains := (s.graph sessionId).chains.erase c })
    rw [if_pos hc]
    dsimp only at hchains ⊢
    generalize s.setGraph sessionId { s.graph sessionId with
      chains := (s.graph sessionId).chains.erase c } = s₀ at *
    rw [← herase.objs]
    cases hiter : s₀.objs.iter c with
    | error e => exact ⟨[], herase, by simp, fun _ hl => by cases hl⟩
    | ok found =>
        cases found with
        | none => exact ⟨[], herase, by simp, fun _ hl => by cases hl⟩
        | some nodes =>
            obtain ⟨gone, hsub, hrest, hsame, hall⟩ := removeNodes_removed nodes herase.inv
            dsimp only
            generalize removeNodes sessionId nodes s₀ = r at *
            obtain ⟨r, s'⟩ := r
            refine ⟨gone, ?_, fun n hn => ⟨nodes, rfl, hsub hn⟩, fun l hl _ hnodup hnodes => ?_⟩
            · cases r <;> exact herase.trans hrest
            · obtain rfl : nodes = l := Option.some.inj (Except.ok.inj hl)
              obtain ⟨hok, rfl⟩ := hall hnodup fun n hn =>
                (herase.nodes n).mpr ⟨List.not_mem_nil, hnodes hn⟩
              obtain rfl : r = .ok () := hok
              exact ⟨rfl, rfl, hsame.trans hchains⟩
  · rw [if_neg hc]
    exact ⟨[], .refl h, by simp, fun _ _ hmem => absurd hmem hc⟩

/-! ## Runs -/

/-- **Run lemma.** -/
lemma graph_invariant (timeout sessionId : ℕ) :
    (graphUses timeout sessionId).IsInvariantUnder (fun _ _ => True) (GraphInv sessionId) where
  init s h0 := by
    obtain rfl : s = start timeout := h0
    exact ⟨NodeGraph.numbered_empty, fun n hn => absurd hn List.not_mem_nil,
      fun c hc => absurd hc List.not_mem_nil⟩
  step s a s' h _ hstep := by
    obtain ⟨hen, rfl⟩ := hstep
    cases a with
    | newNode kind => exact h.congr rfl rfl (Nat.le_succ _) le_rfl
    | insertRequest source varOf => exact (insertRequest_spec h hen varOf).1
    | insertNativeFuncNode node request =>
        have hnative : GraphInv sessionId (s.newNativeNode node).2 :=
          h.congr rfl rfl (Nat.le_succ _) le_rfl
        exact insertNativeFuncNode_inv hnative (h.not_mem (.inl le_rfl)) (Nat.lt_succ_self _) node
          request
    | removeCompletionChain c =>
        obtain ⟨_, hremoved, -⟩ := removeCompletionChain_removed h c
        exact hremoved.inv

end RequestHeap

end ParrotServe
