import ParrotServe.Properties.GraphOrder
import ParrotServe.Properties.PartialCreation

/-!
# Every run keeps the order

A request makes nodes behind all that were there, and they write variables that are new
(`Extended`), so `Ordered` is kept: this is one case analysis over old and new nodes, for semantic
requests and native functions alike.

For native functions it needs the ids in the arguments to be known before the call, which
`KnownArguments` asks of an action.  An id that was returned is known (`ReturnedInv`).
-/

namespace ParrotServe

/-! ## Variables of the nodes of a request -/

namespace SemanticVariableManager

/-- In a request, whoever has the variable of an output comes behind it. -/
lemma FreshOutputsFrom.spec {kind : NodeRef → NodeKind} {high : SvRef} (nodes : List NodeRef) :
    ∀ {low : SvRef} {rs : List SvRef}, nodes.Pairwise (· < ·) →
      FreshOutputsFrom low (nodes.map kind) rs high → low ≤ high ∧ nodes.length = rs.length ∧
        (∀ x ∈ nodes.zip rs, x.2 < high ∧ ((kind x.1).isGen = true → low ≤ x.2)) ∧
        ∀ x ∈ nodes.zip rs, ∀ y ∈ nodes.zip rs, (kind x.1).isGen = true → x.2 = y.2 →
          x.1 ≤ y.1 := by
  induction nodes with
  | nil =>
      intro low rs _ h
      cases rs with
      | nil => exact ⟨h, rfl, by simp, by simp⟩
      | cons r rs => exact h.elim
  | cons n nodes ih =>
      intro low rs hpairs h
      cases rs with
      | nil => exact h.elim
      | cons r rs =>
          obtain ⟨hgen, mid, hmid, hr, hrest⟩ := h
          obtain ⟨hn, hpairs⟩ := List.pairwise_cons.mp hpairs
          obtain ⟨hle, hlen, hall, hbehind⟩ := ih hpairs hrest
          have hfst : ∀ x ∈ nodes.zip rs, n < x.1 := fun x hx => hn x.1 (List.of_mem_zip hx).1
          refine ⟨hmid.trans hle, by rw [List.length_cons, List.length_cons, hlen], ?_, ?_⟩
          · intro x hx
            rcases List.mem_cons.mp hx with rfl | hx
            · exact ⟨hr.trans_le hle, hgen⟩
            · exact ⟨(hall x hx).1, fun hg => hmid.trans ((hall x hx).2 hg)⟩
          · intro x hx y hy hg hsame
            rcases List.mem_cons.mp hx with rfl | hx
            · rcases List.mem_cons.mp hy with rfl | hy
              · exact le_rfl
              · exact (hfst y hy).le
            · rcases List.mem_cons.mp hy with rfl | hy
              · -- the variable in front is older than that of any later output
                exact absurd hsame (hr.trans_le ((hall x hx).2 hg)).ne'
              · exact hbehind x hx y hy hg hsame

/-- The id of a variable of a session is found there. -/
lemma Finds.findsId {m : SemanticVariableManager} {sessionId : ℕ} {r : SvRef}
    (h : m.Finds sessionId r) (hb : m.Bounded) :
    ∃ ns r', m.sessionNamespaces.get? sessionId = some ns ∧
      ns.vars.get? (m.obj r).id = some r' := by
  obtain ⟨ns, v, hns, hv⟩ := h
  exact ⟨ns, r, hns, (hb.sessions hns hv).2 ▸ hv⟩

end SemanticVariableManager

namespace RequestHeap

open GraphObjects SemanticVariableManager TransitionSystem

variable {uuid3 : ℕ → Text → VarId} {s s' : RequestHeap} {n p c : NodeRef} {v : SvRef}
  {sessionId requestId now : ℕ}

/-! ## New nodes -/

/-- New nodes with new variables to write, and the nodes that were there. -/
structure Extended (s s' : RequestHeap) : Prop where
  forward : s'.objs.Forward
  bounded : s'.vars.Bounded
  nextNode : s.objs.nextNode ≤ s'.objs.nextNode
  nextVar : s.vars.next ≤ s'.vars.next
  native : ∀ {n node}, s'.native n = some node → n < s'.objs.nextNode
  producer : s'.producer = s.producer
  consumers : s'.consumers = s.consumers
  oldReads : ∀ {n v}, n < s.objs.nextNode → (s'.Reads n v ↔ s.Reads n v)
  oldWrites : ∀ {n v}, n < s.objs.nextNode → (s'.Writes n v ↔ s.Writes n v)
  reads : ∀ {n v}, s.objs.nextNode ≤ n → s'.Reads n v →
    n < s'.objs.nextNode ∧ v < s'.vars.next
  writes : ∀ {n v}, s.objs.nextNode ≤ n → s'.Writes n v →
    n < s'.objs.nextNode ∧ s.vars.next ≤ v ∧ v < s'.vars.next
  before : ∀ {p c v}, s.objs.nextNode ≤ p → s.objs.nextNode ≤ c → s'.Writes p v →
    s'.Reads c v → p < c
  once : ∀ {p p' v}, s.objs.nextNode ≤ p → s.objs.nextNode ≤ p' → s'.Writes p v →
    s'.Writes p' v → p = p'

/-- **New nodes keep the order.** -/
lemma Ordered.extended (h : s.Ordered) (he : s.Extended s') : s'.Ordered where
  forward := he.forward
  bounded := he.bounded
  native := he.native
  reads {n v} hr := by
    rcases Nat.lt_or_ge n s.objs.nextNode with hn | hn
    · obtain ⟨hlt, hv⟩ := h.reads ((he.oldReads hn).mp hr)
      exact ⟨hlt.trans_le he.nextNode, hv.trans_le he.nextVar⟩
    · exact he.reads hn hr
  writes {n v} hw := by
    rcases Nat.lt_or_ge n s.objs.nextNode with hn | hn
    · obtain ⟨hlt, hv⟩ := h.writes ((he.oldWrites hn).mp hw)
      exact ⟨hlt.trans_le he.nextNode, hv.trans_le he.nextVar⟩
    · exact ⟨(he.writes hn hw).1, (he.writes hn hw).2.2⟩
  before {p c v} hw hr := by
    rcases Nat.lt_or_ge p s.objs.nextNode with hp | hp
    · rcases Nat.lt_or_ge c s.objs.nextNode with hc | hc
      · exact h.before ((he.oldWrites hp).mp hw) ((he.oldReads hc).mp hr)
      · exact hp.trans_le hc
    · rcases Nat.lt_or_ge c s.objs.nextNode with hc | hc
      · -- a new variable has no old readers
        exact absurd (h.reads ((he.oldReads hc).mp hr)).2 (he.writes hp hw).2.1.not_gt
      · exact he.before hp hc hw hr
  once {p p' v} hw hw' := by
    rcases Nat.lt_or_ge p s.objs.nextNode with hp | hp
    · rcases Nat.lt_or_ge p' s.objs.nextNode with hp' | hp'
      · exact h.once ((he.oldWrites hp).mp hw) ((he.oldWrites hp').mp hw')
      · exact absurd (h.writes ((he.oldWrites hp).mp hw)).2 (he.writes hp' hw').2.1.not_gt
    · rcases Nat.lt_or_ge p' s.objs.nextNode with hp' | hp'
      · exact absurd (h.writes ((he.oldWrites hp').mp hw')).2 (he.writes hp hw).2.1.not_gt
      · exact he.once hp hp' hw hw'
  producer {v p} hp := by
    rw [he.producer] at hp
    have hw := h.producer hp
    exact (he.oldWrites (h.writes hw).1).mpr hw
  consumer {v c} hc := by
    rw [he.consumers] at hc
    have hr := h.consumer hc
    exact (he.oldReads (h.reads hr).1).mpr hr

/-- Variables are created, and others get contents. -/
lemma Ordered.grown (h : s.Ordered) {vars : SemanticVariableManager}
    (hg : Grown uuid3 s.vars vars) : Ordered { s with vars } where
  forward := h.forward
  bounded := h.bounded.grown hg
  native := h.native
  reads hr := ⟨(h.reads hr).1, (h.reads hr).2.trans_le hg.next⟩
  writes hw := ⟨(h.writes hw).1, (h.writes hw).2.trans_le hg.next⟩
  before := h.before
  once := h.once
  producer := h.producer
  consumer := h.consumer

lemma ReturnedInv.grown (h : s.ReturnedInv) {vars : SemanticVariableManager}
    (hg : Grown uuid3 s.vars vars) {objs : GraphObjects}
    {native : NodeRef → Option NativeFuncNode} :
    ReturnedInv { s with vars, objs, native } := by
  intro sessionId ns hns v hv
  obtain ⟨ns₀, hns₀, hgrown⟩ := hg.back hns
  obtain ⟨r, hr⟩ := h _ _ hns₀ v hv
  exact ⟨r, hgrown.old hr⟩

/-- The session has a variable with this id. -/
def FindsId (s : RequestHeap) (sessionId : ℕ) (v : VarId) : Prop :=
  ∃ ns r, s.vars.sessionNamespaces.get? sessionId = some ns ∧ ns.vars.get? v = some r

lemma FindsId.inserted {v : VarId} (h : s.FindsId sessionId v) (hi : s.Inserted s') :
    s'.FindsId sessionId v := by
  unfold FindsId
  rw [hi.vars]
  exact h

/-! ## Semantic requests -/

/-- The nodes of a request and their variables, behind the nodes that were there. -/
structure NewNodes (g : GraphObjects) (req : SemanticRequest) (nodes : List NodeRef)
    (rs : List SvRef) : Prop where
  forward : req.graph.Forward
  first : req.requestChain.firstNode = g.nextNode
  next : g.nextNode < req.graph.nextNode
  iter : req.graph.requestIter req.requestChain = .ok (some nodes)
  sorted : nodes.Pairwise (· < ·)
  range : ∀ n ∈ nodes, g.nextNode ≤ n ∧ n < req.graph.nextNode
  length : nodes.length = rs.length
  svs : ∀ {n v}, g.nextNode ≤ n → ((req.graph.node n).sv = some v ↔ (n, v) ∈ nodes.zip rs)
  old : ∀ {n}, n < g.nextNode → (req.graph.node n).isGen = (g.node n).isGen ∧
    (req.graph.node n).sv = (g.node n).sv

/-- **The nodes of a semantic request** are new, and the loop gave them their variables. -/
lemma addSemanticRequest_newNodes {g : GraphObjects} {m m' : SemanticVariableManager}
    (h : g.Forward) {payload : SemanticCallPayload} {req : SemanticRequest}
    (hok : ParrotServe.addSemanticRequest uuid3 sessionId requestId now payload g m =
      (.ok (some req), m')) :
    ∃ nodes rs, NewNodes g req nodes rs ∧
      createVarsLoop uuid3 sessionId now req.requestChain.metadata.cachePrefix
        (nodes.map fun n => (req.graph.node n).kind) [] m = (.ok rs, m') := by
  obtain ⟨g₁, nodes, rs, -, hchain, hiter, hvars, hgraph⟩ :=
    SemanticRequest.addSemanticRequest_cases hok
  obtain ⟨hforward, hkept, hfirst, hlt⟩ := h.fromChunkedRequest hchain
  obtain ⟨hsorted, hrange⟩ :=
    hforward.requestNodes nodes (hfirst ▸ hlt) (yields_of_drain hiter)
  rw [hfirst] at hrange
  have hlen : nodes.length = rs.length := by
    rw [createVarsLoop_length _ hvars, List.length_nil, List.length_map, Nat.zero_add]
  have hfst : (nodes.zip rs).map Prod.fst = nodes := List.map_fst_zip hlen.le
  obtain ⟨hedges, -, hnext, hother, hsv⟩ := setSvs_spec (nodes.zip rs) g₁
  have hall := hforward.setSvs (l := nodes.zip rs) fun n hn => (hrange n (hfst ▸ hn)).2
  rw [← hgraph] at hedges hnext hother hsv hall
  rw [hfst] at hother hsv
  have hkinds : (nodes.map fun n => (g₁.node n).kind) =
      nodes.map fun n => (req.graph.node n).kind :=
    List.map_congr_left fun n _ => ((hedges n).1).symm
  refine ⟨nodes, rs, ⟨hall, hfirst, hlt.trans_eq hnext.symm, ?_, hsorted, fun n hn =>
    ⟨(hrange n hn).1, (hrange n hn).2.trans_eq hnext.symm⟩, hlen, fun {n v} hn => ⟨fun hnv => ?_,
    hsv (hsorted.imp fun hab => hab.ne) n v⟩, fun {n} hn =>
    ⟨congrArg NodeKind.isGen ((hedges n).1.trans (hkept.kind hn)),
      (hother n fun hmem => absurd (hrange n hmem).1 hn.not_ge).trans (hkept.sv n)⟩⟩,
    hkinds ▸ hvars⟩
  · rw [requestIter, hedges.requestChainNext_eq, hnext]
    exact hiter
  · have hmem : n ∈ nodes := by
      by_contra hno
      rw [hother n hno, hkept.sv, h.sv hn] at hnv
      cases hnv
    rw [← hfst] at hmem
    obtain ⟨x, hx, rfl⟩ := List.mem_map.mp hmem
    have hxv := (hsv (hsorted.imp fun hab => hab.ne) x.1 x.2 hx).symm.trans hnv
    exact Option.some.inj hxv ▸ hx

/-- They come behind the others, and those with a placeholder have variables of the session. -/
lemma addSemanticRequest_extended (h : s.Ordered) {payload : SemanticCallPayload}
    {req : SemanticRequest} {vars : SemanticVariableManager}
    (hok : ParrotServe.addSemanticRequest uuid3 sessionId requestId now payload s.objs s.vars =
      (.ok (some req), vars)) :
    Grown uuid3 s.vars vars ∧ s.Extended { s with vars, objs := req.graph } ∧
      req.requestChain.firstNode < req.graph.nextNode ∧
      ∀ nodes, req.graph.requestIter req.requestChain = .ok (some nodes) → ∀ n ∈ nodes, ∀ var,
        (req.graph.node n).kind.hasPlaceholder = true → (req.graph.node n).sv = some var →
          vars.Finds sessionId var := by
  obtain ⟨nodes, rs, hnew, hvars⟩ := addSemanticRequest_newNodes h.forward hok
  obtain ⟨hg, hrs⟩ := createVarsLoop_fresh _ h.bounded hvars
  obtain ⟨new, hrs', hfresh, hfound⟩ := hrs rs rfl
  rw [List.nil_append] at hrs'
  obtain rfl := hrs'
  obtain ⟨-, -, hall, hbehind⟩ := FreshOutputsFrom.spec nodes hnew.sorted hfresh
  have hnative : ∀ {n node}, s.objs.nextNode ≤ n → s.native n ≠ some node := fun hn hnode =>
    absurd (h.native hnode) hn.not_gt
  refine ⟨hg, ?_, hnew.first ▸ hnew.next, fun nodes' hiter n hn var hplace hvar => ?_⟩
  · refine ⟨hnew.forward, h.bounded.grown hg, hnew.next.le, hg.next,
      fun hnode => (h.native hnode).trans hnew.next, rfl, rfl, fun hn => ?_,
      fun hn => ?_, fun {n v} hn hr => ?_, fun {n v} hn hw => ?_, fun {p c v} hp hc hw hr => ?_,
      fun {p p' v} hp hp' hw hw' => ?_⟩
    · unfold Reads
      rw [(hnew.old hn).1, (hnew.old hn).2]
    · unfold Writes
      rw [(hnew.old hn).1, (hnew.old hn).2]
    · rcases hr with ⟨-, hnv⟩ | ⟨node, hnode, -⟩
      · have hmem := (hnew.svs hn).mp hnv
        exact ⟨(hnew.range n (List.of_mem_zip hmem).1).2, (hall _ hmem).1⟩
      · exact absurd hnode (hnative hn)
    · rcases hw with ⟨hg, hnv⟩ | ⟨node, hnode, -⟩
      · have hmem := (hnew.svs hn).mp hnv
        exact ⟨(hnew.range n (List.of_mem_zip hmem).1).2, (hall _ hmem).2 hg, (hall _ hmem).1⟩
      · exact absurd hnode (hnative hn)
    · rcases hw with ⟨hg, hpv⟩ | ⟨node, hnode, -⟩
      · rcases hr with ⟨hfill, hcv⟩ | ⟨node, hnode, -⟩
        · refine Nat.lt_of_le_of_ne
            (hbehind _ ((hnew.svs hp).mp hpv) _ ((hnew.svs hc).mp hcv) hg rfl) ?_
          rintro rfl
          rw [hg] at hfill
          cases hfill
        · exact absurd hnode (hnative hc)
      · exact absurd hnode (hnative hp)
    · rcases hw with ⟨hg, hpv⟩ | ⟨node, hnode, -⟩
      · rcases hw' with ⟨hg', hpv'⟩ | ⟨node, hnode, -⟩
        · have hmem := (hnew.svs hp).mp hpv
          have hmem' := (hnew.svs hp').mp hpv'
          exact Nat.le_antisymm (hbehind _ hmem _ hmem' hg rfl) (hbehind _ hmem' _ hmem hg' rfl)
        · exact absurd hnode (hnative hp')
      · exact absurd hnode (hnative hp)
  · obtain rfl := Option.some.inj (Except.ok.inj (hnew.iter.symm.trans hiter))
    have hmem := (hnew.svs (hnew.range n hn).1).mp hvar
    have hkinds : ((req.graph.node n).kind, var) ∈
        (nodes.map fun n => (req.graph.node n).kind).zip rs := by
      rw [List.zip_map_left]
      exact List.mem_map.mpr ⟨_, hmem, rfl⟩
    exact hfound _ hkinds hplace

/-- A request in front of the executor creates its variables, or none. -/
lemma addSemanticRequest_vars (uuid3 : ℕ → Text → VarId) (sessionId requestId now : ℕ)
    (payload : SemanticCallPayload) (g : GraphObjects) (m : SemanticVariableManager) :
    (ParrotServe.addSemanticRequest uuid3 sessionId requestId now payload g m).2 = m ∨
      ∃ cachePrefix kinds,
        (ParrotServe.addSemanticRequest uuid3 sessionId requestId now payload g m).2 =
          (m.createVarsForSemanticRequestChain uuid3 sessionId now cachePrefix kinds).2 := by
  unfold ParrotServe.addSemanticRequest
  split
  · exact .inl rfl
  · split
    · exact .inl rfl
    · exact .inl rfl
    · rename_i rc g' _
      have hcreate : (createVarsForRequestChain uuid3 sessionId now rc g' m).2 = m ∨
          ∃ cachePrefix kinds, (createVarsForRequestChain uuid3 sessionId now rc g' m).2 =
            (m.createVarsForSemanticRequestChain uuid3 sessionId now cachePrefix kinds).2 := by
        unfold createVarsForRequestChain
        split
        · exact .inl rfl
        · exact .inl rfl
        · split
          · rename_i hloop
            exact .inr ⟨_, _, by rw [hloop]⟩
          · rename_i hloop
            exact .inr ⟨_, _, by rw [hloop]⟩
      split
      · rename_i hok
        rwa [hok] at hcreate
      · rename_i hok
        rwa [hok] at hcreate
      · rename_i hok
        rwa [hok] at hcreate

/-- A request that fails has created variables. -/
lemma addSemanticRequest_grown (hb : s.vars.Bounded) {payload : SemanticCallPayload}
    {result : Except PyError (Option SemanticRequest)} {vars : SemanticVariableManager}
    (hok : ParrotServe.addSemanticRequest uuid3 sessionId requestId now payload s.objs s.vars =
      (result, vars)) : Grown uuid3 s.vars vars := by
  obtain hsame | ⟨cachePrefix, kinds, hcreate⟩ :=
    addSemanticRequest_vars uuid3 sessionId requestId now payload s.objs s.vars
  · rw [hok] at hsame
    obtain rfl : vars = s.vars := hsame
    exact .refl _
  · rw [hok] at hcreate
    obtain rfl : vars = _ := hcreate
    exact (createVarsLoop_fresh _ hb rfl).1

/-- `_add_semantic_request`: the order is kept, and the ids of the param info are found. -/
lemma addSemanticRequest_ordered (uuid3 : ℕ → Text → VarId) (h : s.Ordered) (hret : s.ReturnedInv)
    (payload : SemanticCallPayload) :
    (s.addSemanticRequest uuid3 sessionId requestId now payload).2.Ordered ∧
      (s.addSemanticRequest uuid3 sessionId requestId now payload).2.ReturnedInv ∧
      ∀ info, (s.addSemanticRequest uuid3 sessionId requestId now payload).1 = .ok (some info) →
        ∀ i ∈ info, FindsId (s.addSemanticRequest uuid3 sessionId requestId now payload).2
          sessionId i.varId := by
  unfold RequestHeap.addSemanticRequest
  split
  · rename_i hok
    have hg := addSemanticRequest_grown h.bounded hok
    exact ⟨h.grown hg, hret.grown hg, fun _ h => by cases h⟩
  · rename_i hok
    have hg := addSemanticRequest_grown h.bounded hok
    exact ⟨h.grown hg, hret.grown hg, fun _ h => by cases h⟩
  · rename_i req vars hok
    obtain ⟨hg, hext, hfirst, hfound⟩ := addSemanticRequest_extended h hok
    have hord := h.extended hext
    obtain ⟨hins, hinfo⟩ := executorAddRequest_inserted hord.forward sessionId hfirst
    have hret' : ReturnedInv { s with vars, objs := req.graph } := hret.grown hg
    split
    · rename_i hadd
      rw [hadd] at hins
      exact ⟨hord.inserted hins, hret'.inserted hins, fun _ h => by cases h⟩
    · rename_i hadd
      rw [hadd] at hins
      exact ⟨hord.inserted hins, hret'.inserted hins, fun _ h => by cases h⟩
    · rename_i info s₁ hadd
      rw [hadd] at hins hinfo
      obtain ⟨nodes, hnodes, hof⟩ := hinfo info rfl
      have htraverse := activateLastOutput_traversed (s := s₁) req
      have hall : ∀ i ∈ info, FindsId { s with vars, objs := req.graph } sessionId i.varId := by
        intro i hi
        obtain ⟨n, hn, var, hplace, hvar, hid⟩ := hof i hi
        exact hid ▸ (hfound nodes hnodes n hn var hplace hvar).findsId hord.bounded
      split
      · rename_i hact
        rw [hact] at htraverse
        have hins := hins.trans htraverse.inserted
        exact ⟨hord.inserted hins, hret'.inserted hins, fun _ h => by cases h⟩
      · rename_i hact
        rw [hact] at htraverse
        have hins := hins.trans htraverse.inserted
        exact ⟨hord.inserted hins, hret'.inserted hins, fun _ h => by cases h⟩
      · rename_i hact
        rw [hact] at htraverse
        have hins := hins.trans htraverse.inserted
        refine ⟨hord.inserted hins, hret'.inserted hins, fun info' h i hi => ?_⟩
        obtain rfl := Option.some.inj (Except.ok.inj h)
        exact (hall i hi).inserted hins

/-! ## Native functions -/

/-- A reference is taken by a native function. -/
lemma forward_reserve {g : GraphObjects} (h : g.Forward) :
    ({ g with nextNode := g.nextNode + 1 } : GraphObjects).Forward where
  sv hn := h.sv ((Nat.le_succ _).trans hn)
  chainNone hn := h.chainNone ((Nat.le_succ _).trans hn)
  next hnext := ⟨(h.next hnext).1, (h.next hnext).2.1.trans (Nat.lt_succ_self _),
    (h.next hnext).2.2⟩
  prev := h.prev
  chain hgen hc := by
    obtain ⟨hlt, q, hfirst, hpath⟩ := h.chain hgen hc
    exact ⟨hlt, q, hfirst, hpath⟩

/-- **The node of a native function** whose outputs are none of its inputs. -/
lemma newNativeNode_extended (h : s.Ordered) {vars : SemanticVariableManager}
    (hg : Grown uuid3 s.vars vars) {node : NativeFuncNode}
    (hapart : OutputsApart s.vars.next node.inputVars node.outputVars vars.next) :
    s.Extended (newNativeNode { s with vars } node).2 := by
  have hnative : ∀ m, (newNativeNode { s with vars } node).2.native m =
      if m = s.objs.nextNode then some node else s.native m := fun m =>
    Function.update_apply _ _ _ _
  -- a new node that reads or writes is the native function
  have hin : ∀ {m v}, s.objs.nextNode ≤ m → (newNativeNode { s with vars } node).2.Reads m v →
      m = s.objs.nextNode ∧ v ∈ node.inputVars.map Prod.snd := by
    rintro m v hm (⟨-, hsv⟩ | ⟨node', hnode, hv⟩)
    · rw [show ((newNativeNode { s with vars } node).2.objs.node m).sv = none from
        h.forward.sv hm] at hsv
      cases hsv
    · rw [hnative] at hnode
      split_ifs at hnode with hm'
      · obtain rfl := Option.some.inj hnode
        exact ⟨hm', hv⟩
      · exact absurd (h.native hnode) hm.not_gt
  have hout : ∀ {m v}, s.objs.nextNode ≤ m → (newNativeNode { s with vars } node).2.Writes m v →
      m = s.objs.nextNode ∧ v ∈ node.outputVars.map Prod.snd := by
    rintro m v hm (⟨-, hsv⟩ | ⟨node', hnode, hv⟩)
    · rw [show ((newNativeNode { s with vars } node).2.objs.node m).sv = none from
        h.forward.sv hm] at hsv
      cases hsv
    · rw [hnative] at hnode
      split_ifs at hnode with hm'
      · obtain rfl := Option.some.inj hnode
        exact ⟨hm', hv⟩
      · exact absurd (h.native hnode) hm.not_gt
  have hlast : s.objs.nextNode < (newNativeNode { s with vars } node).2.objs.nextNode :=
    Nat.lt_succ_self _
  refine ⟨forward_reserve h.forward, h.bounded.grown hg, Nat.le_succ _, hg.next,
    fun {m node'} hnode => ?_, rfl, rfl, fun {m v} hm => ?_, fun {m v} hm => ?_,
    fun {m v} hm hr => ?_, fun {m v} hm hw => ?_, fun {p c v} hp hc hw hr => ?_,
    fun {p p' v} hp hp' hw hw' => ?_⟩
  · rw [hnative] at hnode
    split_ifs at hnode with hm
    · exact hm ▸ hlast
    · exact (h.native hnode).trans hlast
  · unfold Reads
    rw [hnative, if_neg hm.ne]
    rfl
  · unfold Writes
    rw [hnative, if_neg hm.ne]
    rfl
  · obtain ⟨rfl, hv⟩ := hin hm hr
    obtain ⟨x, hx, rfl⟩ := List.mem_map.mp hv
    exact ⟨hlast, hapart.inputs x hx⟩
  · obtain ⟨rfl, hv⟩ := hout hm hw
    obtain ⟨y, hy, rfl⟩ := List.mem_map.mp hv
    exact ⟨hlast, hapart.outputs y hy⟩
  · obtain ⟨x, hx, hxv⟩ := List.mem_map.mp (hin hc hr).2
    obtain ⟨y, hy, hyv⟩ := List.mem_map.mp (hout hp hw).2
    exact absurd (hxv.trans hyv.symm) (hapart.apart x hx y hy)
  · exact (hout hp hw).1.trans (hout hp' hw').1.symm

/-- `_add_py_native_request` with known ids. -/
lemma addPyNativeRequest_ordered (h : s.Ordered) (hret : s.ReturnedInv)
    {request : PyNativeCallRequest}
    (hknown : ∀ p ∈ request.parametersMap, p.2.shouldCreate = false →
      Known uuid3 s.vars sessionId (p.2.varId.getD [])) :
    (s.addPyNativeRequest uuid3 sessionId request).2.Ordered ∧
      (s.addPyNativeRequest uuid3 sessionId request).2.ReturnedInv ∧
      ∀ info, (s.addPyNativeRequest uuid3 sessionId request).1 = .ok (some info) →
        ∀ i ∈ info, FindsId (s.addPyNativeRequest uuid3 sessionId request).2 sessionId i.varId := by
  unfold addPyNativeRequest
  split
  · rename_i hok
    have hg := (createVarsForPynativeFunc_fresh h.bounded _ (.refl _)
      (fun x hx => absurd hx List.not_mem_nil) hok).1
    exact ⟨h.grown hg, hret.grown hg, fun _ h => by cases h⟩
  · rename_i inputVars outputVars vars hok
    obtain ⟨hg, hvars⟩ := createVarsForPynativeFunc_fresh h.bounded _ (.refl _)
      (fun x hx => absurd hx List.not_mem_nil) hok
    obtain ⟨hfound, hapart⟩ := hvars _ rfl
    have hext : s.Extended (newNativeNode { s with vars } { inputVars, outputVars }).2 :=
      newNativeNode_extended h hg (hapart hknown ⟨by simp, by simp, by simp⟩)
    have hord := h.extended hext
    dsimp only
    generalize hnew : newNativeNode { s with vars } { inputVars, outputVars } = new at hord ⊢
    have hnode : new.2.native new.1 = some { inputVars, outputVars } :=
      hnew ▸ Function.update_self _ _ _
    have hret' : ReturnedInv new.2 := hnew ▸ hret.grown hg
    have hsame : new.2.vars = vars := hnew ▸ rfl
    obtain ⟨hins, hinfo⟩ := addNativeFunc_inserted sessionId hnode (hord.native hnode) request
    split
    · rename_i hadd
      rw [hadd] at hins
      exact ⟨hord.inserted hins, hret'.inserted hins, fun _ h => by cases h⟩
    · rename_i info s₁ hadd
      rw [hadd] at hins hinfo
      have htraverse :=
        activateNativeOutputs_traversed (s := s₁) request { inputVars, outputVars }
      split
      · rename_i hact
        rw [hact] at htraverse
        have hins := hins.trans htraverse.inserted
        exact ⟨hord.inserted hins, hret'.inserted hins, fun _ h => by cases h⟩
      · rename_i hact
        rw [hact] at htraverse
        have hins := hins.trans htraverse.inserted
        exact ⟨hord.inserted hins, hret'.inserted hins, fun _ h => by cases h⟩
      · rename_i hact
        rw [hact] at htraverse
        have hins := hins.trans htraverse.inserted
        refine ⟨hord.inserted hins, hret'.inserted hins, fun info' h i hi => ?_⟩
        obtain rfl := Option.some.inj (Except.ok.inj h)
        obtain ⟨x, hx, hid⟩ := hinfo info rfl i hi
        have hfinds : new.2.vars.Finds sessionId x.2 := hsame ▸ hfound x hx
        have hid' : new.2.FindsId sessionId i.varId := hid ▸ hfinds.findsId hord.bounded
        exact hid'.inserted hins

/-! ## All actions -/

/-- The ids in the arguments of a native function were returned to its session, or are no ids of
its namespace. -/
def KnownArguments (uuid3 : ℕ → Text → VarId) (s : RequestHeap) : Action → Prop
  | .addNativeRequest sessionId request => ∀ p ∈ request.parametersMap,
      p.2.shouldCreate = false →
        (∃ v ∈ (s.sessions sessionId).returned, v.val = p.2.varId.getD []) ∨
        ∀ ns, s.vars.sessionNamespaces.get? sessionId = some ns → ∀ text,
          (uuid3 ns.namespaceUuid text).val ≠ p.2.varId.getD []
  | _ => True

/-- What was returned is known. -/
lemma known_of_arguments (hret : s.ReturnedInv) {varId : Text}
    (h : (∃ v ∈ (s.sessions sessionId).returned, v.val = varId) ∨
      ∀ ns, s.vars.sessionNamespaces.get? sessionId = some ns → ∀ text,
        (uuid3 ns.namespaceUuid text).val ≠ varId) :
    Known uuid3 s.vars sessionId varId := by
  rintro ns v hns rfl
  rcases h with ⟨w, hw, hval⟩ | hno
  · obtain ⟨r, hr⟩ := hret _ _ hns w hw
    exact .inl ⟨r, Subtype.ext hval ▸ hr⟩
  · exact .inr fun text hv => hno ns hns text (congrArg Subtype.val hv).symm

/-- The ids of an answer are found, so they may be returned. -/
lemma ReturnedInv.giveOut (h : s.ReturnedInv) {ids : List VarId}
    (hids : ∀ v ∈ ids, s.FindsId sessionId v) : (s.giveOut sessionId ids).ReturnedInv := by
  intro id ns hns v hv
  rw [RequestHeap.giveOut, setSession] at hns hv
  dsimp only at hns hv
  rw [Function.update_apply] at hv
  split_ifs at hv with hid
  · rcases List.mem_append.mp hv with hv | hv
    · exact h _ _ hns v (hid ▸ hv)
    · obtain ⟨ns', r, hns', hr⟩ := hids v hv
      rw [hid, hns'] at hns
      exact ⟨r, Option.some.inj hns ▸ hr⟩
  · exact h _ _ hns v hv

lemma countRequest_inserted (sessionId : ℕ) : s.Inserted (s.countRequest sessionId).2 :=
  .setSession rfl rfl

/-- `_add_request` keeps both when what it calls does. -/
lemma answerRequest_ordered {result : Except PyError (Option (List ParamInfo)) × RequestHeap}
    (h : result.2.Ordered) (hret : result.2.ReturnedInv)
    (hinfo : ∀ info, result.1 = .ok (some info) → ∀ i ∈ info,
      result.2.FindsId sessionId i.varId) :
    (answerRequest sessionId requestId result).2.Ordered ∧
      (answerRequest sessionId requestId result).2.ReturnedInv := by
  obtain ⟨_ | (_ | info), s₁⟩ := result
  · exact ⟨h, hret⟩
  · exact ⟨h, hret⟩
  · refine ⟨?_, hret.giveOut fun v hv => ?_⟩
    · exact ⟨h.forward, h.bounded, h.native, h.reads, h.writes, h.before, h.once, h.producer,
        h.consumer⟩
    · obtain ⟨i, hi, rfl⟩ := List.mem_map.mp hv
      exact hinfo info rfl i hi

/-- The namespaces of sessions change, and a session without ids is set. -/
lemma ReturnedInv.resetSession (h : s.ReturnedInv) {vars : SemanticVariableManager}
    (hns : ∀ id ≠ sessionId, vars.sessionNamespaces.get? id = s.vars.sessionNamespaces.get? id) :
    ReturnedInv ({ s with vars }.setSession sessionId {}) := by
  intro id ns hget v hv
  rw [setSession] at hget hv
  dsimp only at hget hv
  rw [Function.update_apply] at hv
  split_ifs at hv with hid
  · exact absurd hv List.not_mem_nil
  · rw [hns id hid] at hget
    exact h _ _ hget v hv

/-- Sessions without variables come, and sessions go. -/
lemma Ordered.resetSession (h : s.Ordered) {vars : SemanticVariableManager}
    (hb : vars.Bounded) (hnext : vars.next = s.vars.next) :
    Ordered ({ s with vars }.setSession sessionId {}) where
  forward := h.forward
  bounded := hb
  native := h.native
  reads hr := ⟨(h.reads hr).1, (h.reads hr).2.trans_eq hnext.symm⟩
  writes hw := ⟨(h.writes hw).1, (h.writes hw).2.trans_eq hnext.symm⟩
  before := h.before
  once := h.once
  producer := h.producer
  consumer := h.consumer

/-- A new session. -/
lemma registerSession_ordered (h : s.Ordered) (hret : s.ReturnedInv) (sessionId : ℕ) :
    (s.registerSession sessionId).Ordered ∧ (s.registerSession sessionId).ReturnedInv := by
  unfold registerSession registerLocalVarSpace
  by_cases hkey : sessionId ∈ s.vars.sessionNamespaces.keys
  · rw [if_pos hkey]
    exact ⟨h, hret⟩
  · rw [if_neg hkey]
    refine ⟨h.resetSession ⟨h.bounded.prefixes, fun {id ns} hns v r hv => ?_⟩ rfl,
      hret.resetSession fun id hid => Dict.get?_set_ne _ _ hid⟩
    dsimp only at hns
    rw [Dict.get?_set] at hns
    split_ifs at hns
    · obtain rfl := Option.some.inj hns
      cases hv
    · exact h.bounded.sessions hns hv

/-- A session that ends. -/
lemma freeSessionResources_ordered (h : s.Ordered) (hret : s.ReturnedInv) (sessionId : ℕ) :
    (s.apply uuid3 (.freeSessionResources sessionId)).Ordered ∧
      (s.apply uuid3 (.freeSessionResources sessionId)).ReturnedInv := by
  simp only [RequestHeap.apply, freeLocalVarSpace]
  by_cases hkey : sessionId ∈ s.vars.sessionNamespaces.keys
  · rw [if_pos hkey]
    refine ⟨h.resetSession ⟨h.bounded.prefixes, fun {id ns} hns v r hv => ?_⟩ rfl,
      hret.resetSession fun id hid => ?_⟩
    · dsimp only at hns
      rw [Dict.get?_erase] at hns
      split_ifs at hns
      exact h.bounded.sessions hns hv
    · dsimp only
      rw [Dict.get?_erase, if_neg hid]
  · rw [if_neg hkey]
    exact ⟨h.resetSession h.bounded rfl, hret.resetSession fun _ _ => rfl⟩

/-- `register_semantic_variable`. -/
lemma registerSemanticVariable_ordered (h : s.Ordered) (hret : s.ReturnedInv) (varName : Text) :
    (s.registerSemanticVariable uuid3 sessionId varName).2.Ordered ∧
      (s.registerSemanticVariable uuid3 sessionId varName).2.ReturnedInv := by
  have hcreate : ∀ {result vars}, s.vars.createVar uuid3 sessionId varName = (result, vars) →
      Grown uuid3 s.vars vars ∧ ∀ r, result = .ok r → vars.Finds sessionId r := by
    intro result vars hok
    unfold createVar at hok
    split_ifs at hok
    · obtain ⟨hg, hr⟩ := createLocalVarByName_fresh hok
      exact ⟨hg, fun r h => (hr r h).2.2⟩
    · obtain ⟨rfl, rfl⟩ := Prod.mk.inj hok
      exact ⟨.refl _, fun _ h => by cases h⟩
  unfold registerSemanticVariable
  split
  · rename_i hok
    have hg := (hcreate hok).1
    exact ⟨h.grown hg, hret.grown hg⟩
  · rename_i r vars hok
    obtain ⟨hg, hfinds⟩ := hcreate hok
    have hord := h.grown hg
    refine ⟨⟨hord.forward, hord.bounded, hord.native, hord.reads, hord.writes, hord.before,
      hord.once, hord.producer, hord.consumer⟩, ?_⟩
    have hret' : ReturnedInv { s with vars } := hret.grown hg
    refine hret'.giveOut fun v hv => ?_
    obtain rfl := List.mem_singleton.mp hv
    exact (hfinds r rfl).findsId hord.bounded

lemma getSemanticVariable_traversed (var : SvRef) (criteria : Text) :
    s.Traversed (s.getSemanticVariable var criteria) := by
  unfold getSemanticVariable
  split_ifs
  · split
    · exact .refl s
    · exact activateSv_traversed _ _
  · exact .refl s

/-- **One action.** -/
lemma ordered_apply (h : s.Ordered) (hret : s.ReturnedInv) (a : Action)
    (hknown : KnownArguments uuid3 s a) :
    (s.apply uuid3 a).Ordered ∧ (s.apply uuid3 a).ReturnedInv := by
  cases a with
  | registerSession sessionId => exact registerSession_ordered h hret sessionId
  | freeSessionResources sessionId => exact freeSessionResources_ordered h hret sessionId
  | registerSemanticVariable sessionId varName =>
      exact registerSemanticVariable_ordered h hret varName
  | addRequest sessionId now payload =>
      have hcount := countRequest_inserted (s := s) sessionId
      obtain ⟨hord, hret, hinfo⟩ := addSemanticRequest_ordered uuid3
        (h.inserted hcount) (hret.inserted hcount) payload
      exact answerRequest_ordered hord hret hinfo
  | addNativeRequest sessionId request =>
      have hcount := countRequest_inserted (s := s) sessionId
      obtain ⟨hord, hret, hinfo⟩ := addPyNativeRequest_ordered
        (h.inserted hcount) (hret.inserted hcount) fun p hp hcreate =>
          hcount.vars ▸ known_of_arguments hret (hknown p hp hcreate)
      exact answerRequest_ordered hord hret hinfo
  | getSemanticVariable var criteria =>
      have hins := (getSemanticVariable_traversed (s := s) var criteria).inserted
      exact ⟨h.inserted hins, hret.inserted hins⟩
  | set var content =>
      have hg : Grown uuid3 s.vars _ := setContent_grown var content
      exact ⟨h.grown hg, hret.grown hg⟩
  | freeExpiredConstantPrefixVars curTime =>
      have hg : Grown uuid3 s.vars (s.vars.freeExpiredConstantPrefixVars curTime).2 :=
        freeExpired_grown curTime _ [] s.vars
      exact ⟨h.grown hg, hret.grown hg⟩

lemma ordered_start (timeout : ℕ) : (start timeout).Ordered where
  forward := forward_empty
  bounded := ⟨fun h => (by cases h), fun h => by cases h⟩
  native h := by cases h
  reads h := by
    rcases h with ⟨-, h⟩ | ⟨_, h, -⟩ <;> cases h
  writes h := by
    rcases h with ⟨-, h⟩ | ⟨_, h, -⟩ <;> cases h
  before h := by
    rcases h with ⟨-, h⟩ | ⟨_, h, -⟩ <;> cases h
  once h := by
    rcases h with ⟨-, h⟩ | ⟨_, h, -⟩ <;> cases h
  producer h := by cases h
  consumer h := by cases h

/-- **The order holds in every run.** -/
theorem orderedInvariant (uuid3 : ℕ → Text → VarId) (timeout : ℕ) :
    (system uuid3 timeout).IsInvariantUnder (KnownArguments uuid3)
      fun s => s.Ordered ∧ s.ReturnedInv where
  init s h0 := by
    obtain rfl := h0
    exact ⟨ordered_start timeout, fun _ _ h => by cases h⟩
  step s a s' hs hknown hstep := by
    obtain ⟨-, rfl⟩ := hstep
    exact ordered_apply hs.1 hs.2 a hknown

end RequestHeap

end ParrotServe
