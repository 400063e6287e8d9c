import ParrotServe.Model.RequestChain
import Mathlib.Data.List.Forall2
import Mathlib.Data.List.Perm.Subperm

/-!
# The completion chains of a request

A request with several outputs should be cut behind every Gen node, and the pieces should be its
completion chains: `Partitions` states this for the three ways a chain describes its nodes (its
two iterators, its Gen node, the back pointer of the nodes).

Both constructors get the first chain right and no other one.  When a Gen node is reached, the
node after it is not linked yet: `from_nodes` starts the next chain with `None`, and
`from_chunked_request` with the node *before* the Gen, which belongs to the chain just closed.
`buildChains_partitions_iff` is the exact statement for the loop the two constructors share, and
`completion_chains_partition` its two instances.
-/

namespace ParrotServe

/-! ## Lists cut behind marked entries -/

/-- A list cut behind each marked entry; what follows the last one is dropped. -/
def cutAfter {α : Type} (p : α → Bool) : List α → List (List α)
  | [] => []
  | a :: l =>
      if p a then [a] :: cutAfter p l
      else
        match cutAfter p l with
        | [] => []
        | piece :: pieces => (a :: piece) :: pieces

section CutAfter

variable {α : Type} {p : α → Bool}

lemma cutAfter_eq_nil {l : List α} (h : ∀ a ∈ l, p a = false) : cutAfter p l = [] := by
  induction l with
  | nil => rfl
  | cons a l ih =>
      rw [cutAfter, h a List.mem_cons_self, ih fun b hb => h b (List.mem_cons_of_mem _ hb)]
      rfl

lemma cutAfter_append_cons {l : List α} (h : ∀ a ∈ l, p a = false) {a : α} (ha : p a = true)
    (r : List α) : cutAfter p (l ++ a :: r) = (l ++ [a]) :: cutAfter p r := by
  induction l with
  | nil => simp [cutAfter, ha]
  | cons b l ih =>
      rw [List.cons_append, cutAfter, h b List.mem_cons_self,
        ih fun c hc => h c (List.mem_cons_of_mem _ hc)]
      rfl

lemma mem_cutAfter {l : List α} : ∀ piece ∈ cutAfter p l, piece ≠ [] ∧ piece ⊆ l := by
  induction l with
  | nil => simp [cutAfter]
  | cons a l ih =>
      intro piece hpiece
      rw [cutAfter] at hpiece
      split at hpiece
      · rcases List.mem_cons.mp hpiece with rfl | hpiece
        · exact ⟨List.cons_ne_nil _ _, by simp⟩
        · exact ⟨(ih piece hpiece).1, List.subset_cons_of_subset _ (ih piece hpiece).2⟩
      · split at hpiece
        · simp at hpiece
        · rename_i q qs hcut
          rcases List.mem_cons.mp hpiece with rfl | hpiece
          · have hq := (ih q (hcut ▸ List.mem_cons_self)).2
            exact ⟨List.cons_ne_nil _ _, List.cons_subset_cons a hq⟩
          · have hmem : piece ∈ cutAfter p l := hcut ▸ List.mem_cons_of_mem _ hpiece
            exact ⟨(ih piece hmem).1, List.subset_cons_of_subset _ (ih piece hmem).2⟩

end CutAfter

namespace GraphObjects

variable {g g' : GraphObjects} {ns : List NodeRef} {ks : List NodeKind}

/-! ## Linked lists of nodes -/

/-- The nodes are linked in this order, and to nothing else. -/
structure Linked (g : GraphObjects) (ns : List NodeRef) : Prop where
  nodup : ns.Nodup
  prev : ∀ l n r, ns = l ++ n :: r → (g.node n).edgeAPrevNode = l.getLast?
  next : ∀ l n r, ns = l ++ n :: r → (g.node n).edgeANextNode = r.head?

/-- Changes to a heap that do not touch links and classes of nodes. -/
def SameEdges (g g' : GraphObjects) : Prop :=
  ∀ n, (g'.node n).kind = (g.node n).kind ∧
    (g'.node n).edgeAPrevNode = (g.node n).edgeAPrevNode ∧
    (g'.node n).edgeANextNode = (g.node n).edgeANextNode

lemma Linked.congr (h : Linked g ns) (he : SameEdges g g') : Linked g' ns where
  nodup := h.nodup
  prev l n r hl := by rw [(he n).2.1, h.prev l n r hl]
  next l n r hl := by rw [(he n).2.2, h.next l n r hl]

/-- Linking a new node behind the last one. -/
lemma Linked.snoc (h : Linked g ns) {n prev : NodeRef} (hlast : ns.getLast? = some prev)
    (hn : n ∉ ns) (hblank : (g.node n).edgeANextNode = none) :
    Linked (g.linkEdgeAWith n prev) (ns ++ [n]) := by
  have hprev : prev ∈ ns := List.mem_of_getLast? hlast
  have hne : n ≠ prev := fun he => hn (he ▸ hprev)
  have hself : (g.linkEdgeAWith n prev).node n = { g.node n with edgeAPrevNode := some prev } := by
    simp [linkEdgeAWith, setNode, hne]
  have hlink : (g.linkEdgeAWith n prev).node prev =
      { g.node prev with edgeANextNode := some n } := by
    simp [linkEdgeAWith, setNode, hne.symm]
  have hother : ∀ m, m ≠ n → m ≠ prev → (g.linkEdgeAWith n prev).node m = g.node m := by
    intro m hm hm'
    simp [linkEdgeAWith, setNode, hm, hm']
  have hcases : ∀ l m r, ns ++ [n] = l ++ m :: r →
      (l = ns ∧ m = n ∧ r = []) ∨ ∃ r', r = r' ++ [n] ∧ ns = l ++ m :: r' := by
    intro l m r heq
    rcases List.eq_nil_or_concat r with rfl | ⟨r', x, rfl⟩
    · obtain ⟨rfl, hm⟩ := List.append_inj' heq rfl
      exact .inl ⟨rfl, (List.singleton_inj.mp hm).symm, rfl⟩
    · rw [List.concat_eq_append] at heq ⊢
      rw [← List.cons_append, ← List.append_assoc] at heq
      obtain ⟨rfl, hx⟩ := List.append_inj' heq rfl
      exact .inr ⟨r', by rw [List.singleton_inj.mp hx], rfl⟩
  refine ⟨List.nodup_append.mpr ⟨h.nodup, List.nodup_singleton n, ?_⟩, ?_, ?_⟩
  · rintro a ha b hb rfl
    exact hn (List.mem_singleton.mp hb ▸ ha)
  · intro l m r heq
    rcases hcases l m r heq with ⟨rfl, rfl, rfl⟩ | ⟨r', rfl, hns⟩
    · rw [hself]
      exact hlast.symm
    · have hm : m ≠ n := by
        rintro rfl
        exact hn (hns ▸ by simp)
      rw [← h.prev l m r' hns]
      by_cases hp : m = prev
      · rw [hp, hlink]
      · rw [hother m hm hp]
  · intro l m r heq
    rcases hcases l m r heq with ⟨rfl, rfl, rfl⟩ | ⟨r', rfl, hns⟩
    · rw [hself]
      exact hblank
    · have hm : m ≠ n := by
        rintro rfl
        exact hn (hns ▸ by simp)
      rcases List.eq_nil_or_concat r' with rfl | ⟨r'', x, rfl⟩
      · -- the old last node now points to the new one
        have hp : m = prev := by
          rw [hns, List.getLast?_append, List.getLast?_singleton] at hlast
          exact Option.some.inj hlast
        rw [hp, hlink]
        rfl
      · have hp : m ≠ prev := by
          rintro rfl
          have hx : x = m := by
            rw [hns, List.concat_eq_append, ← List.cons_append, ← List.append_assoc,
              List.getLast?_append, List.getLast?_singleton] at hlast
            exact Option.some.inj hlast
          have hnd := h.nodup
          rw [hns, hx, List.concat_eq_append] at hnd
          have := (List.nodup_append.mp hnd).2.1
          simp at this
        rw [hother m hm hp, h.next l m _ hns, List.concat_eq_append]
        cases r'' <;> rfl

/-! ## What the iterators find in a linked list -/

lemma Linked.prevIsGen_eq (h : Linked g ns) {l : List NodeRef} {n : NodeRef} {r : List NodeRef}
    (hns : ns = l ++ n :: r) :
    g.prevIsGen n = (l.getLast?.map fun p => (g.node p).isGen).getD false := by
  rw [prevIsGen, h.prev l n r hns]
  cases l.getLast? <;> rfl

/-- `iter()` runs from a node behind no Gen node to the next Gen node. -/
lemma Linked.yields_iter (h : Linked g ns) {gen : NodeRef} (hgen : (g.node gen).isGen = true)
    (r : List NodeRef) : ∀ piece l, ns = l ++ (piece ++ gen :: r) →
      (∀ p, l.getLast? = some p → (g.node p).isGen = false) →
      (∀ n ∈ piece, (g.node n).isGen = false) →
      Yields g.completionChainNext (piece ++ gen :: r).head? (piece ++ [gen]) := by
  intro piece
  induction piece with
  | nil =>
      intro l hns hl _
      have hstart : g.prevIsGen gen = false := by
        rw [h.prevIsGen_eq (by simpa using hns)]
        cases hlast : l.getLast? with
        | none => rfl
        | some p => exact hl p hlast
      refine ⟨r.head?, ?_, ?_⟩
      · simp [completionChainNext, hstart, h.next l gen r (by simpa using hns)]
      · -- the node behind the Gen node stops the iterator
        cases r with
        | nil => rfl
        | cons b r =>
            have hb : g.prevIsGen b = true := by
              rw [h.prevIsGen_eq (l := l ++ [gen]) (r := r) (by simpa using hns)]
              simpa using hgen
            simp [Yields, completionChainNext, hb]
  | cons a piece ih =>
      intro l hns hl hpiece
      have hstart : g.prevIsGen a = false := by
        rw [h.prevIsGen_eq (by simpa using hns)]
        cases hlast : l.getLast? with
        | none => rfl
        | some p => exact hl p hlast
      refine ⟨(piece ++ gen :: r).head?, ?_, ih (l ++ [a]) (by simpa using hns) ?_ ?_⟩
      · simp [completionChainNext, hstart, h.next l a (piece ++ gen :: r) (by simpa using hns)]
      · intro p hp
        obtain rfl : a = p := by simpa using hp
        exact hpiece a List.mem_cons_self
      · exact fun n hn => hpiece n (List.mem_cons_of_mem _ hn)

/-- `iter_fill()` runs up to the next Gen node. -/
lemma Linked.yields_iterFill (h : Linked g ns) {gen : NodeRef} (hgen : (g.node gen).isGen = true)
    (r : List NodeRef) : ∀ piece l, ns = l ++ (piece ++ gen :: r) →
      (∀ n ∈ piece, (g.node n).isGen = false) →
      Yields g.completionChainFillNext (piece ++ gen :: r).head? piece := by
  intro piece
  induction piece with
  | nil =>
      intro l _ _
      simp [Yields, completionChainFillNext, hgen]
  | cons a piece ih =>
      intro l hns hpiece
      refine ⟨(piece ++ gen :: r).head?, ?_, ih (l ++ [a]) (by simpa using hns) ?_⟩
      · simp [completionChainFillNext, hpiece a List.mem_cons_self,
          h.next l a (piece ++ gen :: r) (by simpa using hns)]
      · exact fun n hn => hpiece n (List.mem_cons_of_mem _ hn)

/-- The iterator of the request runs through all nodes. -/
lemma Linked.yields_request (h : Linked g ns) : ∀ r l, ns = l ++ r →
    Yields g.requestChainNext r.head? r := by
  intro r
  induction r with
  | nil => exact fun _ _ => rfl
  | cons a r ih =>
      intro l hns
      refine ⟨r.head?, ?_, ih (l ++ [a]) (by simpa using hns)⟩
      simp [requestChainNext, h.next l a r hns]

/-- An iterator that starts inside the list stays inside. -/
lemma Linked.iter_subset (h : Linked g ns) : ∀ {l : List NodeRef} {first : Option NodeRef},
    (∀ q, first = some q → q ∈ ns) → Yields g.completionChainNext first l → l ⊆ ns := by
  intro l
  induction l with
  | nil => exact fun _ _ => List.nil_subset _
  | cons a l ih =>
      rintro first hfirst ⟨c, hc, hl⟩
      cases first with
      | none => simp [completionChainNext] at hc
      | some q =>
          rw [completionChainNext] at hc
          by_cases hp : g.prevIsGen q
          · simp [hp] at hc
          rw [if_neg hp] at hc
          obtain ⟨rfl, rfl⟩ := Prod.mk.inj (Option.some.inj (Except.ok.inj hc))
          have hq := hfirst q rfl
          refine List.cons_subset.mpr ⟨hq, ih (fun q' hq' => ?_) hl⟩
          obtain ⟨s, t, hst⟩ := List.append_of_mem hq
          rw [h.next s q t hst] at hq'
          rw [hst]
          exact List.mem_append_right _ (List.mem_cons_of_mem _ (List.mem_of_mem_head? hq'))

/-! ## What the chains should be -/

/-- The completion chain `c` is the piece `piece` of a request with nodes `nodes`. -/
structure ChainIs (g : GraphObjects) (nodes : List NodeRef) (c : ChainRef)
    (piece : List NodeRef) : Prop where
  iter : Yields g.completionChainNext (g.chain c).firstNode piece
  iterFill : Yields g.completionChainFillNext (g.chain c).firstNode piece.dropLast
  genNode : (g.chain c).genNode = piece.getLast?
  compChain : ∀ n ∈ nodes, (g.node n).completionChain = some c ↔ n ∈ piece

/-- A request with nodes of the classes `ks` whose chains are its pieces, in order. -/
def Partitions (g : GraphObjects) (rc : RequestChain) (ks : List NodeKind) : Prop :=
  ∃ nodes, Yields g.requestChainNext (some rc.firstNode) nodes ∧
    nodes.map (fun n => (g.node n).kind) = ks ∧
    List.Forall₂ (g.ChainIs nodes) rc.compChains (cutAfter (fun n => (g.node n).isGen) nodes)

/-- A request without a Gen has no chains. -/
lemma Linked.partitions_nil (h : Linked g ns) (hkinds : ns.map (fun n => (g.node n).kind) = ks)
    {rc : RequestChain} (hhead : ns.head? = some rc.firstNode) (hrc : rc.compChains = [])
    (hks : ∀ k ∈ ks, k.isGen = false) : Partitions g rc ks := by
  refine ⟨ns, hhead ▸ h.yields_request ns [] rfl, hkinds, ?_⟩
  rw [hrc, cutAfter_eq_nil]
  · exact .nil
  · exact fun n hn => hks _ (hkinds ▸ List.mem_map_of_mem hn)

/-- A request with one Gen and the chain of everything up to it. -/
lemma Linked.partitions_singleton {l r : List NodeRef} {gen : NodeRef}
    (h : Linked g (l ++ gen :: r)) {rc : RequestChain} {c : ChainRef}
    (hkinds : (l ++ gen :: r).map (fun n => (g.node n).kind) = ks)
    (hl : ∀ n ∈ l, (g.node n).isGen = false) (hgen : (g.node gen).isGen = true)
    (hr : ∀ n ∈ r, (g.node n).isGen = false) (hhead : l.head? = some rc.firstNode)
    (hrc : rc.compChains = [c])
    (hc : g.chain c = { firstNode := some rc.firstNode, genNode := some gen })
    (hmem : ∀ n ∈ l ++ [gen], (g.node n).completionChain = some c)
    (hnone : ∀ n ∈ r, (g.node n).completionChain = none) : Partitions g rc ks := by
  have hstart : (l ++ gen :: r).head? = some rc.firstNode := by
    rw [List.head?_append, hhead, Option.some_or]
  refine ⟨l ++ gen :: r, hstart ▸ h.yields_request _ [] rfl, hkinds, ?_⟩
  rw [hrc, cutAfter_append_cons hl hgen, cutAfter_eq_nil hr]
  refine .cons ⟨?_, ?_, ?_, fun n hn => ⟨fun hcc => ?_, hmem n⟩⟩ .nil
  · rw [hc, ← hstart]
    exact h.yields_iter hgen r l [] rfl (by simp) hl
  · rw [hc, ← hstart, List.dropLast_concat]
    exact h.yields_iterFill hgen r l [] rfl hl
  · rw [hc, List.getLast?_append, List.getLast?_singleton, Option.some_or]
  · by_cases hn' : n ∈ r
    · rw [hnone n hn'] at hcc
      simp at hcc
    · simpa [hn'] using hn

/-- No chain after the first may start with a node of the first piece, or with none. -/
lemma Linked.not_partitions {l r : List NodeRef} {gen : NodeRef} (h : Linked g (l ++ gen :: r))
    {rc : RequestChain} (c₀ c : ChainRef) (hl : ∀ n ∈ l, (g.node n).isGen = false)
    (hgen : (g.node gen).isGen = true) (hhead : l.head? = some rc.firstNode)
    (hrc : [c₀] ++ [c] <+: rc.compChains)
    (hfirst : ∀ q, (g.chain c).firstNode = some q → q ∈ l ++ [gen]) : ¬ Partitions g rc ks := by
  rintro ⟨nodes, hnodes, -, hchains⟩
  have hstart : (l ++ gen :: r).head? = some rc.firstNode := by
    rw [List.head?_append, hhead, Option.some_or]
  have hall : nodes = l ++ gen :: r := hnodes.unique (hstart ▸ h.yields_request _ [] rfl)
  rw [hall, cutAfter_append_cons hl hgen] at hchains
  obtain ⟨t, ht⟩ := hrc
  rw [← ht] at hchains
  obtain ⟨piece, pieces, hpiece, -, hcut⟩ :=
    List.forall₂_cons_left_iff.mp (List.forall₂_cons.mp hchains).2
  obtain ⟨hne, hsub⟩ := mem_cutAfter piece (hcut ▸ List.mem_cons_self)
  obtain ⟨x, piece', rfl⟩ := List.exists_cons_of_ne_nil hne
  obtain ⟨c', hc', -⟩ := hpiece.iter
  cases hq : (g.chain c).firstNode with
  | none => simp [hq, completionChainNext] at hc'
  | some q =>
      have hx : q = x := by
        rw [hq, completionChainNext] at hc'
        by_cases hp : g.prevIsGen q
        · simp [hp] at hc'
        · rw [if_neg hp] at hc'
          exact (Prod.mk.inj (Option.some.inj (Except.ok.inj hc'))).1
      have hin := hfirst q hq
      have hin' : q ∈ r := hx ▸ hsub List.mem_cons_self
      have hnodup := h.nodup
      rw [List.append_cons] at hnodup
      exact (List.nodup_append.mp hnodup).2.2 q hin q hin' rfl

/-! ## One round of the construction -/

/-- The nodes of a request so far: linked in order, with their classes. -/
structure Built (g : GraphObjects) (ns : List NodeRef) (ks : List NodeKind) : Prop where
  linked : Linked g ns
  kinds : ns.map (fun n => (g.node n).kind) = ks
  bound : ∀ n ∈ ns, n < g.nextNode

/-- The fuel of the iterators covers a request. -/
lemma Built.length_le (h : Built g ns ks) : ns.length ≤ g.nextNode := by
  have hsub : ns ⊆ List.range g.nextNode := fun n hn => List.mem_range.mpr (h.bound n hn)
  simpa using (h.linked.nodup.subperm hsub).length_le

lemma Built.congr (h : Built g ns ks) (he : SameEdges g g') (hnext : g.nextNode ≤ g'.nextNode) :
    Built g' ns ks where
  linked := h.linked.congr he
  kinds := by rw [← h.kinds, List.map_congr_left fun n _ => (he n).1]
  bound n hn := Nat.lt_of_lt_of_le (h.bound n hn) hnext

/-- A heap with a new node `n` that belongs to no request. -/
structure Fetched (g : GraphObjects) (ns : List NodeRef) (kind : NodeKind) (n : NodeRef)
    (g' : GraphObjects) : Prop where
  blank : g'.node n = { kind }
  notMem : n ∉ ns
  other : ∀ m, m ≠ n → g'.node m = g.node m
  chain : g'.chain = g.chain
  nextChain : g'.nextChain = g.nextChain
  bound : n < g'.nextNode
  nextNode : g.nextNode ≤ g'.nextNode

lemma foldl_setCompChain (c : ChainRef) (l : List NodeRef) : ∀ g : GraphObjects,
    let g' := l.foldl (fun g n => g.setCompChain n c) g
    SameEdges g g' ∧ (∀ n, (g'.node n).completionChain =
        if n ∈ l then some c else (g.node n).completionChain) ∧
      (∀ n, n ∉ l → g'.node n = g.node n) ∧
      g'.chain = g.chain ∧ g'.nextNode = g.nextNode ∧ g'.nextChain = g.nextChain := by
  induction l with
  | nil => exact fun g => ⟨fun _ => ⟨rfl, rfl, rfl⟩, fun _ => rfl, fun _ _ => rfl, rfl, rfl, rfl⟩
  | cons a l ih =>
      intro g
      have hnode : ∀ n, (g.setCompChain a c).node n =
          if n = a then { g.node a with completionChain := some c } else g.node n := by
        intro n
        simp [setCompChain, setNode, Function.update_apply]
      obtain ⟨hedges, hchain, hother, h1, h2, h3⟩ := ih (g.setCompChain a c)
      refine ⟨fun n => ?_, fun n => ?_, fun n hn => ?_, h1, h2, h3⟩
      · obtain ⟨hk, hp, hx⟩ := hedges n
        rw [List.foldl_cons, hk, hp, hx, hnode]
        by_cases hna : n = a
        · rw [if_pos hna, hna]
          exact ⟨rfl, rfl, rfl⟩
        · rw [if_neg hna]
          exact ⟨rfl, rfl, rfl⟩
      · rw [List.foldl_cons, hchain, hnode]
        by_cases hna : n = a
        · simp [hna]
        · simp [hna]
      · rw [List.mem_cons, not_or] at hn
        rw [List.foldl_cons, hother n hn.2, hnode, if_neg hn.1]

/-- A completion chain that was constructed. -/
lemma newCompletionChain_spec {first : Option NodeRef} {gen : NodeRef} {c : ChainRef}
    (h : g.newCompletionChain first gen = .ok (some (c, g'))) :
    ∃ l, Yields g.completionChainNext first l ∧ c = g.nextChain ∧
      SameEdges g g' ∧ g'.nextNode = g.nextNode ∧ g'.nextChain = g.nextChain + 1 ∧
      (∀ n, n ∉ l → g'.node n = g.node n) ∧
      g'.chain = Function.update g.chain c { firstNode := first, genNode := some gen } ∧
      ∀ n, (g'.node n).completionChain =
        if n ∈ l then some c else (g.node n).completionChain := by
  simp only [newCompletionChain] at h
  split at h
  · simp at h
  · simp at h
  · rename_i l hl
    obtain ⟨rfl, rfl⟩ := Prod.mk.inj (Option.some.inj (Except.ok.inj h))
    have hyields := yields_of_drain hl
    dsimp only [Function.update_self] at hyields
    rw [Function.update_self] at hyields
    obtain ⟨hedges, hchain, hother, h1, h2, h3⟩ := foldl_setCompChain g.nextChain l
      { g with
        chain := Function.update g.chain g.nextChain { firstNode := first, genNode := some gen }
        nextChain := g.nextChain + 1 }
    exact ⟨l, hyields, rfl, hedges, h2, h3, hother, h1, hchain⟩

/-- The constructor succeeds when its iterator ends within the nodes there are. -/
lemma newCompletionChain_ok {first : Option NodeRef} (gen : NodeRef) {l : List NodeRef}
    (h : Yields g.completionChainNext first l) (hlen : l.length ≤ g.nextNode) :
    ∃ g', g.newCompletionChain first gen = .ok (some (g.nextChain, g')) := by
  have hdrain : drain g.completionChainNext (g.nextNode + 1) first = .ok (some l) :=
    drain_of_yields h (Nat.lt_succ_of_le hlen)
  simp only [newCompletionChain, iter, Function.update_self]
  rw [show drain (completionChainNext { g with
      chain := Function.update g.chain g.nextChain { firstNode := first, genNode := some gen }
      nextChain := g.nextChain + 1 }) (g.nextNode + 1) first = _ from hdrain]
  exact ⟨_, rfl⟩

/-! ## The loop the two constructors share -/

section Build

variable {β : Type} {fetch : GraphObjects → β → Except PyError (NodeRef × GraphObjects)}
  {nextFirst : GraphObjects → NodeRef → Except PyError (Option NodeRef)}
  {kindOf : β → NodeKind} {ready : GraphObjects → List NodeRef → List β → Prop}

/-- What the loop needs of its source of nodes; `ready g ns bs` says that the entries `bs` can
still be fetched. -/
structure FetchSpec (fetch : GraphObjects → β → Except PyError (NodeRef × GraphObjects))
    (kindOf : β → NodeKind) (ready : GraphObjects → List NodeRef → List β → Prop) : Prop where
  fetch : ∀ g ns b bs, ready g ns (b :: bs) → ∃ n g', fetch g b = .ok (n, g') ∧
    Fetched g ns (kindOf b) n g' ∧ ready g' (ns ++ [n]) bs
  keep : ∀ g g' ns bs, ready g ns bs → (∀ n, n ∉ ns → g'.node n = g.node n) →
    g'.nextNode = g.nextNode → ready g' ns bs

/-- The following chain starts with no node, or with one that was already linked. -/
def StartsBehind (nextFirst : GraphObjects → NodeRef → Except PyError (Option NodeRef)) : Prop :=
  ∀ g ns ks, Built g ns ks → ∀ l n, l ≠ [] → ns = l ++ [n] →
    ∃ first, nextFirst g n = .ok first ∧ ∀ q, first = some q → q ∈ ns

/-- The loop in front of the entries `bs`. -/
structure InLoop (ready : GraphObjects → List NodeRef → List β → Prop) (g : GraphObjects)
    (ns : List NodeRef) (ks : List NodeKind) (prev : NodeRef) (bs : List β) : Prop where
  built : Built g ns ks
  last : ns.getLast? = some prev
  ready : ready g ns bs

/-- Fetching a node and linking it. -/
lemma InLoop.link (hf : FetchSpec fetch kindOf ready) {prev : NodeRef} {b : β} {bs : List β}
    (h : InLoop ready g ns ks prev (b :: bs)) : ∃ n g₁, fetch g b = .ok (n, g₁) ∧ n ∉ ns ∧
      InLoop ready (g₁.linkEdgeAWith n prev) (ns ++ [n]) (ks ++ [kindOf b]) n bs ∧
      ((g₁.linkEdgeAWith n prev).node n).isGen = (kindOf b).isGen ∧
      ((g₁.linkEdgeAWith n prev).node n).completionChain = none ∧
      (∀ m ∈ ns, ((g₁.linkEdgeAWith n prev).node m).completionChain =
        (g.node m).completionChain) ∧
      (g₁.linkEdgeAWith n prev).chain = g.chain ∧
      (g₁.linkEdgeAWith n prev).nextChain = g.nextChain := by
  obtain ⟨n, g₁, hfetch, hn, hready⟩ := hf.fetch g ns b bs h.ready
  have hprev : prev ∈ ns := List.mem_of_getLast? h.last
  have hne : n ≠ prev := fun he => hn.notMem (he ▸ hprev)
  have hnode : ∀ m, (g₁.linkEdgeAWith n prev).node m =
      if m = prev then { g.node prev with edgeANextNode := some n }
      else if m = n then { kind := kindOf b, edgeAPrevNode := some prev } else g.node m := by
    intro m
    by_cases hm : m = prev
    · simp [linkEdgeAWith, setNode, hm, hne.symm, hn.other prev hne.symm]
    · by_cases hmn : m = n
      · simp [linkEdgeAWith, setNode, hmn, hne, hn.blank]
      · simp [linkEdgeAWith, setNode, hm, hmn, hn.other m hmn]
  have hold : Linked g₁ ns := by
    have hmem : ∀ m ∈ ns, g₁.node m = g.node m := fun m hm =>
      hn.other m fun he => hn.notMem (he ▸ hm)
    refine ⟨h.built.linked.nodup, fun l m r heq => ?_, fun l m r heq => ?_⟩
    · rw [hmem m (heq ▸ by simp), h.built.linked.prev l m r heq]
    · rw [hmem m (heq ▸ by simp), h.built.linked.next l m r heq]
  refine ⟨n, g₁, hfetch, hn.notMem, ⟨⟨?_, ?_, ?_⟩, by simp, ?_⟩, ?_, ?_, ?_, hn.chain,
    hn.nextChain⟩
  · exact hold.snoc h.last hn.notMem (by rw [hn.blank])
  · rw [List.map_append, List.map_singleton, ← h.built.kinds]
    congr 1
    · refine List.map_congr_left fun m hm => ?_
      have hmn : m ≠ n := fun he => hn.notMem (he ▸ hm)
      rw [hnode]
      by_cases hmp : m = prev
      · rw [if_pos hmp, hmp]
      · rw [if_neg hmp, if_neg hmn]
    · rw [hnode, if_neg hne, if_pos rfl]
  · intro m hm
    rcases List.mem_append.mp hm with hm | hm
    · exact Nat.lt_of_lt_of_le (h.built.bound m hm) hn.nextNode
    · exact List.mem_singleton.mp hm ▸ hn.bound
  · refine hf.keep g₁ _ _ _ hready (fun m hm => ?_) rfl
    rw [List.mem_append, List.mem_singleton, not_or] at hm
    have hmp : m ≠ prev := fun he => hm.1 (he ▸ hprev)
    rw [hnode, if_neg hmp, if_neg hm.2, hn.other m hm.2]
  · rw [hnode, if_neg hne, if_pos rfl]
  · rw [hnode, if_neg hne, if_pos rfl]
  · intro m hm
    have hmn : m ≠ n := fun he => hn.notMem (he ▸ hm)
    rw [hnode]
    by_cases hmp : m = prev
    · rw [if_pos hmp, hmp]
    · rw [if_neg hmp, if_neg hmn]

/-- A chain constructed in the loop. -/
lemma InLoop.newCompletionChain (hf : FetchSpec fetch kindOf ready) {prev : NodeRef}
    {bs : List β} (h : InLoop ready g ns ks prev bs) {first : Option NodeRef} {gen : NodeRef}
    (hfirst : ∀ q, first = some q → q ∈ ns) {c : ChainRef}
    (hok : g.newCompletionChain first gen = .ok (some (c, g'))) :
    InLoop ready g' ns ks prev bs := by
  obtain ⟨l, hl, -, hedges, hnext, -, hother, -⟩ := newCompletionChain_spec hok
  have hsub := h.built.linked.iter_subset hfirst hl
  exact ⟨h.built.congr hedges hnext.ge, h.last,
    hf.keep g g' ns bs h.ready (fun n hn => hother n fun hl => hn (hsub hl)) hnext⟩

/-- Whatever chains the loop makes of a request, its nodes are linked in order and the chains
made before stay as they are. -/
lemma buildChains_built (hf : FetchSpec fetch kindOf ready) (hb : StartsBehind nextFirst)
    (bs : List β) : ∀ {g ns ks prev first rc rc' g'}, InLoop ready g ns ks prev bs →
      (∀ q, first = some q → q ∈ ns) →
      buildChains fetch nextFirst bs prev first rc g = .ok (some (rc', g')) →
      ∃ new last, InLoop ready g' (ns ++ new) (ks ++ bs.map kindOf) last [] ∧
        rc'.firstNode = rc.firstNode ∧ rc.compChains <+: rc'.compChains ∧
        ∀ c, c < g.nextChain → g'.chain c = g.chain c := by
  induction bs with
  | nil =>
      intro g ns ks prev first rc rc' g' h _ hok
      obtain ⟨rfl, rfl⟩ := Prod.mk.inj (Option.some.inj (Except.ok.inj hok))
      exact ⟨[], prev, by simpa using h, rfl, List.prefix_refl _, fun _ _ => rfl⟩
  | cons b bs ih =>
      intro g ns ks prev first rc rc' g' h hfirst hok
      obtain ⟨n, g₁, hfetch, -, hloop, -, -, -, hchain, hnextChain⟩ := h.link hf
      have hfirst' : ∀ q, first = some q → q ∈ ns ++ [n] :=
        fun q hq => List.mem_append_left _ (hfirst q hq)
      rw [buildChains, hfetch] at hok
      dsimp only at hok
      split at hok
      · split at hok
        · simp at hok
        · simp at hok
        · rename_i c g₂ hnew
          obtain ⟨l, hl, hc, -, -, hnc, -, hch, -⟩ := newCompletionChain_spec hnew
          have hloop₂ := hloop.newCompletionChain hf hfirst' hnew
          obtain ⟨first₂, hnf, hmem⟩ := hb g₂ _ _ hloop₂.built ns n
            (fun he => by simp [he] at h; exact absurd h.last (by simp)) rfl
          rw [hnf] at hok
          obtain ⟨new, last, hend, hrc, hpre, hkeep⟩ := ih hloop₂ hmem hok
          refine ⟨n :: new, last, by simpa using hend, hrc,
            (List.prefix_append _ _).trans hpre, fun c' hc' => ?_⟩
          have hlt : c' < (g₁.linkEdgeAWith n prev).nextChain := hnextChain ▸ hc'
          rw [hkeep c' (hnc ▸ Nat.lt_succ_of_lt hlt), hch,
            Function.update_of_ne fun he => Nat.ne_of_lt hlt (he.trans hc), hchain]
      · obtain ⟨new, last, hend, hrc, hpre, hkeep⟩ := ih hloop hfirst' hok
        refine ⟨n :: new, last, by simpa using hend, hrc, hpre, fun c hc => ?_⟩
        rw [hkeep c (hnextChain ▸ hc), hchain]

/-- The loop over entries without a Gen only links nodes. -/
lemma buildChains_fills (hf : FetchSpec fetch kindOf ready)
    (nextFirst : GraphObjects → NodeRef → Except PyError (Option NodeRef)) (rest fills : List β)
    (first : Option NodeRef) (rc : RequestChain) : ∀ {g ns ks prev},
      (∀ b ∈ fills, (kindOf b).isGen = false) → InLoop ready g ns ks prev (fills ++ rest) →
      ∃ new g' prev', InLoop ready g' (ns ++ new) (ks ++ fills.map kindOf) prev' rest ∧
        buildChains fetch nextFirst (fills ++ rest) prev first rc g =
          buildChains fetch nextFirst rest prev' first rc g' ∧
        (∀ n ∈ ns, (g'.node n).completionChain = (g.node n).completionChain) ∧
        (∀ n ∈ new, (g'.node n).completionChain = none) ∧
        g'.chain = g.chain ∧ g'.nextChain = g.nextChain := by
  induction fills with
  | nil =>
      intro g ns ks prev _ h
      exact ⟨[], g, prev, by simpa using h, rfl, fun _ _ => rfl, by simp, rfl, rfl⟩
  | cons b fills ih =>
      intro g ns ks prev hfills h
      obtain ⟨n, g₁, hfetch, hn, hloop, hgen, hnone, hold, hchain, hnextChain⟩ := h.link hf
      obtain ⟨new, g', prev', hloop', hrun, hold', hnew, hchain', hnextChain'⟩ :=
        ih (fun b' hb' => hfills b' (List.mem_cons_of_mem _ hb')) hloop
      refine ⟨n :: new, g', prev', by simpa using hloop', ?_, fun m hm => ?_, ?_,
        hchain'.trans hchain, hnextChain'.trans hnextChain⟩
      · rw [List.cons_append, buildChains, hfetch]
        dsimp only
        rw [hgen, hfills b List.mem_cons_self]
        exact hrun
      · rw [hold' m (List.mem_append_left _ hm), hold m hm]
      · intro m hm
        rcases List.mem_cons.mp hm with rfl | hm
        · rw [hold' m (by simp), hnone]
        · exact hnew m hm

/-- The loop up to the first Gen node: its chain gets all nodes so far. -/
lemma buildChains_first (hf : FetchSpec fetch kindOf ready) (hb : StartsBehind nextFirst)
    {fills rest : List β} {b : β} {prev n₀ : NodeRef} (rc : RequestChain)
    (h : InLoop ready g ns ks prev (fills ++ b :: rest)) (hhead : ns.head? = some n₀)
    (hks : ∀ k ∈ ks, k.isGen = false)
    (hfills : ∀ b ∈ fills, (kindOf b).isGen = false) (hgen : (kindOf b).isGen = true) :
    ∃ l gen g' first, InLoop ready g' (l ++ [gen]) (ks ++ fills.map kindOf ++ [kindOf b]) gen rest ∧
      buildChains fetch nextFirst (fills ++ b :: rest) prev (some n₀) rc g =
        buildChains fetch nextFirst rest gen first
          { rc with compChains := rc.compChains ++ [g.nextChain] } g' ∧
      l.head? = some n₀ ∧ (∀ n ∈ l ++ [gen], (g'.node n).completionChain = some g.nextChain) ∧
      g'.chain g.nextChain = { firstNode := some n₀, genNode := some gen } ∧
      g.nextChain < g'.nextChain ∧ ∀ q, first = some q → q ∈ l ++ [gen] := by
  obtain ⟨new, g₁, prev₁, h₁, hrun, -, -, hchain₁, hnc₁⟩ := buildChains_fills hf nextFirst
    (b :: rest) fills (some n₀) rc hfills h
  obtain ⟨gen, g₂, hfetch, hn, h₂, hgen₂, -, -, hchain₂, hnc₂⟩ := h₁.link hf
  have hhead₁ : (ns ++ new).head? = some n₀ := by
    rw [List.head?_append, hhead]
    rfl
  -- no node before this one is a Gen
  have hbefore : ∀ n ∈ ns ++ new, ((g₂.linkEdgeAWith gen prev₁).node n).isGen = false := by
    intro n hn'
    have hkinds := h₂.built.kinds
    rw [List.map_append, List.map_singleton] at hkinds
    have hk : ((g₂.linkEdgeAWith gen prev₁).node n).kind ∈ ks ++ fills.map kindOf := by
      rw [← (List.append_inj' hkinds rfl).1]
      exact List.mem_map_of_mem hn'
    rcases List.mem_append.mp hk with hk | hk
    · exact hks _ hk
    · obtain ⟨b', hb', he⟩ := List.mem_map.mp hk
      rw [SemanticNode.isGen, ← he]
      exact hfills b' hb'
  have hgen' : ((g₂.linkEdgeAWith gen prev₁).node gen).isGen = true := hgen₂.trans hgen
  have hyields := h₂.built.linked.yields_iter hgen' [] (ns ++ new) [] (by simp) (by simp) hbefore
  rw [List.head?_append, hhead₁, Option.some_or] at hyields
  obtain ⟨g₃, hnew⟩ := newCompletionChain_ok gen hyields h₂.built.length_le
  obtain ⟨l, hl, -, -, -, hnc₃, -, hchain₃, hcc⟩ := newCompletionChain_spec hnew
  obtain rfl := hyields.unique hl
  have hmem : n₀ ∈ ns ++ new ++ [gen] :=
    List.mem_append_left _ (List.mem_of_mem_head? hhead₁)
  have h₃ := h₂.newCompletionChain hf (fun q hq => Option.some.inj hq ▸ hmem) hnew
  have hnonempty : ns ++ new ≠ [] := fun he => by simp [he] at hhead₁
  obtain ⟨first, hfirst, hin⟩ := hb g₃ _ _ h₃.built (ns ++ new) gen hnonempty rfl
  have hc : (g₂.linkEdgeAWith gen prev₁).nextChain = g.nextChain := hnc₂.trans hnc₁
  rw [hc] at hchain₃ hcc hnc₃ hnew
  refine ⟨ns ++ new, gen, g₃, first, h₃, ?_, hhead₁, fun n hn' => ?_, ?_, ?_, hin⟩
  · rw [hrun, buildChains, hfetch]
    dsimp only
    rw [if_pos hgen', hnew]
    dsimp only
    rw [hfirst]
  · rw [hcc, if_pos hn']
  · rw [hchain₃, Function.update_self]
  · rw [hnc₃]
    exact Nat.lt_succ_self _

/-- The chain of a later Gen node starts where the loop was told to. -/
lemma buildChains_later (hf : FetchSpec fetch kindOf ready) (hb : StartsBehind nextFirst)
    {bs : List β} {b : β} {prev : NodeRef} {first : Option NodeRef} {rc rc' : RequestChain}
    (h : InLoop ready g ns ks prev (b :: bs)) (hfirst : ∀ q, first = some q → q ∈ ns)
    (hgen : (kindOf b).isGen = true)
    (hok : buildChains fetch nextFirst (b :: bs) prev first rc g = .ok (some (rc', g'))) :
    ∃ new c, Built g' (ns ++ new) (ks ++ (b :: bs).map kindOf) ∧ rc'.firstNode = rc.firstNode ∧
      rc.compChains ++ [c] <+: rc'.compChains ∧ (g'.chain c).firstNode = first := by
  obtain ⟨n, g₁, hfetch, -, hloop, hgen₁, -, -, -, -⟩ := h.link hf
  rw [buildChains, hfetch] at hok
  dsimp only at hok
  rw [if_pos (hgen₁.trans hgen)] at hok
  have hfirst' : ∀ q, first = some q → q ∈ ns ++ [n] :=
    fun q hq => List.mem_append_left _ (hfirst q hq)
  split at hok
  · simp at hok
  · simp at hok
  · rename_i c g₂ hnew
    obtain ⟨l, -, hc, -, -, hnc, -, hchain, -⟩ := newCompletionChain_spec hnew
    have hloop₂ := hloop.newCompletionChain hf hfirst' hnew
    have hns : ns ≠ [] := fun he => by
      have := h.last
      simp [he] at this
    obtain ⟨first₂, hnf, hmem⟩ := hb g₂ _ _ hloop₂.built ns n hns rfl
    rw [hnf] at hok
    obtain ⟨new, _, hend, hrc, hpre, hkeep⟩ := buildChains_built hf hb bs hloop₂ hmem hok
    refine ⟨n :: new, c, by simpa using hend.built, hrc, hpre, ?_⟩
    rw [hkeep c (by rw [hc, hnc]; exact Nat.lt_succ_self _), hchain, hc, Function.update_self]

/-- Entries are split at the first Gen among them. -/
lemma exists_first_gen (kindOf : β → NodeKind) (bs : List β) :
    (∀ b ∈ bs, (kindOf b).isGen = false) ∨ ∃ fills b rest, bs = fills ++ b :: rest ∧
      (∀ b ∈ fills, (kindOf b).isGen = false) ∧ (kindOf b).isGen = true := by
  cases hfind : bs.find? fun b => (kindOf b).isGen with
  | none => exact .inl fun b hb => by simpa using List.find?_eq_none.mp hfind b hb
  | some b =>
      obtain ⟨hb, fills, rest, rfl, hfills⟩ := List.find?_eq_some_iff_append.mp hfind
      exact .inr ⟨fills, b, rest, rfl, fun b' hb' => by simpa using hfills b' hb', hb⟩

/-- The number of outputs of a request. -/
def outputs (ks : List NodeKind) : ℕ := ks.countP NodeKind.isGen

lemma outputs_eq_zero (h : ∀ k ∈ ks, k.isGen = false) : outputs ks = 0 :=
  List.countP_eq_zero.mpr fun k hk => by simp [h k hk]

/-- The outputs of a request, from its first Gen on. -/
lemma outputs_first_gen {fills rest : List β} {b : β} {k₀ : NodeKind}
    (hfront : ∀ k ∈ k₀ :: fills.map kindOf, k.isGen = false) (hgen : (kindOf b).isGen = true) :
    outputs (k₀ :: (fills ++ b :: rest).map kindOf) = outputs (rest.map kindOf) + 1 := by
  have hzero := outputs_eq_zero hfront
  rw [outputs] at hzero
  rw [List.map_append, List.map_cons, ← List.cons_append, outputs, List.countP_append,
    List.countP_cons_of_pos hgen, hzero, Nat.zero_add]
  rfl

/-- The classes at the end of the loop, around the first Gen. -/
lemma Built.around_gen {l r : List NodeRef} {gen : NodeRef} {kl kr : List NodeKind} {k : NodeKind}
    (h : Built g (l ++ [gen] ++ r) (kl ++ [k] ++ kr)) (hlen : l.length = kl.length)
    (hfront : ∀ k ∈ kl, k.isGen = false) (hgen : k.isGen = true) :
    Linked g (l ++ gen :: r) ∧ (∀ n ∈ l, (g.node n).isGen = false) ∧
      (g.node gen).isGen = true ∧ r.map (fun n => (g.node n).kind) = kr := by
  have hkinds := h.kinds
  rw [List.map_append, List.map_append] at hkinds
  obtain ⟨hkinds, hr⟩ := List.append_inj hkinds (by simpa using hlen)
  obtain ⟨hl, hg⟩ := List.append_inj hkinds (by simpa using hlen)
  refine ⟨by simpa using h.linked, fun n hn => hfront _ ?_, ?_, hr⟩
  · rw [← hl]
    exact List.mem_map_of_mem hn
  · rw [SemanticNode.isGen, show (g.node gen).kind = k by simpa using hg]
    exact hgen

/-- **The loop is right exactly for requests with at most one output.** -/
lemma buildChains_partitions_iff (hf : FetchSpec fetch kindOf ready) (hb : StartsBehind nextFirst)
    {bs : List β} {n₀ : NodeRef} {k₀ : NodeKind} (rc : RequestChain)
    (h : InLoop ready g [n₀] [k₀] n₀ bs) (hk₀ : k₀.isGen = false) (hfirst : rc.firstNode = n₀)
    (hrc : rc.compChains = []) :
    (∃ rc' g', buildChains fetch nextFirst bs n₀ (some n₀) rc g = .ok (some (rc', g')) ∧
      Partitions g' rc' (k₀ :: bs.map kindOf)) ↔ outputs (k₀ :: bs.map kindOf) ≤ 1 := by
  have hmapGen : ∀ {l : List β}, (∀ b ∈ l, (kindOf b).isGen = false) →
      ∀ k ∈ l.map kindOf, k.isGen = false := by
    intro l hl k hk
    obtain ⟨b, hb, rfl⟩ := List.mem_map.mp hk
    exact hl b hb
  rcases exists_first_gen kindOf bs with hbs | ⟨fills, b, rest, rfl, hfills, hgen⟩
  · -- no output
    have hks : ∀ k ∈ k₀ :: bs.map kindOf, k.isGen = false :=
      List.forall_mem_cons.mpr ⟨hk₀, hmapGen hbs⟩
    have h' : InLoop ready g [n₀] [k₀] n₀ (bs ++ []) := by simpa using h
    obtain ⟨new, g', prev', hloop, hrun, -, -, -, -⟩ := buildChains_fills hf
      nextFirst [] bs (some n₀) rc hbs h'
    refine ⟨fun _ => by rw [outputs_eq_zero hks]; exact Nat.zero_le 1, fun _ => ?_⟩
    rw [List.append_nil] at hrun
    exact ⟨rc, g', hrun, hloop.built.linked.partitions_nil hloop.built.kinds
      (by simp [hfirst]) hrc hks⟩
  obtain ⟨l, gen, g₁, first, h₁, hrun, hhead, hcc, hchain, hnc, hstart⟩ := buildChains_first hf hb
    rc h rfl (by simpa using hk₀) hfills hgen
  have hfront : ∀ k ∈ k₀ :: fills.map kindOf, k.isGen = false :=
    List.forall_mem_cons.mpr ⟨hk₀, hmapGen hfills⟩
  have hlen : l.length = (k₀ :: fills.map kindOf).length := by
    have := congrArg List.length h₁.built.kinds
    simpa using this
  rw [outputs_first_gen hfront hgen, hrun]
  rcases exists_first_gen kindOf rest with hrest | ⟨fills₂, b₂, rest₂, rfl, hfills₂, hgen₂⟩
  · -- one output
    have hzero := outputs_eq_zero (hmapGen hrest)
    refine ⟨fun _ => by omega, fun _ => ?_⟩
    have h₁' : InLoop ready g₁ (l ++ [gen]) ([k₀] ++ fills.map kindOf ++ [kindOf b]) gen
        (rest ++ []) := by simpa using h₁
    obtain ⟨new, g', prev', hloop, hrun', hold, hnew, hchain', -⟩ := buildChains_fills hf
      nextFirst [] rest first { rc with compChains := rc.compChains ++ [g.nextChain] } hrest h₁'
    rw [List.append_nil] at hrun'
    obtain ⟨hlinked, hl, hg, hr⟩ := hloop.built.around_gen (by simpa using hlen) hfront hgen
    refine ⟨_, g', hrun', hlinked.partitions_singleton (c := g.nextChain) ?_ hl hg
      (fun n hn => ?_) (by rw [hhead, hfirst]) (by rw [hrc]; rfl) ?_ (fun n hn => ?_) hnew⟩
    · simpa using hloop.built.kinds
    · exact hmapGen hrest _ (hr ▸ List.mem_map_of_mem hn)
    · rw [hchain', hchain, hfirst]
    · rw [hold n hn, hcc n hn]
  · -- a second output
    refine ⟨fun hex => ?_, fun hle => ?_⟩
    · obtain ⟨rc', g', hok, hpart⟩ := hex
      obtain ⟨new₂, g₂, prev₂, h₂, hrun₂, -⟩ := buildChains_fills hf nextFirst (b₂ :: rest₂) fills₂
        first { rc with compChains := rc.compChains ++ [g.nextChain] } hfills₂ h₁
      rw [hrun₂] at hok
      obtain ⟨new, c, hbuilt, hrc', hpre, hfirst'⟩ := buildChains_later hf hb h₂
        (fun q hq => List.mem_append_left _ (hstart q hq)) hgen₂ hok
      have hbuilt : Built g' (l ++ [gen] ++ (new₂ ++ new)) ([k₀] ++ fills.map kindOf ++
          [kindOf b] ++ (fills₂.map kindOf ++ (b₂ :: rest₂).map kindOf)) := by
        simpa only [List.append_assoc] using hbuilt
      obtain ⟨hlinked, hl, hg, -⟩ := hbuilt.around_gen (by simpa using hlen) hfront hgen
      refine (hlinked.not_partitions g.nextChain c hl hg ?_ ?_ ?_ hpart).elim
      · rw [hhead, hrc', hfirst]
      · simpa [hrc] using hpre
      · exact fun q hq => hstart q (hfirst' ▸ hq)
    · have hpos : 0 < outputs ((fills₂ ++ b₂ :: rest₂).map kindOf) :=
        List.countP_pos_iff.mpr ⟨kindOf b₂, by simp, hgen₂⟩
      omega

end Build

/-! ## The two constructors -/

/-- The class of the node of a chunk whose name is known. -/
def chunkKind (req : ChunkedSemanticCallRequest) (chunk : BodyChunk) : NodeKind :=
  (req.nodeKind chunk).toOption.getD (.constantFill [])

/-- The entries of a request body are nodes that do not exist yet. -/
lemma fetchSpec_chunks (req : ChunkedSemanticCallRequest) :
    FetchSpec req.newChunkNode (chunkKind req) fun g ns chunks =>
      (∀ n ∈ ns, n < g.nextNode) ∧
        ∀ chunk ∈ chunks, req.nodeKind chunk = .ok (chunkKind req chunk) where
  fetch g ns chunk chunks h := by
    refine ⟨g.nextNode, (g.newNode (chunkKind req chunk)).2, ?_, ⟨?_, ?_, ?_, rfl, rfl, ?_, ?_⟩,
      fun n hn => ?_, fun c hc => h.2 c (List.mem_cons_of_mem _ hc)⟩
    · rw [ChunkedSemanticCallRequest.newChunkNode, h.2 chunk List.mem_cons_self]
      rfl
    · simp [newNode]
    · exact fun hn => Nat.lt_irrefl _ (h.1 _ hn)
    · exact fun m hm => Function.update_of_ne hm _ _
    · exact Nat.lt_succ_self _
    · exact Nat.le_succ _
    · rcases List.mem_append.mp hn with hn | hn
      · exact Nat.lt_succ_of_lt (h.1 n hn)
      · exact List.mem_singleton.mp hn ▸ Nat.lt_succ_self _
  keep g g' ns chunks h _ hnext := ⟨fun n hn => hnext ▸ h.1 n hn, h.2⟩

/-- Nodes that were constructed and used for nothing. -/
structure Unused (g : GraphObjects) (nodes : List NodeRef) : Prop where
  nodup : nodes.Nodup
  blank : ∀ n ∈ nodes, g.node n = { kind := (g.node n).kind }
  bound : ∀ n ∈ nodes, n < g.nextNode

/-- The entries of a list of nodes exist already. -/
lemma fetchSpec_nodes (kind : NodeRef → NodeKind) :
    FetchSpec (fun g n => .ok (n, g)) kind fun g ns nodes =>
      (ns ++ nodes).Nodup ∧ ∀ n ∈ nodes, g.node n = { kind := kind n } ∧ n < g.nextNode where
  fetch g ns n nodes h := by
    have hnd := h.1
    rw [List.append_cons] at hnd
    have hn : n ∉ ns := fun hn =>
      (List.nodup_append.mp h.1).2.2 n hn n List.mem_cons_self rfl
    obtain ⟨hblank, hbound⟩ := h.2 n List.mem_cons_self
    exact ⟨n, g, rfl, ⟨hblank, hn, fun _ _ => rfl, rfl, rfl, hbound, le_rfl⟩, hnd,
      fun m hm => h.2 m (List.mem_cons_of_mem _ hm)⟩
  keep g g' ns nodes h hsame hnext := by
    refine ⟨h.1, fun n hn => ?_⟩
    have hn' : n ∉ ns := fun hns => (List.nodup_append.mp h.1).2.2 n hns n hn rfl
    rw [hsame n hn', hnext]
    exact h.2 n hn

lemma startsBehind_chunks : StartsBehind nextFirstOfChunks := by
  intro g ns ks h l n hl hns
  have hprev : (g.node n).edgeAPrevNode = l.getLast? := h.linked.prev l n [] hns
  have hsome : l.getLast? = some (l.getLast hl) := List.getLast?_eq_some_getLast hl
  refine ⟨some (l.getLast hl), ?_, fun q hq => ?_⟩
  · rw [nextFirstOfChunks, hprev, hsome]
    rfl
  · obtain rfl := Option.some.inj hq
    exact hns ▸ List.mem_append_left _ (List.getLast_mem hl)

lemma startsBehind_nodes : StartsBehind nextFirstOfNodes := by
  intro g ns ks h l n _ hns
  refine ⟨none, ?_, fun q hq => by simp at hq⟩
  rw [nextFirstOfNodes, h.linked.next l n [] hns]
  rfl

/-- One unlinked node. -/
lemma built_singleton {n : NodeRef} {k : NodeKind} (hn : g.node n = { kind := k })
    (hbound : n < g.nextNode) : Built g [n] [k] := by
  have hcases : ∀ {l r : List NodeRef} {m : NodeRef}, [n] = l ++ m :: r →
      l = [] ∧ m = n ∧ r = [] := by
    intro l r m h
    cases l with
    | nil =>
        obtain ⟨rfl, rfl⟩ := List.cons.inj h
        exact ⟨rfl, rfl, rfl⟩
    | cons a l => simp at h
  refine ⟨⟨List.nodup_singleton n, fun l m r h => ?_, fun l m r h => ?_⟩, by simp [hn],
    fun m hm => List.mem_singleton.mp hm ▸ hbound⟩
  · obtain ⟨rfl, rfl, rfl⟩ := hcases h
    rw [hn]
    rfl
  · obtain ⟨rfl, rfl, rfl⟩ := hcases h
    rw [hn]
    rfl

/-- The classes of a body whose names are known. -/
lemma nodeKind_of_mapM {req : ChunkedSemanticCallRequest} (chunks : List BodyChunk) :
    ∀ {ks : List NodeKind}, chunks.mapM req.nodeKind = .ok ks →
      (∀ chunk ∈ chunks, req.nodeKind chunk = .ok (chunkKind req chunk)) ∧
        ks = chunks.map (chunkKind req) := by
  induction chunks with
  | nil =>
      intro ks h
      exact ⟨by simp, (Except.ok.inj h).symm⟩
  | cons chunk chunks ih =>
      intro ks h
      rw [List.mapM_cons] at h
      cases hk : req.nodeKind chunk with
      | error e => simp [hk, bind, Except.bind] at h
      | ok k =>
          cases hks : chunks.mapM req.nodeKind with
          | error e => simp [hk, hks, bind, Except.bind] at h
          | ok ks' =>
              obtain ⟨hall, rfl⟩ := ih hks
              have hkind : chunkKind req chunk = k := by
                rw [chunkKind, hk]
                rfl
              refine ⟨List.forall_mem_cons.mpr ⟨by rw [hkind, hk], hall⟩, ?_⟩
              rw [List.map_cons, hkind]
              simpa [hk, hks, bind, Except.bind, pure, Except.pure] using h.symm

/-- `from_chunked_request` on bodies with known names that do not start with an output. -/
lemma fromChunkedRequest_partitions_iff (g : GraphObjects) {req : ChunkedSemanticCallRequest}
    {ks : List NodeKind} (hks : req.body.mapM req.nodeKind = .ok ks)
    (hhead : ∀ k, ks.head? = some k → k.isGen = false) :
    (∃ rc g', g.fromChunkedRequest req = .ok (some (rc, g')) ∧ Partitions g' rc ks) ↔
      ks ≠ [] ∧ outputs ks ≤ 1 := by
  obtain ⟨hkind, rfl⟩ := nodeKind_of_mapM req.body hks
  cases hbody : req.body with
  | nil => simp [fromChunkedRequest, hbody]
  | cons chunk chunks =>
      rw [hbody] at hkind hhead
      have hgen : (chunkKind req chunk).isGen = false := hhead _ rfl
      have hnode : (g.newNode (chunkKind req chunk)).2.node g.nextNode =
          { kind := chunkKind req chunk } := by
        simp [newNode]
      have hloop : InLoop (fun g ns chunks => (∀ n ∈ ns, n < g.nextNode) ∧
            ∀ chunk ∈ chunks, req.nodeKind chunk = .ok (chunkKind req chunk))
          (g.newNode (chunkKind req chunk)).2 [g.nextNode] [chunkKind req chunk] g.nextNode
          chunks := by
        refine ⟨built_singleton hnode (Nat.lt_succ_self _), rfl, fun n hn => ?_,
          fun c hc => hkind c (List.mem_cons_of_mem _ hc)⟩
        exact List.mem_singleton.mp hn ▸ Nat.lt_succ_self _
      have hfetch : req.newChunkNode g chunk =
          .ok (g.nextNode, (g.newNode (chunkKind req chunk)).2) := by
        rw [ChunkedSemanticCallRequest.newChunkNode, hkind chunk List.mem_cons_self]
        rfl
      rw [fromChunkedRequest, hbody]
      simp only [hfetch, SemanticNode.isGen, hnode, hgen]
      simpa using buildChains_partitions_iff (fetchSpec_chunks req) startsBehind_chunks
        { requestId := req.requestId, sessionId := req.sessionId, firstNode := g.nextNode,
          metadata := req.metadata } hloop hgen rfl rfl

/-- `from_nodes` on unused nodes that do not start with a Gen. -/
lemma fromNodes_partitions_iff (g : GraphObjects) {nodes : List NodeRef}
    (hnodes : g.Unused nodes) (metadata : SemanticCallMetadata)
    (hhead : ∀ n, nodes.head? = some n → (g.node n).isGen = false) :
    (∃ rc g', g.fromNodes nodes metadata = .ok (some (rc, g')) ∧
        Partitions g' rc (nodes.map fun n => (g.node n).kind)) ↔
      nodes ≠ [] ∧ outputs (nodes.map fun n => (g.node n).kind) ≤ 1 := by
  cases nodes with
  | nil => simp [fromNodes]
  | cons n ns =>
      have hblank := hnodes.blank n List.mem_cons_self
      have hloop : InLoop (fun g' ns' nodes => (ns' ++ nodes).Nodup ∧
            ∀ n ∈ nodes, g'.node n = { kind := (g.node n).kind } ∧ n < g'.nextNode)
          g [n] [(g.node n).kind] n ns :=
        ⟨built_singleton hblank (hnodes.bound n List.mem_cons_self), rfl, hnodes.nodup,
          fun m hm => ⟨hnodes.blank m (List.mem_cons_of_mem _ hm),
            hnodes.bound m (List.mem_cons_of_mem _ hm)⟩⟩
      rw [fromNodes]
      simpa using buildChains_partitions_iff
        (fetchSpec_nodes fun n => (g.node n).kind) startsBehind_nodes
        { requestId := 0, sessionId := 0, firstNode := n, metadata } hloop
        (hhead n rfl) rfl rfl

/-- **The completion chains partition a request exactly when it has at most one output.**  For
every body of known names and every list of unused nodes that do not start with an output; an
empty body or list is refused. -/
theorem completion_chains_partition (g : GraphObjects) :
    (∀ (req : ChunkedSemanticCallRequest) (ks : List NodeKind),
      req.body.mapM req.nodeKind = .ok ks → (∀ k, ks.head? = some k → k.isGen = false) →
      ((∃ rc g', g.fromChunkedRequest req = .ok (some (rc, g')) ∧ Partitions g' rc ks) ↔
        ks ≠ [] ∧ outputs ks ≤ 1)) ∧
    ∀ (nodes : List NodeRef) (metadata : SemanticCallMetadata), g.Unused nodes →
      (∀ n, nodes.head? = some n → (g.node n).isGen = false) →
      ((∃ rc g', g.fromNodes nodes metadata = .ok (some (rc, g')) ∧
          Partitions g' rc (nodes.map fun n => (g.node n).kind)) ↔
        nodes ≠ [] ∧ outputs (nodes.map fun n => (g.node n).kind) ≤ 1) :=
  ⟨fun _ _ hks hhead => g.fromChunkedRequest_partitions_iff hks hhead,
    fun _ metadata hnodes hhead => g.fromNodes_partitions_iff hnodes metadata hhead⟩

/-- A request for `outputs` generations, with a text before each of them. -/
def alternating : List Text → ChunkedSemanticCallRequest
  | names => {
      requestId := 0
      sessionId := 0
      body := names.flatMap fun name => [.textChunk 0 "text".toList, .placeholderChunk 0 name]
      parametersMap := names.map fun name => (name, { name, isOutput := true }) }

/-- The nodes of such a request. -/
def alternatingNodes (names : List Text) : GraphObjects :=
  names.foldl (fun g name =>
    ((g.newNode (.constantFill "text".toList)).2.newNode
      (.placeholderGen { name, isOutput := true })).2) empty

/-- With two outputs, the second chain of `from_chunked_request` is the end of the first one, and
that of `from_nodes` is empty. -/
theorem completion_chains_two_outputs :
    (∃ rc g', empty.fromChunkedRequest (alternating ["a".toList, "b".toList]) =
        .ok (some (rc, g')) ∧ rc.compChains = [0, 1] ∧ g'.iter 0 = .ok (some [0, 1]) ∧
      g'.iter 1 = .ok (some [0, 1]) ∧ (g'.chain 1).genNode = some 3 ∧
      (g'.node 1).completionChain = some 1 ∧ (g'.node 3).completionChain = none) ∧
    ∃ rc g', (alternatingNodes ["a".toList, "b".toList]).fromNodes [0, 1, 2, 3] =
        .ok (some (rc, g')) ∧ rc.compChains = [0, 1] ∧ g'.iter 1 = .ok (some []) ∧
      g'.iterFill 1 = .error .attributeError ∧ (g'.chain 1).genNode = some 3 :=
  ⟨⟨_, _, rfl, rfl, rfl, rfl, rfl, rfl, rfl⟩, _, _, rfl, rfl, rfl, rfl, rfl⟩

/-- With one output the chain is the whole request. -/
theorem completion_chains_one_output :
    ∃ rc g', empty.fromChunkedRequest (alternating ["a".toList]) = .ok (some (rc, g')) ∧
      Partitions g' rc [.constantFill "text".toList,
        .placeholderGen { name := "a".toList, isOutput := true }] :=
  ((completion_chains_partition empty).1 (alternating ["a".toList]) _ rfl
    (fun k hk => by cases hk; rfl)).mpr (by decide)

end GraphObjects

end ParrotServe
