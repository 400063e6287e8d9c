import ParrotServe.Properties.RequestMeaning
import Mathlib.Logic.Relation

/-!
# Nodes in the order of their construction

A request links every node to the one constructed before it, so the edges of a request go from
earlier nodes to later ones.  `Forward` says this of all nodes there are, and what it means for the
completion chains: the fill iterator of the chain of a Gen node comes to this node.  The later
chains of a request start in front of the Gen before them, and are no exception.

`Forward.fromChunkedRequest` is the specification of the constructor: nodes that were there keep
their classes and variables, and the nodes of the request are new.
-/

namespace ParrotServe

namespace GraphObjects

variable {g g' : GraphObjects} {q p n m : NodeRef}

/-! ## Paths to Gen nodes -/

/-- One step of the fill iterator. -/
def FillStep (g : GraphObjects) (n m : NodeRef) : Prop :=
  (g.node n).isGen = false ∧ (g.node n).edgeANextNode = some m

/-- The fill iterator comes from one node to another. -/
abbrev FillPath (g : GraphObjects) : NodeRef → NodeRef → Prop :=
  Relation.ReflTransGen g.FillStep

/-- Edges of type A go forward, and the fill iterator of the chain of a Gen node ends there. -/
structure Forward (g : GraphObjects) : Prop where
  sv : ∀ {n}, g.nextNode ≤ n → (g.node n).sv = none
  chainNone : ∀ {n}, g.nextNode ≤ n → (g.node n).completionChain = none
  next : ∀ {n m}, (g.node n).edgeANextNode = some m →
    n < m ∧ m < g.nextNode ∧ (g.node m).edgeAPrevNode = some n
  prev : ∀ {n m}, (g.node n).edgeAPrevNode = some m → m < n
  chain : ∀ {n c}, (g.node n).isGen = true → (g.node n).completionChain = some c →
    c < g.nextChain ∧ ∃ q, (g.chain c).firstNode = some q ∧ g.FillPath q n

lemma forward_empty : empty.Forward where
  sv _ := rfl
  chainNone _ := rfl
  next h := by cases h
  prev h := by cases h
  chain h := by cases h

/-- What a path yields: nodes in front of its end. -/
lemma Forward.yields (h : g.Forward) (hpath : g.FillPath q p) (hgen : (g.node p).isGen = true) :
    q ≤ p ∧ ∃ l, Yields g.completionChainFillNext (some q) l ∧ (∀ n ∈ l, n < p) ∧
      l.length + q ≤ p := by
  induction hpath using Relation.ReflTransGen.head_induction_on with
  | refl => exact ⟨le_rfl, [], by simp [Yields, completionChainFillNext, hgen], by simp, by simp⟩
  | head hstep hrest ih =>
      rename_i x y
      obtain ⟨hfill, hnext⟩ := hstep
      obtain ⟨hle, l, hl, hlt, hlen⟩ := ih
      have hxy : x < y := (h.next hnext).1
      refine ⟨(hxy.trans_le hle).le, x :: l, ⟨some y, ?_, hl⟩, ?_, ?_⟩
      · simp [completionChainFillNext, hfill, hnext]
      · exact List.forall_mem_cons.mpr ⟨hxy.trans_le hle, hlt⟩
      · rw [List.length_cons, Nat.add_right_comm]
        exact (Nat.add_lt_add_left hxy l.length).trans_le hlen

/-- The fill iterator of a path within the fuel. -/
lemma Forward.iterFill (h : g.Forward) {c : ChainRef} (hgen : (g.node p).isGen = true)
    (hp : p < g.nextNode) (hc : (g.node p).completionChain = some c) :
    ∃ q l, (g.chain c).firstNode = some q ∧ q ≤ p ∧ g.iterFill c = .ok (some l) ∧
      ∀ n ∈ l, n < p := by
  obtain ⟨-, q, hfirst, hpath⟩ := h.chain hgen hc
  obtain ⟨hle, l, hl, hlt, hlen⟩ := h.yields hpath hgen
  refine ⟨q, l, hfirst, hle, ?_, hlt⟩
  rw [GraphObjects.iterFill, hfirst]
  exact drain_of_yields hl (Nat.lt_succ_of_lt ((Nat.le_add_right _ _).trans hlen |>.trans_lt hp))

/-- The iterator of a chain comes to each of its nodes over fills. -/
lemma Forward.fillPath (h : g.Forward) (l : List NodeRef) : ∀ {q},
    Yields g.completionChainNext (some q) l → p ∈ l → g.FillPath q p := by
  induction l with
  | nil => exact fun _ hp => absurd hp List.not_mem_nil
  | cons x l ih =>
      intro q hl hp
      obtain ⟨c, hc, hl⟩ := hl
      rw [completionChainNext] at hc
      by_cases hprev : g.prevIsGen q
      · rw [if_pos hprev] at hc
        cases hc
      rw [if_neg hprev] at hc
      obtain ⟨rfl, rfl⟩ := Prod.mk.inj (Option.some.inj (Except.ok.inj hc))
      rcases List.mem_cons.mp hp with rfl | hp
      · exact .refl
      cases hnext : (g.node q).edgeANextNode with
      | none =>
          rw [hnext] at hl
          cases l with
          | nil => exact absurd hp List.not_mem_nil
          | cons y l =>
              obtain ⟨_, hstop, -⟩ := hl
              cases hstop
      | some y =>
          rw [hnext] at hl
          have hfill : (g.node q).isGen = false := by
            -- a Gen would stop the iterator at the node behind it
            by_contra hq
            have hstop : g.completionChainNext (some y) = .ok none := by
              rw [completionChainNext, prevIsGen, (h.next hnext).2.2]
              exact if_pos (Bool.eq_true_of_not_eq_false hq)
            cases l with
            | nil => exact absurd hp List.not_mem_nil
            | cons z l =>
                obtain ⟨_, hz, -⟩ := hl
                rw [hstop] at hz
                cases hz
          exact .head ⟨hfill, hnext⟩ (ih hl hp)

/-! ## One round of the construction -/

/-- More nodes; those that were there keep their classes, and all keep their variables. -/
structure Kept (g g' : GraphObjects) : Prop where
  nextNode : g.nextNode ≤ g'.nextNode
  kind : ∀ {n}, n < g.nextNode → (g'.node n).kind = (g.node n).kind
  sv : ∀ n, (g'.node n).sv = (g.node n).sv

lemma Kept.refl (g : GraphObjects) : g.Kept g := ⟨le_rfl, fun _ => rfl, fun _ => rfl⟩

lemma Kept.trans {g'' : GraphObjects} (h : g.Kept g') (h' : g'.Kept g'') : g.Kept g'' where
  nextNode := h.nextNode.trans h'.nextNode
  kind hn := (h'.kind (hn.trans_le h.nextNode)).trans (h.kind hn)
  sv n := (h'.sv n).trans (h.sv n)

/-- Nodes behind no other node of the heap have no edges. -/
lemma Forward.lt_of_next (h : g.Forward) (hnext : (g.node n).edgeANextNode = some m) :
    n < g.nextNode :=
  (h.next hnext).1.trans (h.next hnext).2.1

/-- A change of the heap in which every fill step stays one. -/
lemma Forward.chain_congr (h : g.Forward) (hsteps : ∀ n m, g.FillStep n m → g'.FillStep n m)
    (hchain : ∀ c < g.nextChain, g'.chain c = g.chain c) (hnextChain : g.nextChain ≤ g'.nextChain)
    {c : ChainRef} (hgen : (g.node n).isGen = true) (hc : (g.node n).completionChain = some c) :
    c < g'.nextChain ∧ ∃ q, (g'.chain c).firstNode = some q ∧ g'.FillPath q n := by
  obtain ⟨hlt, q, hfirst, hpath⟩ := h.chain hgen hc
  exact ⟨hlt.trans_le hnextChain, q, by rw [hchain c hlt, hfirst],
    Relation.ReflTransGen.mono hsteps _ _ hpath⟩

/-- A first node. -/
lemma Forward.newNode (h : g.Forward) (kind : NodeKind) :
    (g.newNode kind).2.Forward ∧ g.Kept (g.newNode kind).2 := by
  have hnew : (g.newNode kind).2.node g.nextNode = { kind } := Function.update_self _ _ _
  have hold : ∀ n, n ≠ g.nextNode → (g.newNode kind).2.node n = g.node n := fun n hn =>
    Function.update_of_ne hn _ _
  have hnode : ∀ n, g.nextNode + 1 ≤ n → n ≠ g.nextNode := fun n hn => (Nat.lt_of_succ_le hn).ne'
  have hsteps : ∀ n m, g.FillStep n m → (g.newNode kind).2.FillStep n m := fun n m hstep => by
    rw [FillStep, hold n (h.lt_of_next hstep.2).ne]
    exact hstep
  refine ⟨⟨fun {n} hn => ?_, fun {n} hn => ?_, fun {n m} hnext => ?_, fun {n m} hprev => ?_,
    fun {n c} hgen hc => ?_⟩, Nat.le_succ _, fun {n} hn => ?_, fun n => ?_⟩
  · rw [hold n (hnode n hn)]
    exact h.sv ((Nat.le_succ _).trans hn)
  · rw [hold n (hnode n hn)]
    exact h.chainNone ((Nat.le_succ _).trans hn)
  · by_cases hn : n = g.nextNode
    · rw [hn, hnew] at hnext
      cases hnext
    · rw [hold n hn] at hnext
      obtain ⟨hlt, hm, hback⟩ := h.next hnext
      exact ⟨hlt, Nat.lt_succ_of_lt hm, by rw [hold m hm.ne, hback]⟩
  · by_cases hn : n = g.nextNode
    · rw [hn, hnew] at hprev
      cases hprev
    · rw [hold n hn] at hprev
      exact h.prev hprev
  · by_cases hn : n = g.nextNode
    · rw [hn, hnew] at hc
      cases hc
    · rw [hold n hn] at hgen hc
      exact h.chain_congr hsteps (fun _ _ => rfl) le_rfl hgen hc
  · rw [hold n hn.ne]
  · by_cases hn : n = g.nextNode
    · rw [hn, hnew, h.sv le_rfl]
    · rw [hold n hn]

/-- Linking the newest node behind one without a successor. -/
lemma Forward.linkEdgeAWith (h : g.Forward) {prev : NodeRef} (hlt : prev < n)
    (hn : n < g.nextNode) (hend : (g.node prev).edgeANextNode = none)
    (hblank : (g.node n).edgeANextNode = none) (hstart : (g.node n).edgeAPrevNode = none) :
    (g.linkEdgeAWith n prev).Forward ∧ g.Kept (g.linkEdgeAWith n prev) ∧
      ((g.linkEdgeAWith n prev).node n).edgeANextNode = none := by
  have hnode : ∀ m, (g.linkEdgeAWith n prev).node m =
      if m = prev then { g.node prev with edgeANextNode := some n }
      else if m = n then { g.node n with edgeAPrevNode := some prev } else g.node m := by
    intro m
    by_cases hm : m = prev
    · simp [GraphObjects.linkEdgeAWith, setNode, hm, hlt.ne]
    · by_cases hmn : m = n
      · simp [GraphObjects.linkEdgeAWith, setNode, hmn, hlt.ne']
      · simp [GraphObjects.linkEdgeAWith, setNode, hm, hmn]
  have hfields : ∀ m, ((g.linkEdgeAWith n prev).node m).kind = (g.node m).kind ∧
      ((g.linkEdgeAWith n prev).node m).sv = (g.node m).sv ∧
      ((g.linkEdgeAWith n prev).node m).completionChain = (g.node m).completionChain := by
    intro m
    rw [hnode]
    split_ifs with hm hmn
    · exact hm ▸ ⟨rfl, rfl, rfl⟩
    · exact hmn ▸ ⟨rfl, rfl, rfl⟩
    · exact ⟨rfl, rfl, rfl⟩
  have hnexts : ∀ m, ((g.linkEdgeAWith n prev).node m).edgeANextNode =
      if m = prev then some n else (g.node m).edgeANextNode := by
    intro m
    rw [hnode]
    split_ifs with hm hmn
    · rfl
    · exact hmn ▸ rfl
    · rfl
  have hprevs : ∀ m, ((g.linkEdgeAWith n prev).node m).edgeAPrevNode =
      if m = n then some prev else (g.node m).edgeAPrevNode := by
    intro m
    rw [hnode]
    split_ifs with hm hmn hmn
    · exact absurd (hm.symm.trans hmn) hlt.ne
    · exact hm ▸ rfl
    · rfl
    · rfl
  have hsteps : ∀ x y, g.FillStep x y → (g.linkEdgeAWith n prev).FillStep x y := by
    rintro x y ⟨hfill, hnext⟩
    have hx : x ≠ prev := by
      rintro rfl
      rw [hend] at hnext
      cases hnext
    refine ⟨?_, by rw [hnexts, if_neg hx, hnext]⟩
    rw [SemanticNode.isGen, (hfields x).1]
    exact hfill
  refine ⟨⟨fun {m} hm => ?_, fun {m} hm => ?_, fun {x m} hnext => ?_, fun {x m} hprev => ?_,
    fun {m c} hgen hc => ?_⟩, ⟨le_rfl, fun _ => (hfields _).1, fun m => (hfields m).2.1⟩, ?_⟩
  · rw [(hfields m).2.1]
    exact h.sv hm
  · rw [(hfields m).2.2]
    exact h.chainNone hm
  · rw [hnexts] at hnext
    split_ifs at hnext with hx
    · obtain rfl := Option.some.inj hnext
      exact ⟨hx ▸ hlt, hn, by rw [hprevs, if_pos rfl, hx]⟩
    · obtain ⟨hxm, hm, hback⟩ := h.next hnext
      have hmn : m ≠ n := by
        rintro rfl
        rw [hstart] at hback
        cases hback
      exact ⟨hxm, hm, by rw [hprevs, if_neg hmn, hback]⟩
  · rw [hprevs] at hprev
    split_ifs at hprev with hx
    · obtain rfl := Option.some.inj hprev
      exact hx ▸ hlt
    · exact h.prev hprev
  · rw [SemanticNode.isGen, (hfields m).1] at hgen
    rw [(hfields m).2.2] at hc
    exact h.chain_congr hsteps (fun _ _ => rfl) le_rfl hgen hc
  · rw [hnexts, if_neg hlt.ne', hblank]

/-- The variables of nodes do not change when they get a chain. -/
lemma foldl_setCompChain_sv (c : ChainRef) (l : List NodeRef) : ∀ (g : GraphObjects) (n : NodeRef),
    ((l.foldl (fun g n => g.setCompChain n c) g).node n).sv = (g.node n).sv := by
  induction l with
  | nil => exact fun _ _ => rfl
  | cons a l ih =>
      intro g n
      rw [List.foldl_cons, ih, setCompChain, setNode]
      dsimp only
      rw [Function.update_apply]
      split_ifs with hn
      · rw [hn]
      · rfl

/-- A completion chain. -/
lemma Forward.newCompletionChain (h : g.Forward) {first : Option NodeRef} {gen : NodeRef}
    {c : ChainRef} (hfirst : ∀ q, first = some q → q < g.nextNode)
    (hok : g.newCompletionChain first gen = .ok (some (c, g'))) :
    g'.Forward ∧ g.Kept g' ∧ g'.nextNode = g.nextNode ∧ SameEdges g g' := by
  obtain ⟨l, hl, hc, hedges, hnextNode, hnextChain, hother, hchain, hnodes⟩ :=
    newCompletionChain_spec hok
  have hsv : ∀ n, (g'.node n).sv = (g.node n).sv := by
    intro n
    simp only [GraphObjects.newCompletionChain] at hok
    split at hok
    · cases hok
    · cases hok
    · obtain ⟨-, rfl⟩ := Prod.mk.inj (Option.some.inj (Except.ok.inj hok))
      exact foldl_setCompChain_sv _ _ _ n
  have hgen' : ∀ n, (g'.node n).isGen = (g.node n).isGen := fun n =>
    congrArg NodeKind.isGen (hedges n).1
  have hsteps : ∀ n m, g.FillStep n m → g'.FillStep n m := fun n m hstep => by
    rw [FillStep, hgen', (hedges n).2.2]
    exact hstep
  have hkept : ∀ c' < g.nextChain, g'.chain c' = g.chain c' := fun c' hlt => by
    rw [hchain, hc, Function.update_of_ne hlt.ne]
  have hmem : ∀ n ∈ l, ∃ q, first = some q ∧ g.FillPath q n := by
    intro n hn
    cases first with
    | none =>
        cases l with
        | nil => exact absurd hn List.not_mem_nil
        | cons x l =>
            obtain ⟨_, hstop, -⟩ := hl
            cases hstop
    | some q => exact ⟨q, rfl, h.fillPath l hl hn⟩
  refine ⟨⟨fun {n} hn => ?_, fun {n} hn => ?_, fun {n m} hnext => ?_, fun {n m} hprev => ?_,
    fun {n c'} hg hcc => ?_⟩, ⟨hnextNode.ge, fun _ => (hedges _).1, hsv⟩, hnextNode, hedges⟩
  · rw [hsv]
    exact h.sv (hnextNode ▸ hn)
  · rw [hnextNode] at hn
    have hnl : n ∉ l := by
      intro hin
      obtain ⟨q, hq, hpath⟩ := hmem n hin
      rcases Relation.ReflTransGen.cases_tail hpath with rfl | ⟨x, -, hstep⟩
      · exact absurd (hfirst _ hq) hn.not_gt
      · exact absurd (h.next hstep.2).2.1 hn.not_gt
    rw [hnodes, if_neg hnl, h.chainNone hn]
  · rw [(hedges n).2.2] at hnext
    rw [hnextNode, (hedges m).2.1]
    exact h.next hnext
  · rw [(hedges n).2.1] at hprev
    exact h.prev hprev
  · rw [hgen'] at hg
    rw [hnodes] at hcc
    split_ifs at hcc with hin
    · obtain rfl := Option.some.inj hcc
      obtain ⟨q, hq, hpath⟩ := hmem n hin
      refine ⟨hc ▸ hnextChain ▸ Nat.lt_succ_self _, q, ?_,
        Relation.ReflTransGen.mono hsteps _ _ hpath⟩
      rw [hchain, Function.update_self, hq]
    · exact h.chain_congr hsteps hkept (hnextChain ▸ Nat.le_succ _) hg hcc

/-- The iterators of chains and requests end. -/
lemma Forward.exists_drain (h : g.Forward) {next : IterNext PyError (Option NodeRef) NodeRef}
    (hnext : ∀ c, next c = .ok none ∨
      ∃ n, c = some n ∧ next c = .ok (some (n, (g.node n).edgeANextNode)))
    {first : Option NodeRef} (hfirst : ∀ q, first = some q → q < g.nextNode) :
    ∃ l, drain next (g.nextNode + 1) first = .ok (some l) := by
  have hcloser : ∀ a b k : ℕ, a < b → b < k → max 1 (k - b) < max 1 (k - a) := by omega
  have hbound : ∀ a k : ℕ, a < k → max 1 (k - a) < k + 1 := by omega
  refine @ParrotServe.exists_drain _ _ _ next (fun c => c.elim 0 fun n => max 1 (g.nextNode - n))
    (fun c => ?_) _ _ ?_
  · rcases hnext c with hc | ⟨n, rfl, hc⟩
    · exact .inl hc
    · refine .inr ⟨n, _, hc, ?_⟩
      cases hn : (g.node n).edgeANextNode with
      | none => exact Nat.lt_of_lt_of_le Nat.zero_lt_one (Nat.le_max_left _ _)
      | some m =>
          obtain ⟨hlt, hm, -⟩ := h.next hn
          exact hcloser n m g.nextNode hlt hm
  · cases first with
    | none => exact Nat.succ_pos _
    | some q => exact hbound q g.nextNode (hfirst q rfl)

lemma Forward.exists_requestIter (h : g.Forward) {rc : RequestChain}
    (hfirst : rc.firstNode < g.nextNode) : ∃ l, g.requestIter rc = .ok (some l) := by
  refine h.exists_drain (fun c => ?_) fun q hq => Option.some.inj hq ▸ hfirst
  cases c with
  | none => exact .inl rfl
  | some n => exact .inr ⟨n, rfl, rfl⟩

lemma Forward.exists_newCompletionChain (h : g.Forward) {first : Option NodeRef} (gen : NodeRef)
    (hfirst : ∀ q, first = some q → q < g.nextNode) :
    ∃ c g', g.newCompletionChain first gen = .ok (some (c, g')) := by
  have hends : ∃ l, drain g.completionChainNext (g.nextNode + 1) first = .ok (some l) := by
    refine h.exists_drain (fun c => ?_) hfirst
    cases c with
    | none => exact .inl rfl
    | some n =>
        by_cases hprev : g.prevIsGen n
        · exact .inl (if_pos hprev)
        · exact .inr ⟨n, rfl, if_neg hprev⟩
  obtain ⟨l, hl⟩ := hends
  have hiter : ({ g with
      chain := Function.update g.chain g.nextChain { firstNode := first, genNode := some gen }
      nextChain := g.nextChain + 1 } : GraphObjects).iter g.nextChain = .ok (some l) := by
    rw [iter]
    dsimp only
    rw [Function.update_self]
    exact hl
  simp only [GraphObjects.newCompletionChain]
  rw [hiter]
  exact ⟨_, _, rfl⟩

/-! ## The construction of a request -/

/-- The next chain starts at the node in front of its Gen. -/
lemma nextFirstOfChunks_eq (g : GraphObjects) (n : NodeRef) :
    nextFirstOfChunks g n = match (g.node n).edgeAPrevNode with
      | none => .error (.parrotAssert "Gen node should have a prev node.")
      | some prev => .ok (some prev) := by
  rw [nextFirstOfChunks]
  cases (g.node n).edgeAPrevNode <;> rfl

/-- A chunk becomes the newest node. -/
lemma newChunkNode_eq {req : ChunkedSemanticCallRequest} {chunk : BodyChunk} {kind : NodeKind}
    (hkind : req.nodeKind chunk = .ok kind) (g : GraphObjects) :
    req.newChunkNode g chunk = .ok (g.nextNode, (g.newNode kind).2) := by
  rw [ChunkedSemanticCallRequest.newChunkNode, hkind]
  rfl

/-- The newest node behind the last one. -/
lemma Forward.linkNewNode (h : g.Forward) {prev : NodeRef} (hprev : prev < g.nextNode)
    (hend : (g.node prev).edgeANextNode = none) (kind : NodeKind) :
    ((g.newNode kind).2.linkEdgeAWith g.nextNode prev).Forward ∧
      g.Kept ((g.newNode kind).2.linkEdgeAWith g.nextNode prev) ∧
      g.nextNode < ((g.newNode kind).2.linkEdgeAWith g.nextNode prev).nextNode ∧
      (((g.newNode kind).2.linkEdgeAWith g.nextNode prev).node g.nextNode).edgeANextNode = none ∧
      (((g.newNode kind).2.linkEdgeAWith g.nextNode prev).node g.nextNode).edgeAPrevNode =
        some prev := by
  obtain ⟨hnew, hkept⟩ := h.newNode kind
  have hnode : (g.newNode kind).2.node g.nextNode = { kind } := Function.update_self _ _ _
  have hend' : ((g.newNode kind).2.node prev).edgeANextNode = none := by
    rw [← hend]
    exact congrArg SemanticNode.edgeANextNode (Function.update_of_ne hprev.ne _ _)
  obtain ⟨hlink, hkept', hlast⟩ := hnew.linkEdgeAWith hprev (Nat.lt_succ_self _) hend'
    (by rw [hnode]) (by rw [hnode])
  refine ⟨hlink, hkept.trans hkept', Nat.lt_succ_self _, hlast, ?_⟩
  simp [GraphObjects.linkEdgeAWith, setNode, hprev.ne']

/-- The loop of `from_chunked_request` ends, and only fails at a placeholder without a
parameter. -/
lemma Forward.buildChains {req : ChunkedSemanticCallRequest} (chunks : List BodyChunk) :
    ∀ {g : GraphObjects} {prev : NodeRef} {first : Option NodeRef} (rc : RequestChain),
      g.Forward → prev < g.nextNode → (g.node prev).edgeANextNode = none →
      (∀ q, first = some q → q < g.nextNode) →
      (∃ rc' g', buildChains req.newChunkNode nextFirstOfChunks chunks prev first rc g =
          .ok (some (rc', g')) ∧ g'.Forward ∧ g.Kept g' ∧ rc'.firstNode = rc.firstNode) ∨
        ∃ e, buildChains req.newChunkNode nextFirstOfChunks chunks prev first rc g = .error e ∧
          ∃ chunk ∈ chunks, ∃ e', req.nodeKind chunk = .error e' := by
  induction chunks with
  | nil => exact fun {g prev first} rc h _ _ _ => .inl ⟨rc, g, rfl, h, .refl g, rfl⟩
  | cons chunk chunks ih =>
      intro g prev first rc h hprev hend hfirst
      rw [GraphObjects.buildChains]
      cases hkind : req.nodeKind chunk with
      | error e =>
          refine .inr ⟨e, ?_, chunk, List.mem_cons_self, e, hkind⟩
          rw [ChunkedSemanticCallRequest.newChunkNode, hkind]
          rfl
      | ok kind =>
          obtain ⟨hlink, hkept, hn, hlast, hback⟩ := h.linkNewNode hprev hend kind
          rw [newChunkNode_eq hkind]
          dsimp only
          generalize (g.newNode kind).2.linkEdgeAWith g.nextNode prev = g₁ at *
          have hfirst' : ∀ q, first = some q → q < g₁.nextNode :=
            fun q hq => (hfirst q hq).trans hn
          split_ifs
          · obtain ⟨c, g₂, hchain⟩ := hlink.exists_newCompletionChain g.nextNode hfirst'
            obtain ⟨hforward, hkept₂, hsame, hedges⟩ := hlink.newCompletionChain hfirst' hchain
            rw [hchain]
            dsimp only
            rw [nextFirstOfChunks_eq, (hedges _).2.1, hback]
            dsimp only
            have hfirst₂ : ∀ q, some prev = some q → q < g₂.nextNode := fun q hq =>
              Option.some.inj hq ▸ (hprev.trans hn).trans_eq hsame.symm
            rcases ih { rc with compChains := rc.compChains ++ [c] } hforward
              (hsame ▸ hn) ((hedges _).2.2.trans hlast) hfirst₂ with
              ⟨rc', g', hok, hall, hkept', hrc⟩ | ⟨e, herr, b, hb, hfail⟩
            · exact .inl ⟨rc', g', hok, hall, (hkept.trans hkept₂).trans hkept', hrc⟩
            · exact .inr ⟨e, herr, b, List.mem_cons_of_mem _ hb, hfail⟩
          · rcases ih rc hlink hn hlast hfirst' with
              ⟨rc', g', hok, hall, hkept', hrc⟩ | ⟨e, herr, b, hb, hfail⟩
            · exact .inl ⟨rc', g', hok, hall, hkept.trans hkept', hrc⟩
            · exact .inr ⟨e, herr, b, List.mem_cons_of_mem _ hb, hfail⟩

/-- Bodies that become a chain: not empty, with a parameter for each placeholder, and without an
output at the start. -/
structure Buildable (req : ChunkedSemanticCallRequest) : Prop where
  nonempty : req.body ≠ []
  kinds : ∀ chunk ∈ req.body, ∃ kind, req.nodeKind chunk = .ok kind
  head : ∀ chunk kind, req.body.head? = some chunk → req.nodeKind chunk = .ok kind →
    kind.isGen = false

/-- **The constructor of request chains** ends, and fails exactly on bodies that are no chains.
The nodes of the request are new, and their edges go forward. -/
lemma Forward.fromChunkedRequest_total (h : g.Forward) (req : ChunkedSemanticCallRequest) :
    (Buildable req ∧ ∃ rc g', g.fromChunkedRequest req = .ok (some (rc, g')) ∧ g'.Forward ∧
        g.Kept g' ∧ rc.firstNode = g.nextNode ∧ g.nextNode < g'.nextNode) ∨
      (¬ Buildable req ∧ ∃ e, g.fromChunkedRequest req = .error e) := by
  rw [GraphObjects.fromChunkedRequest]
  cases hbody : req.body with
  | nil => exact .inr ⟨fun hb => hb.nonempty hbody, _, rfl⟩
  | cons chunk chunks =>
      cases hkind : req.nodeKind chunk with
      | error e =>
          refine .inr ⟨fun hb => ?_, e, ?_⟩
          · obtain ⟨kind, hok⟩ := hb.kinds chunk (hbody ▸ List.mem_cons_self)
            rw [hkind] at hok
            cases hok
          · dsimp only
            rw [ChunkedSemanticCallRequest.newChunkNode, hkind]
            rfl
      | ok kind =>
          obtain ⟨hnew, hkept⟩ := h.newNode kind
          have hnode : (g.newNode kind).2.node g.nextNode = { kind } := Function.update_self _ _ _
          have hn : g.nextNode < (g.newNode kind).2.nextNode := Nat.lt_succ_self _
          have hfirst : ∀ q, some g.nextNode = some q → q < (g.newNode kind).2.nextNode :=
            fun q hq => Option.some.inj hq ▸ hn
          dsimp only
          rw [newChunkNode_eq hkind]
          dsimp only
          have hgen : ((g.newNode kind).2.node g.nextNode).isGen = kind.isGen := by rw [hnode]
          rw [hgen]
          split_ifs with hout
          · obtain ⟨c, g₂, hchain⟩ := hnew.exists_newCompletionChain g.nextNode hfirst
            obtain ⟨-, -, -, hedges⟩ := hnew.newCompletionChain hfirst hchain
            refine .inr ⟨fun hb => ?_, ?_⟩
            · have hfill := hb.head chunk kind (by rw [hbody]; rfl) hkind
              rw [hout] at hfill
              cases hfill
            · rw [hchain]
              dsimp only
              rw [nextFirstOfChunks_eq, (hedges _).2.1, hnode]
              exact ⟨_, rfl⟩
          · rcases Forward.buildChains chunks _ hnew hn (by rw [hnode]) hfirst with
              ⟨rc', g', hok, hall, hkept', hrc⟩ | ⟨e, herr, b, hb, e', hfail⟩
            · refine .inl ⟨⟨by rw [hbody]; exact List.cons_ne_nil _ _, ?_, ?_⟩, rc', g', hok, hall,
                hkept.trans hkept', hrc, hn.trans_le hkept'.nextNode⟩
              · rw [hbody]
                exact List.forall_mem_cons.mpr ⟨⟨kind, hkind⟩, fun b hb =>
                  ⟨_, nodeKind_of_buildChains chunks hok b hb⟩⟩
              · intro b k hb hk
                rw [hbody] at hb
                obtain rfl := Option.some.inj hb
                rw [hkind] at hk
                exact Except.ok.inj hk ▸ Bool.eq_false_of_not_eq_true hout
            · refine .inr ⟨fun hbuild => ?_, e, herr⟩
              obtain ⟨k, hk⟩ := hbuild.kinds b (hbody ▸ List.mem_cons_of_mem _ hb)
              rw [hfail] at hk
              cases hk

/-- The nodes of a request that becomes a chain. -/
lemma Forward.fromChunkedRequest (h : g.Forward) {req : ChunkedSemanticCallRequest}
    {rc : RequestChain} (hok : g.fromChunkedRequest req = .ok (some (rc, g'))) :
    g'.Forward ∧ g.Kept g' ∧ rc.firstNode = g.nextNode ∧ g.nextNode < g'.nextNode := by
  rcases h.fromChunkedRequest_total req with ⟨-, rc', g'', hok', hrest⟩ | ⟨-, e, herr⟩
  · obtain ⟨rfl, rfl⟩ := Prod.mk.inj
      (Option.some.inj (Except.ok.inj (hok.symm.trans hok')))
    exact hrest
  · rw [herr] at hok
    cases hok

/-! ## The variables of the nodes -/

/-- The nodes of a request in the order of its iterator. -/
lemma Forward.requestNodes (h : g.Forward) (l : List NodeRef) : ∀ {first},
    first < g.nextNode → Yields g.requestChainNext (some first) l →
      l.Pairwise (· < ·) ∧ ∀ n ∈ l, first ≤ n ∧ n < g.nextNode := by
  induction l with
  | nil => exact fun _ _ => ⟨.nil, fun n hn => absurd hn List.not_mem_nil⟩
  | cons x l ih =>
      intro first hfirst hl
      obtain ⟨c, hc, hl⟩ := hl
      obtain ⟨rfl, rfl⟩ := Prod.mk.inj (Option.some.inj (Except.ok.inj hc))
      cases hnext : (g.node first).edgeANextNode with
      | none =>
          rw [hnext] at hl
          cases l with
          | nil =>
              refine ⟨List.pairwise_singleton _ _, fun n hn => ?_⟩
              obtain rfl := List.mem_singleton.mp hn
              exact ⟨le_rfl, hfirst⟩
          | cons y l =>
              obtain ⟨_, hstop, -⟩ := hl
              cases hstop
      | some y =>
          rw [hnext] at hl
          obtain ⟨hlt, hy, -⟩ := h.next hnext
          obtain ⟨hpairs, hall⟩ := ih hy hl
          refine ⟨List.pairwise_cons.mpr ⟨fun n hn => hlt.trans_le (hall n hn).1, hpairs⟩, ?_⟩
          refine List.forall_mem_cons.mpr ⟨⟨le_rfl, hfirst⟩, fun n hn => ?_⟩
          exact ⟨(hlt.trans_le (hall n hn).1).le, (hall n hn).2⟩

/-- Chains stay when the nodes get their variables. -/
lemma setSvs_chains (l : List (NodeRef × SvRef)) : ∀ g : GraphObjects,
    (g.setSvs l).nextChain = g.nextChain ∧
      ∀ n, ((g.setSvs l).node n).completionChain = (g.node n).completionChain := by
  induction l with
  | nil => exact fun _ => ⟨rfl, fun _ => rfl⟩
  | cons x l ih =>
      intro g
      obtain ⟨hnext, hchain⟩ := ih (g.setNode x.1 { g.node x.1 with sv := some x.2 })
      refine ⟨hnext, fun n => (hchain n).trans ?_⟩
      rw [setNode]
      dsimp only
      rw [Function.update_apply]
      split_ifs with hn
      · rw [hn]
      · rfl

lemma Forward.setSvs (h : g.Forward) {l : List (NodeRef × SvRef)}
    (hl : ∀ n ∈ l.map Prod.fst, n < g.nextNode) : (g.setSvs l).Forward := by
  obtain ⟨hedges, hchain, hnextNode, hother, -⟩ := setSvs_spec l g
  obtain ⟨hnextChain, hchains⟩ := setSvs_chains l g
  have hgen : ∀ n, ((g.setSvs l).node n).isGen = (g.node n).isGen := fun n =>
    congrArg NodeKind.isGen (hedges n).1
  have hsteps : ∀ n m, g.FillStep n m → (g.setSvs l).FillStep n m := fun n m hstep => by
    rw [FillStep, hgen, (hedges n).2.2]
    exact hstep
  refine ⟨fun {n} hn => ?_, fun {n} hn => ?_, fun {n m} hnext => ?_, fun {n m} hprev => ?_,
    fun {n c} hg hc => ?_⟩
  · rw [hnextNode] at hn
    rw [hother n fun hin => absurd (hl n hin) hn.not_gt]
    exact h.sv hn
  · rw [hchains]
    exact h.chainNone (hnextNode ▸ hn)
  · rw [(hedges n).2.2] at hnext
    rw [hnextNode, (hedges m).2.1]
    exact h.next hnext
  · rw [(hedges n).2.1] at hprev
    exact h.prev hprev
  · rw [hgen] at hg
    rw [hchains] at hc
    exact h.chain_congr hsteps (fun _ _ => by rw [hchain]) hnextChain.ge hg hc

end GraphObjects

end ParrotServe
