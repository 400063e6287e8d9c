import ParrotServe.Framework.LongestPaths
import ParrotServe.Properties.Activation

/-!
# The depth of an output is the longest chain length

`_traverse` returns early at a variable that an earlier call activated, with the depth that call
left there.  So the depth of a new variable is put together from depths of different calls, and it
is the length of a longest path only because all of them are.

`ComputeGraph.ChainPath g v path` is a path of completion chains backward from the chain of `v`.
The invariant `DepthInv` says that what is activated has the `height` of it, the number of chains
on a longest such path.  `traverseAll_measures` follows the loop over the fills of a chain and
`traverse_measures` the recursion, each for every state of the graph in which the invariant
holds, so that it does not matter what was activated before, or in which order.

The runs are those of semantic requests: no native functions, and something before the output of
each request, as `from_chunked_request` asserts.
-/

namespace ParrotServe

namespace ComputeGraph

variable {g g' : ComputeGraph} {v w : SvRef}

/-- A path of completion chains, from the chain of `v` backward through what the chains fill. -/
def ChainPath (g : ComputeGraph) (v : SvRef) (path : List SvRef) : Prop :=
  LongestPaths.BackwardPath g.inputs g.HasProducer v path

/-- The number of completion chains on a longest backward path. -/
noncomputable def chainHeight (g : ComputeGraph) (v : SvRef) : ℕ :=
  LongestPaths.height g.inputs g.HasProducer v

/-- Only semantic requests are inserted, and each fills something before its output. -/
def SemanticRequestsOnly (_ : ComputeGraph) : Action → Prop
  | .insertNativeFuncNode _ _ => False
  | .insertRequestChain fills => fills ≠ []
  | .createVar => True
  | .activateSv _ _ => True

instance (g : ComputeGraph) : ∀ a, Decidable (g.SemanticRequestsOnly a)
  | .insertNativeFuncNode _ _ => .isFalse id
  | .insertRequestChain fills => decidable_of_iff (fills.isEmpty = false) List.isEmpty_eq_false_iff
  | .createVar => .isTrue trivial
  | .activateSv _ _ => .isTrue trivial

/-- What the graph of semantic requests keeps. -/
structure DepthInv (g : ComputeGraph) : Prop where
  wellFormed : g.WellFormed
  /-- Every producer is a completion chain that fills something. -/
  chained : ∀ v p, g.producer v = some p → ∃ chain, p = .placeholderGen chain ∧ chain.fills ≠ []
  produced : ∀ v, g.IsActivated v → g.HasProducer v
  /-- An activated variable has the depth of a longest path. -/
  deepest : ∀ v criteria depth, g.activation v = some (criteria, depth) → depth = g.chainHeight v

lemma chainHeight_eq (h : g'.producer = g.producer) : g'.chainHeight = g.chainHeight := by
  funext v
  rw [chainHeight, chainHeight, inputs_eq h, hasProducer_eq h]

/-- The height of a chain that fills something. -/
lemma DepthInv.chainHeight_rec (h : DepthInv g) {chain : CompletionChainView}
    (hv : g.producer v = some (.placeholderGen chain)) :
    g.chainHeight v = chain.fills.foldl (fun d w => max d (g.chainHeight w + 1)) 0 := by
  have hinputs : g.inputs v = chain.fills := by rw [inputs, hv, inputsOf]
  obtain ⟨_, hchain, hne⟩ := h.chained v _ hv
  obtain rfl := SVProducer.placeholderGen.inj hchain
  have hproducer : g.HasProducer v := fun hnone => by cases hv.symm.trans hnone
  have hheight := LongestPaths.height_eq h.wellFormed.rank hproducer (hinputs ▸ hne)
  rwa [hinputs] at hheight

/-! ## Traversing -/

/-- `r` is the outcome of a traversal of `g` which returns `expected` unless it raises. -/
structure Measures (g : ComputeGraph) (expected : ℕ) (r : Except PyError ℕ × ComputeGraph) :
    Prop where
  producer : r.2.producer = g.producer
  inv : DepthInv r.2
  returned : ∀ depth, r.1 = .ok depth → depth = expected

lemma DepthInv.joinGroup (h : DepthInv g) (v : SvRef) (group : Option GroupRef) :
    DepthInv (g.joinGroup v group) := by
  cases group with
  | none => exact h
  | some group => exact ⟨⟨h.1.1, h.1.2, h.1.3⟩, h.2, h.3, h.4⟩

lemma DepthInv.newGroup (h : DepthInv g) : DepthInv g.newGroup :=
  ⟨⟨h.1.1, h.1.2, h.1.3⟩, h.2, h.3, h.4⟩

/-- Activating a variable with the depth of a longest path. -/
lemma DepthInv.activate (h : DepthInv g) (criteria : PerformanceCriteria) (hv : g.HasProducer v) :
    Measures g (g.chainHeight v) (g.activate v criteria (g.chainHeight v)) := by
  unfold ComputeGraph.activate
  by_cases ha : g.IsActivated v
  · rw [if_pos ha]
    exact ⟨rfl, h, fun _ hok => by cases hok⟩
  · rw [if_neg ha]
    refine ⟨rfl, ⟨h.wellFormed.congr rfl rfl fun x hx => ?_, h.chained, fun x hx => ?_,
      fun x c d hx => ?_⟩, fun depth hok => (Except.ok.inj hok).symm⟩
    · by_cases hxv : x = v
      · exact .inr (hxv ▸ hv)
      · exact .inl fun hnone => hx ((Function.update_of_ne hxv _ _).trans hnone)
    · by_cases hxv : x = v
      · exact hxv ▸ hv
      · exact h.produced x fun hnone => hx ((Function.update_of_ne hxv _ _).trans hnone)
    · by_cases hxv : x = v
      · have hself : (some (criteria, g.chainHeight v) : Option (PerformanceCriteria × ℕ)) =
            some (c, d) := by
          rw [← hx, hxv]
          exact (Function.update_self v _ g.activation).symm
        rw [hxv]
        exact (congrArg Prod.snd (Option.some.inj hself)).symm
      · exact h.deepest x c d ((Function.update_of_ne hxv _ _).symm.trans hx)

/-- The loop over a list of variables takes the maximum of what their traversals return. -/
lemma traverseAll_measures {visit : SvRef → ComputeGraph → Except PyError ℕ × ComputeGraph}
    (weight : ℕ) : ∀ (xs : List SvRef) (depth : ℕ) {g : ComputeGraph}, DepthInv g →
      (∀ v ∈ xs, ∀ g', DepthInv g' → Measures g' (g'.chainHeight v) (visit v g')) →
      Measures g (xs.foldl (fun d w => max d (g.chainHeight w + weight)) depth)
        (traverseAll visit weight xs depth g)
  | [], depth, g, h, _ => ⟨rfl, h, fun _ hok => (Except.ok.inj hok).symm⟩
  | v :: xs, depth, g, h, hvisit => by
      have hv := hvisit v List.mem_cons_self g h
      unfold traverseAll
      rcases hr : visit v g with ⟨e | d, g₁⟩
      · rw [hr] at hv
        exact ⟨hv.producer, hv.inv, fun _ hok => by cases hok⟩
      · rw [hr] at hv
        have hrest := traverseAll_measures weight xs (max depth (d + weight)) hv.inv
          fun w hw => hvisit w (List.mem_cons_of_mem _ hw)
        rw [hv.returned d rfl, chainHeight_eq hv.producer] at hrest
        rw [hv.returned d rfl]
        exact ⟨hrest.producer.trans hv.producer, hrest.inv, hrest.returned⟩

/-- `_traverse` returns the number of chains on a longest path, for any state of the graph. -/
lemma traverse_measures : ∀ (fuel : ℕ) (v : SvRef) (criteria : PerformanceCriteria)
    (group : Option GroupRef) {g : ComputeGraph}, DepthInv g →
      Measures g (g.chainHeight v) (traverse fuel v criteria group g) := by
  intro fuel
  induction fuel with
  | zero => exact fun v criteria group g h => ⟨rfl, h, fun _ hok => by cases hok⟩
  | succ fuel ih =>
      intro v criteria group g h
      rw [traverse]
      rcases backPropagateCriteria criteria with e | nextCriteria
      · exact ⟨rfl, h, fun _ hok => by cases hok⟩
      cases hp : g.producer v with
      | none =>
          have hzero : g.chainHeight v = 0 := LongestPaths.height_of_not_isVertex fun hv => hv hp
          exact ⟨rfl, h, fun _ hok => (Except.ok.inj hok).symm.trans hzero.symm⟩
      | some p =>
          obtain ⟨chain, rfl, -⟩ := h.chained v p hp
          cases ha : g.activation v with
          | some a =>
              -- The depth is the one that an earlier traversal left.
              exact ⟨rfl, h, fun _ hok =>
                (Except.ok.inj hok).symm.trans (h.deepest v a.1 a.2 ha)⟩
          | none =>
              have hfills := traverseAll_measures 1 chain.fills 0 (h.joinGroup v group).newGroup
                fun w _ g' h' => ih w nextCriteria (some g.nextGroup) h'
              have hproducer : (g.joinGroup v group).newGroup.producer = g.producer :=
                (g.joinGroup_frame v group).2.1
              rw [chainHeight_eq hproducer, ← h.chainHeight_rec hp] at hfills
              simp only [h.wellFormed.first v chain hp]
              rcases hr : traverseAll (fun var g => traverse fuel var nextCriteria (some _) g) 1
                  chain.fills 0 (g.joinGroup v group).newGroup with ⟨e | d, g₁⟩
              · rw [hr] at hfills
                exact ⟨hfills.producer.trans hproducer, hfills.inv, fun _ hok => by cases hok⟩
              · rw [hr] at hfills
                have heq : g₁.producer = g.producer := hfills.producer.trans hproducer
                have hv : g₁.HasProducer v := by
                  rw [hasProducer_eq heq]
                  exact fun hnone => by cases hp.symm.trans hnone
                have hact := hfills.inv.activate criteria hv
                rw [chainHeight_eq heq, ← hfills.returned d rfl] at hact
                rw [← hfills.returned d rfl]
                exact ⟨hact.producer.trans heq, hact.inv, hact.returned⟩

/-! ## Runs -/

/-- A new variable leaves the paths from the earlier ones as they are. -/
lemma DepthInv.createProduced (h : DepthInv g) {chain : CompletionChainView}
    (hwf : (g.createProduced (.placeholderGen chain)).WellFormed) (hne : chain.fills ≠ []) :
    DepthInv (g.createProduced (.placeholderGen chain)) := by
  have hproducer : ∀ x, x ≠ g.next →
      (g.createProduced (.placeholderGen chain)).producer x = g.producer x :=
    fun x hx => Function.update_of_ne hx _ _
  have hlt : ∀ x, g.IsActivated x → x < g.next := fun x hx =>
    Nat.lt_of_not_le fun hle => hx (h.wellFormed.fresh x hle).2
  refine ⟨hwf, fun x p hx => ?_, fun x hx => ?_, fun x c d hx => ?_⟩
  · by_cases hxn : x = g.next
    · have hself : (g.createProduced (.placeholderGen chain)).producer g.next =
          some (.placeholderGen chain) := Function.update_self _ _ _
      rw [hxn, hself] at hx
      exact ⟨chain, (Option.some.inj hx).symm, hne⟩
    · rw [hproducer x hxn] at hx
      exact h.chained x p hx
  · rw [HasProducer, hproducer x (hlt x hx).ne]
    exact h.produced x hx
  · rw [h.deepest x c d hx]
    have hxlt : x < g.next := hlt x fun hnone => by cases hx.symm.trans hnone
    refine (LongestPaths.height_congr (p := (· < g.next))
      (fun y hy z hz => (h.wellFormed.earlier y z hz).trans hy) (fun y hy => ?_)
      (fun y hy => ?_) hxlt).symm
    · rw [inputs, inputs, hproducer y (Nat.ne_of_lt hy)]
    · rw [HasProducer, HasProducer, hproducer y (Nat.ne_of_lt hy)]

/-- **Step lemma.**  Semantic requests and activations keep the invariant. -/
lemma DepthInv.apply (h : DepthInv g) (ha : ActivationInv g) {a : Action} (hen : g.Enabled a)
    (hguard : g.SemanticRequestsOnly a) : DepthInv (g.apply a) := by
  cases a with
  | createVar =>
      exact ⟨(ha.apply .createVar hen).wellFormed, h.chained, h.produced, h.deepest⟩
  | insertRequestChain fills =>
      exact h.createProduced (ha.apply (.insertRequestChain fills) hen).wellFormed hguard
  | insertNativeFuncNode inputVars outputs => exact hguard.elim
  | activateSv v criteria =>
      have hmeasures := traverse_measures (v + 1) v criteria none h
      change DepthInv (ParrotServe.activateSv v criteria g).2
      rw [ParrotServe.activateSv, if_neg hen.2]
      rcases hr : traverse (v + 1) v criteria none g with ⟨e | d, g'⟩
      · rw [hr] at hmeasures
        exact hmeasures.inv
      · rw [hr] at hmeasures
        exact hmeasures.inv

/-- **Run lemma.**  Every activated variable has the depth of a longest path. -/
lemma depth_invariant (hg : system.ReachableUnder SemanticRequestsOnly g) : DepthInv g := by
  have hinv : system.IsInvariantUnder SemanticRequestsOnly fun g => ActivationInv g ∧ DepthInv g :=
    { init := fun s hs => by
        obtain rfl : s = empty := hs
        exact ⟨activation_invariant (.init rfl), (activation_invariant (.init rfl)).wellFormed,
          fun _ _ hp => (by cases hp), fun _ hv => absurd rfl hv, fun _ _ _ hv => (by cases hv)⟩
      step := fun s a s' hs hguard hstep => by
        obtain ⟨hen, rfl⟩ : s.Enabled a ∧ s' = s.apply a := hstep
        exact ⟨hs.1.apply a hen, hs.2.apply hs.1 hen hguard⟩ }
  exact (hinv.holds hg).2

/-- **Depth is the longest chain length, whatever the order of the activations.**  In every run of
semantic requests and activations, the depth of an activated output is the number of completion
chains on a longest path backward from it.  It is `1` when nothing the chain fills has a producer,
and every other run that leads to the same requests leaves the same depth. -/
theorem depth_longest_path (hg : system.ReachableUnder SemanticRequestsOnly g)
    {criteria : PerformanceCriteria} {depth : ℕ} (hv : g.activation v = some (criteria, depth)) :
    IsGreatest {n | ∃ path, g.ChainPath v path ∧ path.length = n} depth ∧
    ((∀ w ∈ g.inputs v, ¬ g.HasProducer w) → depth = 1) ∧
    ∀ g', system.ReachableUnder SemanticRequestsOnly g' → g'.producer = g.producer →
      ∀ criteria' depth', g'.activation v = some (criteria', depth') → depth' = depth := by
  have h := depth_invariant hg
  have hactivated : g.IsActivated v := fun hnone => by cases hv.symm.trans hnone
  have hproducer : g.HasProducer v := h.produced v hactivated
  have hgreatest : IsGreatest {n | ∃ path, g.ChainPath v path ∧ path.length = n} depth :=
    h.deepest v _ _ hv ▸ LongestPaths.isGreatest_height h.wellFormed.rank hproducer
  refine ⟨hgreatest, fun hroot => ?_, fun g' hg' heq criteria' depth' hv' => ?_⟩
  · -- A path of two chains would go through something the chain fills.
    obtain ⟨path, hpath, hlength⟩ := hgreatest.1
    obtain ⟨-, rfl | ⟨w, hw, rest, hrest, -⟩⟩ := LongestPaths.BackwardPath.cases hpath
    · exact hlength.symm
    · exact absurd hrest.cases.1 (hroot w hw)
  · rw [(depth_invariant hg').deepest v _ _ hv', chainHeight_eq heq, ← h.deepest v _ _ hv]

/-- A request, one on its output, one on both outputs, and what is activated. -/
def sharedOutputs (activated : List SvRef) : List Action :=
  [.createVar, .insertRequestChain [0], .insertRequestChain [1], .insertRequestChain [1, 2]] ++
    activated.map (Action.activateSv · .latency)

/-- The last output is activated at once, or after the first one. -/
theorem depth_longest_path_shared :
    IsGreatest {n | ∃ path,
        ((sharedOutputs [3]).foldl apply empty).ChainPath 3 path ∧ path.length = n} 3 ∧
      ((sharedOutputs [1, 3]).foldl apply empty).activation 3 = some (.latency, 3) := by
  have hv : ((sharedOutputs [3]).foldl apply empty).activation 3 = some (.latency, 3) := by decide
  exact ⟨(depth_longest_path (.foldl _ (.init rfl) (by decide)) hv).1, by decide⟩

end ComputeGraph

end ParrotServe
