import ParrotServe.Framework.Traversal
import ParrotServe.Model.GraphTraverse
import Mathlib.Logic.Relation

/-!
# Activating a variable activates its ancestors

`activate_sv` walks backward from a variable through the fills of completion chains and the inputs
of native functions, and activates what it passes on the way out.  The branch of a Gen stops at an
activated variable; the branch of a native function does not look.  A native function met again is
walked again, and then `SemanticVariable.activate` refuses to activate its output twice.

`ComputeGraph.inputs` is the dependency the walk follows, so that `Traversal.Entered` of the open
variables (those that have a producer and are not activated) is what it should activate.
`Walks g xs r` says that `r` is the outcome of walking from `xs`: it succeeds exactly when no
output of a native function is met twice, or met although it is activated, and then it activates
what it enters.  `traverseAll_walks` proves this along a list and `traverse_walks` down the graph.

An activation that raises leaves part of its work behind.  It still never leaves a variable
activated with an ancestor that is not, because a variable is activated after everything it
depends on: `activated_closed` holds in every reachable state.

`activation_exact` is the result over all graphs and all earlier activations.
-/

namespace ParrotServe

open Traversal

namespace ComputeGraph

variable {g g' : ComputeGraph} {v x y : SvRef} {xs : List SvRef}
  {r : Except PyError ℕ × ComputeGraph}

/-! ## The dependency graph -/

/-- The variables a producer depends on. -/
def inputsOf : Option SVProducer → List SvRef
  | none => []
  | some (.placeholderGen chain) => chain.fills
  | some (.nativeFuncNode inputVars) => inputVars

/-- The variables a variable is produced from. -/
def inputs (g : ComputeGraph) (var : SvRef) : List SvRef := inputsOf (g.producer var)

/-- A variable with a producer that is not activated. -/
def IsOpen (g : ComputeGraph) (var : SvRef) : Prop := g.HasProducer var ∧ ¬ g.IsActivated var

/-- An output of a native function. -/
def IsNative (g : ComputeGraph) (var : SvRef) : Prop :=
  ∃ inputVars, g.producer var = some (.nativeFuncNode inputVars)

/-- `var` is reachable backward from `v`. -/
def Ancestor (g : ComputeGraph) (v var : SvRef) : Prop :=
  Relation.TransGen (fun y x => x ∈ g.inputs y) v var

/-- The activated variables are closed under ancestors that have a producer. -/
def AncestorsActivated (g : ComputeGraph) : Prop :=
  ∀ v, g.IsActivated v → ∀ x, g.Ancestor v x → g.HasProducer x → g.IsActivated x

/-- The walk from `v` through open variables meets no output of a native function twice, and none
that is activated. -/
def MeetsNativeOnce (g : ComputeGraph) (v : SvRef) : Prop :=
  WithinVisits g.inputs g.IsNative g.IsOpen [v]

/-- What insertions establish: variables depend on earlier ones, and a chain starts a request. -/
structure WellFormed (g : ComputeGraph) : Prop where
  earlier : ∀ y, ∀ x ∈ g.inputs y, x < y
  first : ∀ v chain, g.producer v = some (.placeholderGen chain) → chain.edgeAPrev = none
  fresh : ∀ v, g.next ≤ v → g.producer v = none ∧ g.activation v = none

/-- The inputs of an activated variable are activated. -/
def Closed (g : ComputeGraph) : Prop :=
  ∀ y, g.IsActivated y → ∀ x ∈ g.inputs y, g.HasProducer x → g.IsActivated x

lemma WellFormed.rank (h : g.WellFormed) : ∀ y, ∀ x ∈ g.inputs y, id x < id y := h.earlier

/-- Activating variables that have a producer keeps the graph well formed. -/
lemma WellFormed.congr (h : g.WellFormed) (hnext : g'.next = g.next)
    (hproducer : g'.producer = g.producer)
    (hproduced : ∀ v, g'.IsActivated v → g.IsActivated v ∨ g.HasProducer v) :
    g'.WellFormed where
  earlier y x hx := h.earlier y x (by rwa [inputs, ← hproducer])
  first v chain hv := h.first v chain (by rwa [← hproducer])
  fresh v hv := by
    obtain ⟨hp, ha⟩ := h.fresh v (hnext ▸ hv)
    refine ⟨hproducer ▸ hp, ?_⟩
    by_contra hne
    exact (hproduced v hne).elim (fun h => h ha) fun h => h hp

/-- Closedness along one edge is closedness along all of them: what has no producer has no
inputs. -/
lemma Closed.ancestorsActivated (h : g.Closed) : g.AncestorsActivated := by
  intro v hv x hx
  induction hx with
  | single hx => exact h v hv _ hx
  | @tail y x _ hx ih =>
      have hy : g.HasProducer y := by
        intro hnone
        simp [inputs, hnone, inputsOf] at hx
      exact h y (ih hy) x hx

/-! ## Outcomes of the walk -/

/-- `r` is the outcome of a walk from `xs` over `g`. -/
structure Walks (g : ComputeGraph) (xs : List SvRef) (r : Except PyError ℕ × ComputeGraph) :
    Prop where
  next : r.2.next = g.next
  producer : r.2.producer = g.producer
  produced : ∀ x, r.2.IsActivated x → g.IsActivated x ∨ g.HasProducer x
  closed : g.Closed → r.2.Closed
  ok_iff : (∃ depth, r.1 = .ok depth) ↔ WithinVisits g.inputs g.IsNative g.IsOpen xs
  activated : (∃ depth, r.1 = .ok depth) →
    ∀ x, r.2.IsActivated x ↔ g.IsActivated x ∨ Entered g.inputs g.IsOpen xs x

lemma inputs_eq (h : g'.producer = g.producer) : g'.inputs = g.inputs := by
  funext x
  rw [inputs, inputs, h]

lemma isNative_eq (h : g'.producer = g.producer) : g'.IsNative = g.IsNative := by
  funext x
  rw [IsNative, IsNative, h]

lemma hasProducer_eq (h : g'.producer = g.producer) : g'.HasProducer = g.HasProducer := by
  funext x
  rw [HasProducer, HasProducer, h]

/-- A walk reads the producers and what is activated. -/
lemma Walks.congr (h : Walks g' xs r) (hnext : g'.next = g.next)
    (hproducer : g'.producer = g.producer) (hactivation : g'.activation = g.activation) :
    Walks g xs r := by
  have hactivated : g'.IsActivated = g.IsActivated := by
    funext x
    rw [IsActivated, IsActivated, hactivation]
  have hopen : g'.IsOpen = g.IsOpen := by
    funext x
    rw [IsOpen, IsOpen, hasProducer_eq hproducer, hactivated]
  obtain ⟨h₁, h₂, h₃, h₄, h₅, h₆⟩ := h
  simp only [Closed, inputs_eq hproducer, isNative_eq hproducer, hasProducer_eq hproducer,
    hactivated, hopen] at h₃ h₄ h₅ h₆
  exact ⟨h₁.trans hnext, h₂.trans hproducer, h₃, h₄, h₅, h₆⟩

/-- After a walk that succeeds, what is open is what it has not entered. -/
lemma Walks.isOpen_eq {depth : ℕ} (h : Walks g xs (.ok depth, g')) :
    g'.IsOpen = fun x => g.IsOpen x ∧ ¬ Entered g.inputs g.IsOpen xs x := by
  funext x
  have hactivated := h.activated ⟨depth, rfl⟩ x
  have hproducer : g'.HasProducer = g.HasProducer := hasProducer_eq h.producer
  simp only [IsOpen, hproducer, hactivated, not_or, and_assoc]

/-- Nothing happens at a variable that is not open, unless it is an output of a native
function. -/
lemma walks_of_not_open (depth : ℕ) (hopen : ¬ g.IsOpen v) (hnative : ¬ g.IsNative v) :
    Walks g [v] (.ok depth, g) where
  next := rfl
  producer := rfl
  produced _ := .inl
  closed h := h
  ok_iff := iff_of_true ⟨depth, rfl⟩ ((withinVisits_singleton_of_not hopen).mpr hnative)
  activated _ _ := ⟨.inl, fun h => h.resolve_right (not_entered_singleton hopen)⟩

/-- An error under way is an error of the walk. -/
lemma walks_error {e : PyError} (h : Walks g xs (.error e, g')) {ys : List SvRef}
    (hys : WithinVisits g.inputs g.IsNative g.IsOpen ys →
      WithinVisits g.inputs g.IsNative g.IsOpen xs) : Walks g ys (.error e, g') where
  next := h.next
  producer := h.producer
  produced := h.produced
  closed := h.closed
  ok_iff := by
    refine iff_of_false (fun ⟨d, hd⟩ => by cases hd) fun hw => ?_
    obtain ⟨d, hd⟩ := h.ok_iff.mpr (hys hw)
    cases hd
  activated := fun ⟨d, hd⟩ => by cases hd

/-- The loop over a list of variables. -/
lemma traverseAll_walks {visit : SvRef → ComputeGraph → Except PyError ℕ × ComputeGraph}
    (weight : ℕ) : ∀ (xs : List SvRef) (depth : ℕ) {g : ComputeGraph}, g.WellFormed →
      (∀ v ∈ xs, ∀ g' : ComputeGraph, g'.WellFormed → g'.producer = g.producer →
        Walks g' [v] (visit v g')) →
      Walks g xs (traverseAll visit weight xs depth g)
  | [], depth, g, _, _ =>
      { next := rfl
        producer := rfl
        produced := fun _ => .inl
        closed := fun h => h
        ok_iff := iff_of_true ⟨depth, rfl⟩ withinVisits_nil
        activated := fun _ x => ⟨.inl, fun h => h.resolve_right not_entered_nil⟩ }
  | v :: xs, depth, g, hg, hvisit => by
      have hv := hvisit v List.mem_cons_self g hg rfl
      unfold traverseAll
      rcases hr : visit v g with ⟨e | d, g₁⟩
      · rw [hr] at hv
        exact walks_error hv fun h => ((withinVisits_cons hg.rank).mp h).1
      · rw [hr] at hv
        have hg₁ : g₁.WellFormed := hg.congr hv.next hv.producer hv.produced
        have hrest := traverseAll_walks weight xs (max depth (d + weight)) hg₁
          fun w hw g' hg' hp => hvisit w (List.mem_cons_of_mem _ hw) g' hg' (hp.trans hv.producer)
        have hhead := hv.ok_iff.mp ⟨d, rfl⟩
        obtain ⟨h₁, h₂, h₃, h₄, h₅, h₆⟩ := hrest
        rw [hasProducer_eq hv.producer] at h₃
        rw [inputs_eq hv.producer, isNative_eq hv.producer, hv.isOpen_eq] at h₅
        rw [inputs_eq hv.producer, hv.isOpen_eq] at h₆
        refine ⟨h₁.trans hv.next, h₂.trans hv.producer,
          fun x hx => (h₃ x hx).elim (hv.produced x) .inr, h₄ ∘ hv.closed, ?_, fun hok x => ?_⟩
        · rw [h₅, withinVisits_cons hg.rank, and_iff_right hhead]
        · rw [h₆ hok, hv.activated ⟨d, rfl⟩, or_assoc, ← entered_cons]

/-- Activating an open variable after its inputs. -/
lemma walks_activate {depth : ℕ} (criteria : PerformanceCriteria) (hg : g.WellFormed)
    (hopen : g.IsOpen v) (h : Walks g (g.inputs v) (.ok depth, g')) :
    Walks g [v] (g'.activate v criteria depth) := by
  have hactivated := h.activated ⟨depth, rfl⟩
  have hnot : ¬ g'.IsActivated v := fun hv =>
    ((hactivated v).mp hv).elim hopen.2 (not_entered_inputs hg.rank)
  have hsplit : ∀ x, (g'.activate v criteria depth).2.IsActivated x ↔
      x = v ∨ g'.IsActivated x := by
    intro x
    rw [activate, if_neg hnot, IsActivated, IsActivated]
    by_cases hx : x = v
    · simp [hx]
    · simp [hx]
  have hok : (g'.activate v criteria depth).1 = .ok depth := by rw [activate, if_neg hnot]
  have hnext : (g'.activate v criteria depth).2.next = g'.next := by rw [activate, if_neg hnot]
  have hproducer : (g'.activate v criteria depth).2.producer = g'.producer := by
    rw [activate, if_neg hnot]
  refine ⟨hnext.trans h.next, hproducer.trans h.producer, fun x hx => ?_,
    fun hclosed y hy x hx hp => ?_, ?_, fun _ x => ?_⟩
  · rcases (hsplit x).mp hx with rfl | hx
    · exact .inr hopen.1
    · exact h.produced x hx
  · rw [inputs_eq (hproducer.trans h.producer)] at hx
    rw [hasProducer_eq (hproducer.trans h.producer)] at hp
    refine (hsplit x).mpr (.inr ?_)
    rcases (hsplit y).mp hy with rfl | hy
    · -- An input of `v` was activated before, or entered as an input of `v`.
      by_cases hx' : g.IsActivated x
      · exact (hactivated x).mpr (.inl hx')
      · exact (hactivated x).mpr (.inr (.root hx ⟨hp, hx'⟩))
    · refine h.closed hclosed y hy x ?_ ?_
      · rwa [inputs_eq h.producer]
      · rwa [hasProducer_eq h.producer]
  · exact iff_of_true ⟨depth, hok⟩
      ((withinVisits_singleton hg.rank hopen).mpr (h.ok_iff.mp ⟨depth, rfl⟩))
  · rw [hsplit x, hactivated x, entered_singleton hopen]
    exact or_left_comm

/-- An activated output of a native function is met again. -/
lemma walks_activate_again {depth : ℕ} (criteria : PerformanceCriteria)
    (hactivated : g.IsActivated v) (hnative : g.IsNative v)
    (h : Walks g xs (.ok depth, g')) : Walks g [v] (g'.activate v criteria depth) := by
  have hopen : ¬ g.IsOpen v := fun ho => ho.2 hactivated
  have hv : g'.IsActivated v := (h.activated ⟨depth, rfl⟩ v).mpr (.inl hactivated)
  rw [activate, if_pos hv]
  refine ⟨h.next, h.producer, h.produced, h.closed, ?_, fun ⟨d, hd⟩ => by cases hd⟩
  exact iff_of_false (fun ⟨d, hd⟩ => by cases hd)
    fun hw => (withinVisits_singleton_of_not hopen).mp hw hnative

/-! ## The walk of the code -/

lemma backPropagateCriteria_ok {criteria : PerformanceCriteria}
    (h : criteria = .latency ∨ criteria = .throughput) :
    backPropagateCriteria criteria = .ok criteria := by
  rcases h with rfl | rfl <;> rfl

lemma joinGroup_frame (g : ComputeGraph) (chain : SvRef) (group : Option GroupRef) :
    (g.joinGroup chain group).next = g.next ∧ (g.joinGroup chain group).producer = g.producer ∧
      (g.joinGroup chain group).activation = g.activation := by
  cases group <;> exact ⟨rfl, rfl, rfl⟩

/-- `_traverse`, with enough fuel for the variables below `v`. -/
lemma traverse_walks {criteria : PerformanceCriteria}
    (hcriteria : criteria = .latency ∨ criteria = .throughput) :
    ∀ (fuel : ℕ) (v : SvRef) (group : Option GroupRef) {g : ComputeGraph}, g.WellFormed →
      v < fuel → Walks g [v] (traverse fuel v criteria group g) := by
  intro fuel
  induction fuel with
  | zero => exact fun _ _ _ _ h => absurd h (Nat.not_lt_zero _)
  | succ fuel ih =>
      intro v group g hg hfuel
      have hinputs : ∀ w ∈ g.inputs v, w < fuel := fun w hw =>
        (hg.earlier v w hw).trans_le (Nat.le_of_lt_succ hfuel)
      simp only [traverse, backPropagateCriteria_ok hcriteria]
      cases hp : g.producer v with
      | none =>
          exact walks_of_not_open 0 (fun h => h.1 hp) fun ⟨_, h⟩ => by cases hp.symm.trans h
      | some p =>
          have hproducer : g.HasProducer v := fun h => by cases hp.symm.trans h
          cases p with
          | placeholderGen chain =>
              have hnative : ¬ g.IsNative v := fun ⟨_, h⟩ => by cases hp.symm.trans h
              cases ha : g.activation v with
              | some a =>
                  have hopen : ¬ g.IsOpen v := fun h =>
                    h.2 fun hnone => by cases ha.symm.trans hnone
                  exact walks_of_not_open a.2 hopen hnative
              | none =>
                  have hopen : g.IsOpen v := ⟨hproducer, fun h => h ha⟩
                  have hfills : chain.fills = g.inputs v := by rw [inputs, hp, inputsOf]
                  obtain ⟨hjnext, hjproducer, hjactivation⟩ := joinGroup_frame g v group
                  have hg₁ : (g.joinGroup v group).newGroup.WellFormed :=
                    hg.congr hjnext hjproducer fun w hw => .inl fun h =>
                      hw (congrFun hjactivation w ▸ h)
                  have hall := (traverseAll_walks 1 chain.fills 0 hg₁ fun w hw g' hg' _ =>
                    ih w (some g.nextGroup) hg' (hinputs w (hfills ▸ hw))).congr
                      hjnext hjproducer hjactivation
                  simp only [hg.first v chain hp]
                  rw [hfills] at hall ⊢
                  rcases hr : traverseAll (fun var g =>
                      traverse fuel var criteria (some _) g) 1 (g.inputs v) 0
                      (g.joinGroup v group).newGroup with ⟨e | d, g₁⟩
                  · rw [hr] at hall
                    exact walks_error hall (withinVisits_singleton hg.rank hopen).mp
                  · rw [hr] at hall
                    exact walks_activate criteria hg hopen hall
          | nativeFuncNode inputVars =>
              have hnative : g.IsNative v := ⟨inputVars, hp⟩
              have hvars : inputVars = g.inputs v := by rw [inputs, hp, inputsOf]
              have hall := traverseAll_walks 0 inputVars 0 hg fun w hw g' hg' _ =>
                ih w group hg' (hinputs w (hvars ▸ hw))
              rw [hvars] at hall
              simp only [hvars]
              rcases hr : traverseAll (fun var g => traverse fuel var criteria group g) 0
                  (g.inputs v) 0 g with ⟨e | d, g₁⟩
              · rw [hr] at hall
                by_cases ha : g.IsActivated v
                · exact walks_error hall fun hw => absurd hnative
                    ((withinVisits_singleton_of_not fun h => h.2 ha).mp hw)
                · exact walks_error hall (withinVisits_singleton hg.rank ⟨hproducer, ha⟩).mp
              · rw [hr] at hall
                by_cases ha : g.IsActivated v
                · exact walks_activate_again criteria ha hnative hall
                · exact walks_activate criteria hg ⟨hproducer, ha⟩ hall

/-! ## The graph of a session -/

/-- What holds of the graph of a session in every state. -/
structure ActivationInv (g : ComputeGraph) : Prop where
  wellFormed : g.WellFormed
  closed : g.Closed

/-- What `activate_sv` does to a variable it may be called for. -/
lemma activateSv_walks {criteria : PerformanceCriteria}
    (hcriteria : criteria = .latency ∨ criteria = .throughput) (hg : g.WellFormed)
    (hv : ¬ g.IsActivated v) :
    Walks g [v] (traverse (v + 1) v criteria none g) ∧
      (activateSv v criteria g).2 = (traverse (v + 1) v criteria none g).2 ∧
      ((activateSv v criteria g).1 = .ok () ↔
        ∃ depth, (traverse (v + 1) v criteria none g).1 = .ok depth) := by
  refine ⟨traverse_walks hcriteria _ v none hg (Nat.lt_succ_self v), ?_⟩
  rw [activateSv, if_neg hv]
  rcases traverse (v + 1) v criteria none g with ⟨e | d, g'⟩
  · exact ⟨rfl, iff_of_false (fun h => by cases h) fun ⟨_, h⟩ => by cases h⟩
  · exact ⟨rfl, iff_of_true rfl ⟨d, rfl⟩⟩

/-- Unsupported criteria change nothing. -/
lemma activateSv_unsupported {criteria : PerformanceCriteria}
    (hcriteria : ¬ (criteria = .latency ∨ criteria = .throughput)) :
    (activateSv v criteria g).2 = g := by
  have hnext : ∃ e, backPropagateCriteria criteria = .error e := by
    cases criteria with
    | latency => exact absurd (.inl rfl) hcriteria
    | throughput => exact absurd (.inr rfl) hcriteria
    | ttft => exact ⟨_, rfl⟩
    | tpot => exact ⟨_, rfl⟩
  obtain ⟨e, he⟩ := hnext
  rw [activateSv]
  split
  · rfl
  · simp only [traverse, he]

/-- A new variable with a producer that depends on earlier ones. -/
lemma ActivationInv.createProduced (h : ActivationInv g) {p : SVProducer}
    (hinputs : ∀ x ∈ inputsOf (some p), x < g.next)
    (hfirst : ∀ chain, p = .placeholderGen chain → chain.edgeAPrev = none) :
    ActivationInv (g.createProduced p) := by
  have hproducer : ∀ x, x ≠ g.next → (g.createProduced p).producer x = g.producer x :=
    fun x hx => Function.update_of_ne hx _ _
  have hself : (g.createProduced p).producer g.next = some p := Function.update_self _ _ _
  refine ⟨⟨fun y x hx => ?_, fun v chain hv => ?_, fun v hv => ?_⟩, fun y hy x hx hp => ?_⟩
  · by_cases hy : y = g.next
    · rw [inputs, hy, hself] at hx
      exact hy ▸ hinputs x hx
    · rw [inputs, hproducer y hy] at hx
      exact h.wellFormed.earlier y x hx
  · by_cases hv' : v = g.next
    · rw [hv', hself] at hv
      exact hfirst chain (Option.some.inj hv)
    · rw [hproducer v hv'] at hv
      exact h.wellFormed.first v chain hv
  · have hlt : g.next < v := hv
    rw [hproducer v hlt.ne']
    exact h.wellFormed.fresh v hlt.le
  · -- The new variable is neither activated nor an input of one that is.
    have hlt : y < g.next := Nat.lt_of_not_le fun hle => hy (h.wellFormed.fresh y hle).2
    rw [inputs, hproducer y hlt.ne] at hx
    have hxlt : x < g.next := (h.wellFormed.earlier y x hx).trans hlt
    rw [HasProducer, hproducer x hxlt.ne] at hp
    exact h.closed y hy x hx hp

lemma insertNativeFuncNode_next (g : ComputeGraph) (inputVars : List SvRef) (outputs : ℕ) :
    g.next ≤ (g.insertNativeFuncNode inputVars outputs).next := by
  induction outputs with
  | zero => exact le_rfl
  | succ n ih => exact ih.trans (Nat.le_succ _)

/-- **Step lemma.**  Every action keeps the invariant, `activate_sv` also when it raises. -/
lemma ActivationInv.apply (h : ActivationInv g) (a : Action) (hen : g.Enabled a) :
    ActivationInv (g.apply a) := by
  cases a with
  | createVar =>
      have hfresh : ∀ v, g.next + 1 ≤ v → g.producer v = none ∧ g.activation v = none :=
        fun v hv => h.wellFormed.fresh v ((Nat.le_succ _).trans hv)
      exact ⟨⟨h.wellFormed.earlier, h.wellFormed.first, hfresh⟩, h.closed⟩
  | insertRequestChain fills =>
      exact h.createProduced hen fun chain hchain => by cases hchain; rfl
  | insertNativeFuncNode inputVars outputs =>
      change ActivationInv (g.insertNativeFuncNode inputVars outputs)
      induction outputs with
      | zero => exact h
      | succ n ih =>
          exact (ih hen).createProduced
            (fun x hx => (hen x hx).trans_le (g.insertNativeFuncNode_next inputVars n))
            fun _ hchain => by cases hchain
  | activateSv v criteria =>
      change ActivationInv (ParrotServe.activateSv v criteria g).2
      by_cases hcriteria : criteria = .latency ∨ criteria = .throughput
      · obtain ⟨hwalk, heq, -⟩ := activateSv_walks hcriteria h.wellFormed hen.2
        rw [heq]
        exact ⟨h.wellFormed.congr hwalk.next hwalk.producer hwalk.produced,
          hwalk.closed h.closed⟩
      · rw [activateSv_unsupported hcriteria]
        exact h

/-- **Run lemma.**  The invariant holds in every reachable state. -/
lemma activation_invariant (hg : system.Reachable g) : ActivationInv g := by
  refine TransitionSystem.IsInvariantUnder.holds ⟨fun s hs => ?_, fun s a s' hs _ hstep => ?_⟩ hg
  · obtain rfl : s = empty := hs
    have hwf : empty.WellFormed :=
      ⟨fun _ _ h => (by cases h), fun _ _ h => (by cases h), fun _ _ => ⟨rfl, rfl⟩⟩
    exact ⟨hwf, fun _ h => absurd rfl h⟩
  · obtain ⟨hen, rfl⟩ : s.Enabled a ∧ s' = s.apply a := hstep
    exact hs.apply a hen

/-- In a closed graph, what a walk from `v` enters or finds activated is `v` and its
ancestors. -/
lemma entered_iff_ancestor (hclosed : g.Closed) (hv : g.IsOpen v) :
    g.IsActivated x ∨ Entered g.inputs g.IsOpen [v] x ↔
      g.IsActivated x ∨ x = v ∨ g.HasProducer x ∧ g.Ancestor v x := by
  constructor
  · refine Or.imp_right fun h => ?_
    induction h with
    | root hx _ => exact .inl (List.mem_singleton.mp hx)
    | input _ hx ho ih =>
        rcases ih with rfl | ⟨-, hanc⟩
        · exact .inr ⟨ho.1, .single hx⟩
        · exact .inr ⟨ho.1, hanc.tail hx⟩
  · rintro (h | rfl | ⟨hp, hanc⟩)
    · exact .inl h
    · exact .inr (.root (List.mem_singleton_self _) hv)
    · induction hanc with
      | @single x hx =>
          by_cases ha : g.IsActivated x
          · exact .inl ha
          · exact .inr (.input (.root (List.mem_singleton_self _) hv) hx ⟨hp, ha⟩)
      | @tail y x _ hx ih =>
          have hy : g.HasProducer y := by
            intro hnone
            simp [inputs, hnone, inputsOf] at hx
          by_cases ha : g.IsActivated x
          · exact .inl ha
          · rcases ih hy with hya | hye
            · exact absurd (hclosed y hya x hx hp) ha
            · exact .inr (.input hye hx ⟨hp, ha⟩)

/-- **Activating a variable activates exactly its ancestors, when no output of a native function is
met again.**  In every reachable graph the activated variables are closed under ancestors.  For
every variable that has a producer and is not activated, and supported criteria, `activate_sv`
succeeds exactly when the walk meets each output of a native function at most once and no
activated one; the activated variables are then the previous ones, the variable, and its
ancestors that have a producer. -/
theorem activation_exact (hg : system.Reachable g) :
    g.AncestorsActivated ∧
    ∀ (v : SvRef) (criteria : PerformanceCriteria),
      criteria = .latency ∨ criteria = .throughput → g.HasProducer v → ¬ g.IsActivated v →
      ((activateSv v criteria g).1 = .ok () ↔ g.MeetsNativeOnce v) ∧
      ((activateSv v criteria g).1 = .ok () →
        ∀ x, (activateSv v criteria g).2.IsActivated x ↔
          g.IsActivated x ∨ x = v ∨ g.HasProducer x ∧ g.Ancestor v x) := by
  have hinv := activation_invariant hg
  refine ⟨hinv.closed.ancestorsActivated, fun v criteria hcriteria hv hv' => ?_⟩
  obtain ⟨hwalk, heq, hok⟩ := activateSv_walks hcriteria hinv.wellFormed hv'
  refine ⟨hok.trans hwalk.ok_iff, fun h x => ?_⟩
  rw [heq, hwalk.activated (hok.mp h) x, entered_iff_ancestor hinv.closed ⟨hv, hv'⟩]

/-- A request on the output of a native function on the output of a request. -/
def nativeChain : List Action :=
  [.createVar, .insertRequestChain [0], .insertNativeFuncNode [1] 1, .insertRequestChain [2]]

/-- The chain is activated up to its first request. -/
theorem activation_exact_chain :
    (nativeChain.foldl apply empty).MeetsNativeOnce 3 ∧
      (activateSv 3 .latency (nativeChain.foldl apply empty)).2.IsActivated 1 := by
  have hg : system.Reachable (nativeChain.foldl apply empty) :=
    .foldl nativeChain (.init rfl) (by decide)
  obtain ⟨hiff, hset⟩ := (activation_exact hg).2 3 .latency (.inl rfl) (by decide) (by decide)
  refine ⟨hiff.mp (by decide), (hset (by decide) 1).mpr (.inr (.inr ⟨by decide, ?_⟩))⟩
  exact .tail (.single (show 2 ∈ (nativeChain.foldl apply empty).inputs 3 by decide))
    (show 1 ∈ (nativeChain.foldl apply empty).inputs 2 by decide)

/-- A request that uses the output of a native function twice. -/
def nativeTwice : List Action :=
  [.createVar, .insertRequestChain [0], .insertNativeFuncNode [1] 1, .insertRequestChain [2, 2]]

/-- The second use is met when the output is activated already. -/
theorem native_used_twice :
    ∃ g, system.Reachable g ∧ g.Enabled (.activateSv 3 .latency) ∧
      (activateSv 3 .latency g).1 = .error (.parrotAssert "Semantic Variable has been activated.") ∧
      ¬ (activateSv 3 .latency g).2.IsActivated 3 :=
  ⟨nativeTwice.foldl apply empty, .foldl nativeTwice (.init rfl) (by decide), by decide, rfl,
    by decide⟩

end ComputeGraph

end ParrotServe
