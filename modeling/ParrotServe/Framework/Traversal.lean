import Mathlib.Algebra.BigOperators.Finprod
import Mathlib.Data.Set.Finite.Lattice
import Mathlib.Tactic.Lemma

/-!
# What a depth-first walk enters, and how often it meets a vertex

A walk over an acyclic graph starts from a list of vertices.  A vertex it meets is *entered* if it
is open: its inputs are walked in order, and then it is closed.  A vertex that is not open is met
and left alone.

`Entered inputs isOpen xs` is the set of vertices the walk from `xs` enters, and `visits` counts
how often it meets a vertex: once for each occurrence in `xs`, and once for each occurrence among
the inputs of a vertex it enters.  Neither mentions the order of the walk.

Both decompose along the list, with the vertices entered by the first part closed for the rest
(`entered_cons`, `visits_cons`), and along the graph (`entered_singleton`, `visits_singleton`).
`withinVisits_cons` and `withinVisits_singleton` are the same for the property *every vertex of a
class is met at most once, and not at all when it is closed*, which is what a walk needs whose
vertices of that class cannot be met again.

When the entered vertices form a tree (`UniqueConsumers`), walks from different inputs of a vertex
enter different vertices.

The graph is acyclic by a `rank` that decreases along `inputs`.  Nothing in this module refers to
the repository being modelled.
-/

namespace ParrotServe

namespace Traversal

variable {α : Type*} {inputs : α → List α} {isOpen isOpen' : α → Prop} {xs : List α} {x y z : α}

/-! ## The vertices a walk enters -/

/-- The open vertices that a walk from `xs` reaches through open vertices. -/
inductive Entered (inputs : α → List α) (isOpen : α → Prop) (xs : List α) : α → Prop
  | root {x : α} : x ∈ xs → isOpen x → Entered inputs isOpen xs x
  | input {x y : α} : Entered inputs isOpen xs y → x ∈ inputs y → isOpen x →
      Entered inputs isOpen xs x

lemma Entered.opened (h : Entered inputs isOpen xs z) : isOpen z := by
  cases h with
  | root _ hz => exact hz
  | input _ _ hz => exact hz

lemma Entered.mono {ys : List α} (hxs : ∀ x ∈ xs, x ∈ ys) (hopen : ∀ x, isOpen x → isOpen' x)
    (h : Entered inputs isOpen xs z) : Entered inputs isOpen' ys z := by
  induction h with
  | root hx ho => exact .root (hxs _ hx) (hopen _ ho)
  | input _ hx ho ih => exact .input ih hx (hopen _ ho)

/-- A list that is closed under inputs contains what is entered from it. -/
lemma Entered.mem_of_closed {l : List α} (hl : ∀ y ∈ l, ∀ x ∈ inputs y, x ∈ l)
    (hxs : ∀ x ∈ xs, x ∈ l) (h : Entered inputs isOpen xs z) : z ∈ l := by
  induction h with
  | root hx _ => exact hxs _ hx
  | input _ hx _ ih => exact hl _ ih _ hx

lemma not_entered_nil : ¬ Entered inputs isOpen [] z := by
  intro h
  induction h with
  | root hx _ => exact List.not_mem_nil hx
  | input _ _ _ ih => exact ih

/-- The walk of a list enters what its head enters, and then what is still open. -/
lemma entered_cons : Entered inputs isOpen (x :: xs) z ↔
    Entered inputs isOpen [x] z ∨
      Entered inputs (fun y => isOpen y ∧ ¬ Entered inputs isOpen [x] y) xs z := by
  constructor
  · intro h
    induction h with
    | @root z hz ho =>
        by_cases hx : Entered inputs isOpen [x] z
        · exact .inl hx
        · rcases List.mem_cons.mp hz with rfl | hz
          · exact .inl (.root (List.mem_singleton_self _) ho)
          · exact .inr (.root hz ⟨ho, hx⟩)
    | @input z y _ hz ho ih =>
        by_cases hx : Entered inputs isOpen [x] z
        · exact .inl hx
        · rcases ih with ih | ih
          · exact .inl (ih.input hz ho)
          · exact .inr (ih.input hz ⟨ho, hx⟩)
  · rintro (h | h)
    · exact h.mono (fun y hy => by simp [List.mem_singleton.mp hy]) fun _ ho => ho
    · exact h.mono (fun y hy => List.mem_cons_of_mem _ hy) fun _ ho => ho.1

lemma not_entered_singleton (hx : ¬ isOpen x) : ¬ Entered inputs isOpen [x] z := by
  intro h
  induction h with
  | root hz ho => exact hx (List.mem_singleton.mp hz ▸ ho)
  | input _ _ _ ih => exact ih

lemma entered_singleton (hx : isOpen x) :
    Entered inputs isOpen [x] z ↔ z = x ∨ Entered inputs isOpen (inputs x) z := by
  constructor
  · intro h
    induction h with
    | root hz _ => exact .inl (List.mem_singleton.mp hz)
    | @input z y _ hz ho ih =>
        rcases ih with rfl | ih
        · exact .inr (.root hz ho)
        · exact .inr (ih.input hz ho)
  · rintro (rfl | h)
    · exact .root (List.mem_singleton_self _) hx
    · induction h with
      | root hz ho => exact .input (.root (List.mem_singleton_self _) hx) hz ho
      | input _ hz ho ih => exact ih.input hz ho

section Acyclic

variable {rank : α → ℕ} (hrank : ∀ x, ∀ y ∈ inputs x, rank y < rank x)
include hrank

/-- A walk only descends. -/
lemma Entered.exists_rank_le (h : Entered inputs isOpen xs z) : ∃ x ∈ xs, rank z ≤ rank x := by
  induction h with
  | root hx _ => exact ⟨_, hx, le_rfl⟩
  | input _ hz _ ih =>
      obtain ⟨x, hx, hle⟩ := ih
      exact ⟨x, hx, (hrank _ _ hz).le.trans hle⟩

/-- A vertex is not entered from its own inputs. -/
lemma not_entered_inputs : ¬ Entered inputs isOpen (inputs x) x := by
  intro h
  obtain ⟨y, hy, hle⟩ := h.exists_rank_le hrank
  have := hrank x y hy
  omega

/-- A walk ends: it enters finitely many vertices. -/
lemma finite_entered (xs : List α) : {z | Entered inputs isOpen xs z}.Finite := by
  -- Every bound on the ranks of the list, by induction; the inputs of a vertex lie lower.
  suffices h : ∀ n, ∀ (isOpen : α → Prop) (xs : List α), (∀ x ∈ xs, rank x < n) →
      {z | Entered inputs isOpen xs z}.Finite by
    obtain ⟨n, hn⟩ := (xs.map rank).toFinset.bddAbove
    refine h (n + 1) isOpen xs fun x hx => Nat.lt_succ_of_le (hn ?_)
    simpa using ⟨x, hx, rfl⟩
  intro n
  induction n with
  | zero =>
      intro isOpen xs hxs
      refine Set.Finite.subset Set.finite_empty fun z hz => ?_
      obtain ⟨x, hx, -⟩ := hz.exists_rank_le hrank
      exact absurd (hxs x hx) (Nat.not_lt_zero _)
  | succ n ih =>
      intro isOpen xs
      induction xs generalizing isOpen with
      | nil => exact fun _ => Set.finite_empty.subset fun z hz => not_entered_nil hz
      | cons x xs ihxs =>
          intro hxs
          have hhead : {z | Entered inputs isOpen [x] z}.Finite := by
            by_cases hx : isOpen x
            · refine ((Set.finite_singleton x).union (ih isOpen (inputs x) fun y hy => ?_)).subset
                fun z hz => (entered_singleton hx).mp hz
              have := hrank x y hy
              have := hxs x List.mem_cons_self
              omega
            · exact Set.finite_empty.subset fun z hz => not_entered_singleton hx hz
          refine (hhead.union (ihxs _ fun y hy => hxs y (List.mem_cons_of_mem _ hy))).subset
            fun z hz => entered_cons.mp hz

/-! ### Trees -/

/-- Each open vertex is an input of at most one vertex that the walk from `xs` enters. -/
def UniqueConsumers (inputs : α → List α) (isOpen : α → Prop) (xs : List α) : Prop :=
  ∀ y y' z, Entered inputs isOpen xs y → Entered inputs isOpen xs y' →
    z ∈ inputs y → z ∈ inputs y' → isOpen z → y = y'

omit hrank in
/-- What is entered from an input of an entered vertex is entered. -/
lemma Entered.descend (hy : Entered inputs isOpen xs y) (hx : x ∈ inputs y)
    (h : Entered inputs isOpen [x] z) : Entered inputs isOpen xs z := by
  induction h with
  | root hz ho => exact hy.input (List.mem_singleton.mp hz ▸ hx) ho
  | input _ hz ho ih => exact ih.input hz ho

/-- Only one of the inputs of a vertex leads to a given input of it. -/
lemma UniqueConsumers.eq_of_entered {w : α} (hu : UniqueConsumers inputs isOpen xs)
    (hy : Entered inputs isOpen xs y) (hx : x ∈ inputs y) (hw : w ∈ inputs y)
    (h : Entered inputs isOpen [w] x) : x = w := by
  cases h with
  | root hx' _ => exact List.mem_singleton.mp hx'
  | @input _ u hu' hx' ho =>
      -- The consumer of `x` below `w` is `y`, which lies above `w`.
      obtain rfl := hu u y x (hy.descend hw hu') hy hx' hx ho
      obtain ⟨v, hv, hle⟩ := hu'.exists_rank_le hrank
      obtain rfl := List.mem_singleton.mp hv
      exact absurd (hrank _ _ hw) hle.not_gt

/-- **Walks from different inputs of a vertex enter different vertices.** -/
lemma UniqueConsumers.disjoint {w : α} (hu : UniqueConsumers inputs isOpen xs)
    (hy : Entered inputs isOpen xs y) (hx : x ∈ inputs y) (hw : w ∈ inputs y) (hne : x ≠ w)
    (h : Entered inputs isOpen [x] z) : ¬ Entered inputs isOpen [w] z := by
  induction h with
  | @root z hz _ =>
      obtain rfl := List.mem_singleton.mp hz
      exact fun hzw => hne (hu.eq_of_entered hrank hy hx hw hzw)
  | @input z u hu' hz ho ih =>
      intro hzw
      cases hzw with
      | root hz' _ =>
          obtain rfl := List.mem_singleton.mp hz'
          exact hne (hu.eq_of_entered hrank hy hw hx (hu'.input hz ho)).symm
      | @input _ u' hu'' hz' _ =>
          obtain rfl := hu u u' z (hy.descend hx hu') (hy.descend hw hu'') hz hz' ho
          exact ih hu''

end Acyclic

/-! ## How often it meets a vertex -/

variable [DecidableEq α]

/-- How often the walk from `xs` meets `z`. -/
noncomputable def visits (inputs : α → List α) (isOpen : α → Prop) (xs : List α) (z : α) : ℕ :=
  xs.count z + ∑ᶠ y ∈ {y | Entered inputs isOpen xs y}, (inputs y).count z

lemma visits_nil : visits inputs isOpen [] z = 0 := by
  have hempty : {y | Entered inputs isOpen [] y} = ∅ :=
    Set.eq_empty_of_forall_notMem fun y hy => not_entered_nil hy
  simp only [visits, hempty, List.count_nil, finsum_mem_empty, Nat.add_zero]

section Acyclic

variable {rank : α → ℕ} (hrank : ∀ x, ∀ y ∈ inputs x, rank y < rank x)
include hrank

lemma visits_cons : visits inputs isOpen (x :: xs) z =
    visits inputs isOpen [x] z +
      visits inputs (fun y => isOpen y ∧ ¬ Entered inputs isOpen [x] y) xs z := by
  have hunion : {y | Entered inputs isOpen (x :: xs) y} =
      {y | Entered inputs isOpen [x] y} ∪
        {y | Entered inputs (fun y => isOpen y ∧ ¬ Entered inputs isOpen [x] y) xs y} :=
    Set.ext fun y => entered_cons
  have hdisjoint : Disjoint {y | Entered inputs isOpen [x] y}
      {y | Entered inputs (fun y => isOpen y ∧ ¬ Entered inputs isOpen [x] y) xs y} :=
    Set.disjoint_left.mpr fun y hy hy' => hy'.opened.2 hy
  have hcount : (x :: xs).count z = [x].count z + xs.count z := by
    rw [← List.singleton_append, List.count_append]
  simp only [visits, hunion, hcount,
    finsum_mem_union hdisjoint (finite_entered hrank _) (finite_entered hrank _)]
  omega

lemma visits_singleton (hx : isOpen x) : visits inputs isOpen [x] z =
    [x].count z + visits inputs isOpen (inputs x) z := by
  have hinsert : {y | Entered inputs isOpen [x] y} =
      insert x {y | Entered inputs isOpen (inputs x) y} :=
    Set.ext fun y => entered_singleton hx
  have hnot : x ∉ {y | Entered inputs isOpen (inputs x) y} := not_entered_inputs hrank
  simp only [visits, hinsert, finsum_mem_insert _ hnot (finite_entered hrank _)]

omit hrank in
lemma visits_singleton_of_not (hx : ¬ isOpen x) : visits inputs isOpen [x] z = [x].count z := by
  have hempty : {y | Entered inputs isOpen [x] y} = ∅ :=
    Set.eq_empty_of_forall_notMem fun y hy => not_entered_singleton hx hy
  simp only [visits, hempty, finsum_mem_empty, Nat.add_zero]

/-- An open vertex is entered exactly when it is met. -/
lemma entered_iff_visits_pos (hz : isOpen z) :
    Entered inputs isOpen xs z ↔ 0 < visits inputs isOpen xs z := by
  have hfinite : {y | Entered inputs isOpen xs y}.Finite := finite_entered hrank xs
  constructor
  · intro h
    cases h with
    | root hx _ => exact Nat.add_pos_left (List.count_pos_iff.mpr hx) _
    | @input _ y hy hz _ =>
        have hle : (inputs y).count z ≤
            ∑ᶠ y ∈ {y | Entered inputs isOpen xs y}, (inputs y).count z := by
          rw [finsum_mem_eq_finite_toFinset_sum _ hfinite]
          exact Finset.single_le_sum (f := fun y => (inputs y).count z)
            (fun _ _ => Nat.zero_le _) (hfinite.mem_toFinset.mpr hy)
        exact Nat.add_pos_right _ ((List.count_pos_iff.mpr hz).trans_le hle)
  · intro h
    rcases Nat.eq_zero_or_pos (xs.count z) with hzero | hpos
    · have hsum : ∑ᶠ y ∈ {y | Entered inputs isOpen xs y}, (inputs y).count z ≠ 0 := by
        unfold visits at h
        omega
      obtain ⟨y, hy, hcount⟩ := exists_ne_zero_of_finsum_mem_ne_zero hsum
      exact .input hy (List.count_pos_iff.mp (Nat.pos_of_ne_zero hcount)) hz
    · exact .root (List.count_pos_iff.mp hpos) hz

end Acyclic

/-! ## Meeting the vertices of a class at most once -/

/-- The walk from `xs` meets no vertex of the class `once` twice, and no closed one at all. -/
def WithinVisits (inputs : α → List α) (once isOpen : α → Prop) (xs : List α) : Prop :=
  ∀ z, once z →
    visits inputs isOpen xs z ≤ 1 ∧ (¬ isOpen z → visits inputs isOpen xs z = 0)

variable {once : α → Prop}

lemma withinVisits_nil : WithinVisits inputs once isOpen [] := fun z _ => by
  simp only [visits_nil, Nat.zero_le, implies_true, and_self]

/-- A closed vertex may be met unless it is of the class. -/
lemma withinVisits_singleton_of_not (hx : ¬ isOpen x) :
    WithinVisits inputs once isOpen [x] ↔ ¬ once x := by
  constructor
  · intro h honce
    have hzero := (h x honce).2 hx
    rw [visits_singleton_of_not hx, List.count_singleton_self] at hzero
    exact Nat.one_ne_zero hzero
  · intro honce z hz
    have hne : ¬ (x = z) := fun h => honce (h ▸ hz)
    have hcount : [x].count z = 0 := by simpa [List.count_eq_zero] using Ne.symm hne
    simp only [visits_singleton_of_not hx, hcount, Nat.zero_le, implies_true, and_self]

section Acyclic

variable {rank : α → ℕ} (hrank : ∀ x, ∀ y ∈ inputs x, rank y < rank x)
include hrank

lemma withinVisits_cons : WithinVisits inputs once isOpen (x :: xs) ↔
    WithinVisits inputs once isOpen [x] ∧
      WithinVisits inputs once (fun y => isOpen y ∧ ¬ Entered inputs isOpen [x] y) xs := by
  have hpoint : ∀ z,
      (visits inputs isOpen (x :: xs) z ≤ 1 ∧
        (¬ isOpen z → visits inputs isOpen (x :: xs) z = 0)) ↔
      (visits inputs isOpen [x] z ≤ 1 ∧ (¬ isOpen z → visits inputs isOpen [x] z = 0)) ∧
        visits inputs (fun y => isOpen y ∧ ¬ Entered inputs isOpen [x] y) xs z ≤ 1 ∧
          (¬ (isOpen z ∧ ¬ Entered inputs isOpen [x] z) →
            visits inputs (fun y => isOpen y ∧ ¬ Entered inputs isOpen [x] y) xs z = 0) := by
    intro z
    rw [visits_cons hrank]
    by_cases hz : isOpen z
    · -- An open vertex is closed for the rest exactly when the head meets it.
      have hpos : Entered inputs isOpen [x] z ↔ 0 < visits inputs isOpen [x] z :=
        entered_iff_visits_pos hrank hz
      by_cases hhead : Entered inputs isOpen [x] z
      · have := hpos.mp hhead
        simp only [hz, hhead, not_true_eq_false, and_false, not_false_eq_true, true_imp_iff,
          false_imp_iff, and_true]
        omega
      · have : visits inputs isOpen [x] z = 0 := Nat.eq_zero_of_not_pos (hhead ∘ hpos.mpr)
        simp only [hz, hhead, not_true_eq_false, not_false_eq_true, and_self, false_imp_iff,
          and_true]
        omega
    · simp only [hz, false_and, not_false_eq_true, true_imp_iff]
      omega
  exact ⟨fun h => ⟨fun z hz => ((hpoint z).mp (h z hz)).1, fun z hz => ((hpoint z).mp (h z hz)).2⟩,
    fun h z hz => (hpoint z).mpr ⟨h.1 z hz, h.2 z hz⟩⟩

/-- An open vertex is met once, and its inputs are walked. -/
lemma withinVisits_singleton (hx : isOpen x) :
    WithinVisits inputs once isOpen [x] ↔ WithinVisits inputs once isOpen (inputs x) := by
  refine forall_congr' fun z => imp_congr_right fun _ => ?_
  rw [visits_singleton hrank hx]
  by_cases hxz : x = z
  · subst hxz
    have hzero : visits inputs isOpen (inputs x) x = 0 :=
      Nat.eq_zero_of_not_pos fun h =>
        not_entered_inputs hrank ((entered_iff_visits_pos hrank hx).mpr h)
    simp only [hzero, List.count_singleton_self, hx, not_true_eq_false, false_imp_iff, and_true]
    omega
  · have hcount : [x].count z = 0 := by simpa [List.count_eq_zero] using fun h => hxz h.symm
    simp only [hcount, Nat.zero_add]

end Acyclic

end Traversal

end ParrotServe
