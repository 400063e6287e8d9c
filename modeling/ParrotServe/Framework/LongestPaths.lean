import Mathlib.Data.List.Chain
import Mathlib.Order.ConditionallyCompleteLattice.Basic
import Mathlib.Order.Lattice.Nat
import Mathlib.Tactic.Lemma

/-!
# Longest backward paths

A graph is given by the inputs of each of its points and by which points are vertices.  A backward
path starts at a vertex and goes from each vertex to one of its inputs that is a vertex too.  The
`height` of a point is the number of vertices on a longest backward path from it, and `0` when the
point is no vertex.

In a graph whose inputs decrease a `rank` the paths from a point are bounded, so the height is
attained (`isGreatest_height`), and it is one more than the greatest height of an input
(`height_eq`): the recurrence that a computation of depths by recursion follows.

Nothing in this module refers to the repository being modelled.
-/

namespace ParrotServe

namespace LongestPaths

variable {α : Type*} {inputs inputs' : α → List α} {isVertex isVertex' : α → Prop}
  {x y : α} {path : List α}

/-- A path of vertices that starts at `x` and goes from each vertex to one of its inputs. -/
structure BackwardPath (inputs : α → List α) (isVertex : α → Prop) (x : α) (path : List α) :
    Prop where
  starts : path.head? = some x
  linked : path.IsChain fun y z => z ∈ inputs y
  vertices : ∀ y ∈ path, isVertex y

/-- The numbers of vertices on the backward paths from `x`. -/
def pathLengths (inputs : α → List α) (isVertex : α → Prop) (x : α) : Set ℕ :=
  {n | ∃ path, BackwardPath inputs isVertex x path ∧ path.length = n}

/-- The number of vertices on a longest backward path from `x`. -/
noncomputable def height (inputs : α → List α) (isVertex : α → Prop) (x : α) : ℕ :=
  sSup (pathLengths inputs isVertex x)

/-! ## Paths -/

lemma backwardPath_singleton (hx : isVertex x) : BackwardPath inputs isVertex x [x] :=
  ⟨rfl, .singleton x, fun _ hy => List.mem_singleton.mp hy ▸ hx⟩

lemma BackwardPath.cons (h : BackwardPath inputs isVertex y path) (hx : isVertex x)
    (hy : y ∈ inputs x) : BackwardPath inputs isVertex x (x :: path) := by
  refine ⟨rfl, List.isChain_cons.mpr ⟨fun z hz => ?_, h.linked⟩, fun z hz => ?_⟩
  · rw [h.starts, Option.mem_some_iff] at hz
    exact hz ▸ hy
  · rcases List.mem_cons.mp hz with rfl | hz
    · exact hx
    · exact h.vertices z hz

/-- A path is its first vertex, followed by nothing or by a path from one of its inputs. -/
lemma BackwardPath.cases (h : BackwardPath inputs isVertex x path) :
    isVertex x ∧ (path = [x] ∨
      ∃ y ∈ inputs x, ∃ rest, BackwardPath inputs isVertex y rest ∧ path = x :: rest) := by
  obtain ⟨hstarts, hlinked, hvertices⟩ := h
  cases path with
  | nil => cases hstarts
  | cons z rest =>
      obtain rfl : z = x := Option.some.inj hstarts
      refine ⟨hvertices z List.mem_cons_self, ?_⟩
      cases rest with
      | nil => exact .inl rfl
      | cons y rest =>
          obtain ⟨hy, hrest⟩ := List.isChain_cons_cons.mp hlinked
          exact .inr ⟨y, hy, y :: rest,
            ⟨rfl, hrest, fun w hw => hvertices w (List.mem_cons_of_mem _ hw)⟩, rfl⟩

/-- A path stays among points that are closed under inputs, and is one in every graph that agrees
on them. -/
lemma BackwardPath.transfer {p : α → Prop} (hclosed : ∀ x, p x → ∀ y ∈ inputs x, p y)
    (hinputs : ∀ x, p x → inputs' x = inputs x) (hvertex : ∀ x, p x → isVertex x → isVertex' x) :
    ∀ {path : List α} {x : α}, p x → BackwardPath inputs isVertex x path →
      BackwardPath inputs' isVertex' x path
  | [], _, _, h => nomatch h.starts
  | _ :: _, x, hx, h => by
      obtain ⟨hv, heq | ⟨y, hy, rest, hrest, heq⟩⟩ := h.cases
      · obtain ⟨rfl, rfl⟩ := List.cons.inj heq
        exact backwardPath_singleton (hvertex _ hx hv)
      · obtain ⟨rfl, rfl⟩ := List.cons.inj heq
        exact (transfer hclosed hinputs hvertex (hclosed _ hx y hy) hrest).cons
          (hvertex _ hx hv) (hinputs _ hx ▸ hy)

/-! ## Heights -/

lemma height_of_not_isVertex (hx : ¬ isVertex x) : height inputs isVertex x = 0 := by
  have hempty : pathLengths inputs isVertex x = ∅ :=
    Set.eq_empty_of_forall_notMem fun _ ⟨_, hpath, _⟩ => hx hpath.cases.1
  rw [height, hempty, csSup_empty, Nat.bot_eq_zero]

/-- The height reads what lies backward of the point. -/
lemma height_congr {p : α → Prop} (hclosed : ∀ x, p x → ∀ y ∈ inputs x, p y)
    (hinputs : ∀ x, p x → inputs' x = inputs x)
    (hvertex : ∀ x, p x → (isVertex x ↔ isVertex' x)) (hx : p x) :
    height inputs' isVertex' x = height inputs isVertex x := by
  have hclosed' : ∀ x, p x → ∀ y ∈ inputs' x, p y :=
    fun x hx y hy => hclosed x hx y (hinputs x hx ▸ hy)
  refine congrArg sSup (Set.ext fun n => exists_congr fun path => and_congr_left fun _ => ?_)
  exact ⟨.transfer hclosed' (fun x hx => (hinputs x hx).symm) (fun x hx => (hvertex x hx).mpr) hx,
    .transfer hclosed hinputs (fun x hx => (hvertex x hx).mp) hx⟩

/-- The loop that takes the maximum of the values of a list. -/
lemma isGreatest_foldl_max (f : α → ℕ) : ∀ (xs : List α) (start : ℕ),
    IsGreatest (insert start {n | ∃ y ∈ xs, f y = n}) (xs.foldl (fun d y => max d (f y)) start)
  | [], start => by
      refine ⟨Set.mem_insert _ _, fun n hn => ?_⟩
      rcases hn with rfl | ⟨y, hy, -⟩
      · exact le_rfl
      · exact absurd hy List.not_mem_nil
  | y :: xs, start => by
      obtain ⟨hmem, hle⟩ := isGreatest_foldl_max f xs (max start (f y))
      rw [List.foldl_cons]
      refine ⟨?_, fun n hn => ?_⟩
      · rcases hmem with heq | ⟨z, hz, heq⟩
        · rw [heq]
          rcases max_choice start (f y) with hmax | hmax
          · exact .inl hmax
          · exact .inr ⟨y, List.mem_cons_self, hmax.symm⟩
        · exact .inr ⟨z, List.mem_cons_of_mem _ hz, heq⟩
      · have hstart := hle (Set.mem_insert _ _)
        rcases hn with rfl | ⟨z, hz, rfl⟩
        · exact (le_max_left _ _).trans hstart
        · rcases List.mem_cons.mp hz with rfl | hz
          · exact (le_max_right _ _).trans hstart
          · exact hle (.inr ⟨z, hz, rfl⟩)

section Acyclic

variable {rank : α → ℕ} (hrank : ∀ x, ∀ y ∈ inputs x, rank y < rank x)
include hrank

lemma BackwardPath.length_le : ∀ {path : List α} {x : α}, BackwardPath inputs isVertex x path →
    path.length ≤ rank x + 1
  | [], _, h => nomatch h.starts
  | _ :: _, x, h => by
      obtain ⟨-, heq | ⟨y, hy, rest, hrest, heq⟩⟩ := h.cases
      · rw [heq, List.length_singleton]
        exact Nat.le_add_left _ _
      · obtain ⟨-, rfl⟩ := List.cons.inj heq
        have := length_le hrest
        have := hrank x y hy
        rw [heq, List.length_cons]
        omega

/-- The height of a vertex is attained. -/
lemma isGreatest_height (hx : isVertex x) :
    IsGreatest (pathLengths inputs isVertex x) (height inputs isVertex x) := by
  have hbdd : BddAbove (pathLengths inputs isVertex x) :=
    ⟨rank x + 1, fun _ ⟨_, hpath, hlength⟩ => hlength ▸ hpath.length_le hrank⟩
  have hne : (pathLengths inputs isVertex x).Nonempty := ⟨1, [x], backwardPath_singleton hx, rfl⟩
  exact ⟨Nat.sSup_mem hne hbdd, fun n hn => le_csSup hbdd hn⟩

/-- The height of a vertex with inputs is one more than the greatest height of an input. -/
lemma height_eq (hx : isVertex x) (hne : inputs x ≠ []) :
    height inputs isVertex x =
      (inputs x).foldl (fun d y => max d (height inputs isVertex y + 1)) 0 := by
  obtain ⟨hmem, hle⟩ :=
    isGreatest_foldl_max (fun y => height inputs isVertex y + 1) (inputs x) 0
  have hinput : ∀ y ∈ inputs x, height inputs isVertex y + 1 ≤
      (inputs x).foldl (fun d y => max d (height inputs isVertex y + 1)) 0 :=
    fun y hy => hle (.inr ⟨y, hy, rfl⟩)
  obtain ⟨z, hz⟩ := List.exists_mem_of_ne_nil _ hne
  refine (isGreatest_height hrank hx).unique ⟨?_, fun n ⟨path, hpath, hlength⟩ => ?_⟩
  · rcases hmem with hzero | ⟨y, hy, heq⟩
    · have := hinput z hz
      omega
    · rw [← heq]
      by_cases hvertex : isVertex y
      · obtain ⟨path, hpath, hlength⟩ := (isGreatest_height hrank hvertex).1
        exact ⟨x :: path, hpath.cons hx hy, by rw [List.length_cons, hlength]⟩
      · exact ⟨[x], backwardPath_singleton hx, by rw [height_of_not_isVertex hvertex]; rfl⟩
  · obtain ⟨-, rfl | ⟨y, hy, rest, hrest, rfl⟩⟩ := hpath.cases
    · have := hinput z hz
      rw [List.length_singleton] at hlength
      omega
    · have hheight := (isGreatest_height hrank hrest.cases.1).2 ⟨rest, hrest, rfl⟩
      have := hinput y hy
      rw [List.length_cons] at hlength
      omega

end Acyclic

end LongestPaths

end ParrotServe
