import Mathlib.Data.Set.Basic
import Mathlib.Logic.Relation

/-!
# Common ancestors in a forest

A forest is given by the parent of every node.  `Above parent a c` says that `a` is `c` or one of
its ancestors; a node is compared to nothing at all (`none`, where the walk from a root ends) by
`AboveOpt`.

Two nodes are brought to their lowest common ancestor by walking up from the deeper one, or from
both when they are equally deep.  What carries such a walk is that no step loses a common ancestor
(`Forest.climb_left`, `Forest.climb_both`): the common ancestors of the two nodes are at the end
those of one node, the lowest one, or there is none.  That node is the `Deepest` common ancestor.

Nothing in this module refers to the repository being modelled.
-/

namespace ParrotServe

variable {α : Type*} {parent : α → Option α} {depth : α → ℕ} {nodes : Set α}

/-- `a` is `c` or an ancestor of it. -/
def Above (parent : α → Option α) (a c : α) : Prop :=
  Relation.ReflTransGen (fun x p => parent x = some p) c a

/-- `a` is above a node, if there is one. -/
def AboveOpt (parent : α → Option α) (a : α) (c : Option α) : Prop :=
  ∃ x, c = some x ∧ Above parent a x

lemma aboveOpt_some {a c : α} : AboveOpt parent a (some c) ↔ Above parent a c :=
  ⟨fun ⟨_, hx, h⟩ => Option.some.inj hx ▸ h, fun h => ⟨c, rfl, h⟩⟩

lemma not_aboveOpt_none {a : α} : ¬ AboveOpt parent a none := by
  rintro ⟨x, hx, -⟩
  cases hx

/-- What is above a node is the node itself, or above its parent. -/
lemma above_iff {a c : α} : Above parent a c ↔ a = c ∨ AboveOpt parent a (parent c) := by
  rw [Above, Relation.ReflTransGen.cases_head_iff, eq_comm]
  rfl

/-- A node that is properly above another has a child on the way. -/
lemma Above.exists_child {a c : α} (h : Above parent a c) (hne : c ≠ a) :
    ∃ x, Above parent x c ∧ parent x = some a :=
  (Relation.ReflTransGen.cases_tail h).resolve_left hne.symm

/-- A set of nodes that is closed under parents, with their depths. -/
structure Forest (parent : α → Option α) (depth : α → ℕ) (nodes : Set α) : Prop where
  mem : ∀ c ∈ nodes, ∀ p, parent c = some p → p ∈ nodes
  root : ∀ c ∈ nodes, parent c = none → depth c = 0
  child : ∀ c ∈ nodes, ∀ p, parent c = some p → depth c = depth p + 1

namespace Forest

lemma above_mem (h : Forest parent depth nodes) {a c : α} (ha : Above parent a c) (hc : c ∈ nodes) :
    a ∈ nodes := by
  induction ha with
  | refl => exact hc
  | tail _ hp ih => exact h.mem _ ih _ hp

/-- Ancestors are less deep. -/
lemma depth_le (h : Forest parent depth nodes) {a c : α} (ha : Above parent a c) (hc : c ∈ nodes) :
    depth a ≤ depth c := by
  induction ha with
  | refl => exact Nat.le_refl _
  | tail hx hp ih =>
      rw [h.child _ (h.above_mem hx hc) _ hp] at ih
      exact Nat.le_of_succ_le ih

/-- A node that is not at depth 0 has a parent. -/
lemma exists_parent (h : Forest parent depth nodes) {c : α} (hc : c ∈ nodes) (hd : 0 < depth c) :
    ∃ p, parent c = some p := by
  cases hp : parent c with
  | none =>
      rw [h.root c hc hp] at hd
      exact absurd hd (Nat.lt_irrefl 0)
  | some p => exact ⟨p, rfl⟩

/-- Going up from the deeper of two nodes keeps what is above both. -/
lemma climb_left (h : Forest parent depth nodes) {a c d : α} (hd : d ∈ nodes)
    (hlt : depth d < depth c) :
    Above parent a c ∧ Above parent a d ↔
      AboveOpt parent a (parent c) ∧ Above parent a d := by
  refine ⟨fun ⟨hac, had⟩ => ⟨?_, had⟩, fun ⟨hac, had⟩ => ⟨above_iff.mpr (.inr hac), had⟩⟩
  rcases above_iff.mp hac with rfl | hac
  · exact absurd (h.depth_le had hd) (Nat.not_le.mpr hlt)
  · exact hac

/-- What is above two different nodes of the same depth is above their parents. -/
lemma climb_both (h : Forest parent depth nodes) {a c d : α} (hc : c ∈ nodes) (hd : d ∈ nodes)
    (heq : depth c = depth d) (hne : c ≠ d) :
    Above parent a c ∧ Above parent a d ↔
      AboveOpt parent a (parent c) ∧ AboveOpt parent a (parent d) := by
  have hproper : ∀ x y, y ∈ nodes → depth x = depth y → x ≠ y → ¬ Above parent x y := by
    intro x y hy hxy hxne hx
    rcases above_iff.mp hx with rfl | ⟨p, hp, hx⟩
    · exact hxne rfl
    · have hle := h.depth_le hx (h.mem y hy p hp)
      rw [hxy, h.child y hy p hp] at hle
      exact absurd hle (Nat.not_succ_le_self _)
  constructor
  · rintro ⟨hac, had⟩
    constructor
    · rcases above_iff.mp hac with rfl | hac
      · exact absurd had (hproper a d hd heq hne)
      · exact hac
    · rcases above_iff.mp had with rfl | had
      · exact absurd hac (hproper a c hc heq.symm hne.symm)
      · exact had
  · rintro ⟨hac, had⟩
    exact ⟨above_iff.mpr (.inr hac), above_iff.mpr (.inr had)⟩

/-- An ancestor that is another node is less deep. -/
lemma depth_lt (h : Forest parent depth nodes) {a c : α} (ha : Above parent a c) (hc : c ∈ nodes)
    (hne : a ≠ c) : depth a < depth c := by
  obtain ⟨p, hp, hap⟩ := (above_iff.mp ha).resolve_left hne
  rw [h.child c hc p hp]
  exact Nat.lt_succ_of_le (h.depth_le hap (h.mem c hc p hp))

end Forest

/-! ## The deepest node with a property -/

/-- The deepest node with a property, or `none` when no node has it. -/
def Deepest (depth : α → ℕ) (P : α → Prop) : Option α → Prop
  | none => ∀ a, ¬ P a
  | some l => P l ∧ ∀ a, P a → a ≠ l → depth a < depth l

/-- There is one deepest node. -/
lemma Deepest.unique {P : α → Prop} {l l' : Option α} (h : Deepest depth P l)
    (h' : Deepest depth P l') : l = l' := by
  cases l with
  | none =>
      cases l' with
      | none => rfl
      | some x => exact absurd h'.1 (h x)
  | some x =>
      cases l' with
      | none => exact absurd h.1 (h' x)
      | some y =>
          by_contra hne
          have hxy : x ≠ y := fun he => hne (congrArg some he)
          have hlt := h.2 y h'.1 hxy.symm
          have hgt := h'.2 x h.1 hxy
          omega

/-- What has a property exactly above a node is deepest there. -/
lemma Forest.deepest (h : Forest parent depth nodes) {P : α → Prop} {l : Option α}
    (hl : ∀ x, l = some x → x ∈ nodes) (habove : ∀ a, AboveOpt parent a l ↔ P a) :
    Deepest depth P l := by
  cases l with
  | none => exact fun a hP => not_aboveOpt_none ((habove a).mpr hP)
  | some x =>
      refine ⟨(habove x).mp (aboveOpt_some.mpr .refl), fun a hP hne => ?_⟩
      exact h.depth_lt (aboveOpt_some.mp ((habove a).mpr hP)) (hl x rfl) hne

end ParrotServe
