import Mathlib.Data.List.Infix
import Mathlib.Tactic.Lemma

/-!
# Longest common prefixes

`IsLcp k l`: the list `k` is the longest common prefix of the lists in `l`.  It is determined by
which lists are in `l`, `IsLcp.unique`, and grows shorter one list at a time: `IsLcp.concat` with
`commonLength`, the number of positions from the start at which two lists agree.

Nothing in this module refers to the repository being modelled.
-/

namespace ParrotServe

variable {α : Type*}

section Agreement

variable [DecidableEq α]

/-- The number of positions from the start at which two lists agree. -/
def commonLength : List α → List α → ℕ
  | a :: k, b :: p => if a = b then commonLength k p + 1 else 0
  | _, _ => 0

lemma commonLength_append (c k p : List α) :
    commonLength (c ++ k) (c ++ p) = c.length + commonLength k p := by
  induction c with
  | nil => simp
  | cons a c ih =>
      rw [List.cons_append, List.cons_append, commonLength, if_pos rfl, ih, List.length_cons]
      omega

/-- Behind a common start, the agreement goes on. -/
lemma commonLength_eq_add_drop {k p : List α} {i : ℕ} (hk : i ≤ k.length)
    (htake : k.take i = p.take i) :
    commonLength k p = i + commonLength (k.drop i) (p.drop i) := by
  have happ := commonLength_append (k.take i) (k.drop i) (p.drop i)
  rw [List.take_append_drop, List.length_take, Nat.min_eq_left hk] at happ
  rwa [htake, List.take_append_drop] at happ

lemma commonLength_le : ∀ k p : List α, commonLength k p ≤ k.length
  | [], _ => Nat.zero_le _
  | _ :: _, [] => Nat.zero_le _
  | a :: k, b :: p => by
      unfold commonLength
      split
      · exact Nat.succ_le_succ (commonLength_le k p)
      · exact Nat.zero_le _

lemma take_commonLength_prefix : ∀ k p : List α, k.take (commonLength k p) <+: p
  | [], _ => by
      rw [List.take_nil]
      exact List.nil_prefix
  | _ :: _, [] => List.nil_prefix
  | a :: k, b :: p => by
      unfold commonLength
      split
      · rename_i hab
        rw [hab, List.take_succ_cons]
        exact List.cons_prefix_cons.mpr ⟨rfl, take_commonLength_prefix k p⟩
      · exact List.nil_prefix

/-- Every common prefix is within the agreement. -/
lemma prefix_take_commonLength : ∀ {q k p : List α}, q <+: k → q <+: p →
    q <+: k.take (commonLength k p)
  | [], _, _, _, _ => List.nil_prefix
  | _ :: _, [], _, hk, _ => absurd (List.prefix_nil.mp hk) (List.cons_ne_nil _ _)
  | _ :: _, _ :: _, [], _, hp => absurd (List.prefix_nil.mp hp) (List.cons_ne_nil _ _)
  | c :: q, a :: k, b :: p, hk, hp => by
      obtain ⟨rfl, hqk⟩ := List.cons_prefix_cons.mp hk
      obtain ⟨rfl, hqp⟩ := List.cons_prefix_cons.mp hp
      rw [commonLength, if_pos rfl, List.take_succ_cons]
      exact List.cons_prefix_cons.mpr ⟨rfl, prefix_take_commonLength hqk hqp⟩

end Agreement

/-- `k` is the longest common prefix of the lists in `l`. -/
def IsLcp (k : List α) (l : List (List α)) : Prop :=
  (∀ x ∈ l, k <+: x) ∧ ∀ q, (∀ x ∈ l, q <+: x) → q <+: k

variable {k k' x : List α} {l l' : List (List α)}

lemma IsLcp.unique (h : IsLcp k l) (h' : IsLcp k' l) : k = k' :=
  (h'.2 k h.1).eq_of_length_le (List.IsPrefix.length_le (h.2 k' h'.1))

lemma IsLcp.perm (h : IsLcp k l) (hperm : l.Perm l') : IsLcp k l' :=
  ⟨fun y hy => h.1 y (hperm.mem_iff.mpr hy), fun q hq => h.2 q fun y hy =>
    hq y (hperm.mem_iff.mp hy)⟩

lemma isLcp_singleton (x : List α) : IsLcp x [x] :=
  ⟨fun _ hy => List.mem_singleton.mp hy ▸ List.prefix_refl x, fun _ hq => hq x (by simp)⟩

/-- One more list. -/
lemma IsLcp.concat [DecidableEq α] (h : IsLcp k l) (x : List α) :
    IsLcp (k.take (commonLength k x)) (l ++ [x]) := by
  constructor
  · intro y hy
    rcases List.mem_append.mp hy with hy | hy
    · exact (List.take_prefix _ _).trans (h.1 y hy)
    · rw [List.mem_singleton.mp hy]
      exact take_commonLength_prefix k x
  · intro q hq
    exact prefix_take_commonLength (h.2 q fun y hy => hq y (List.mem_append_left _ hy))
      (hq x (by simp))

/-- Some lists have a longest common prefix. -/
lemma exists_isLcp [DecidableEq α] : ∀ l : List (List α), l ≠ [] → ∃ k, IsLcp k l := by
  intro l
  induction l using List.reverseRecOn with
  | nil => exact fun hne => absurd rfl hne
  | append_singleton l x ih =>
      intro _
      by_cases hnil : l = []
      · exact ⟨x, by rw [hnil]; exact isLcp_singleton x⟩
      · obtain ⟨k, hk⟩ := ih hnil
        exact ⟨_, hk.concat x⟩

end ParrotServe
