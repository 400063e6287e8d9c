import Mathlib.Data.List.Basic
import Mathlib.Tactic.Lemma

/-!
# Hand-written iterators

An iterator object is a cursor with a `__next__`: one call raises, stops, or yields a value and
moves the cursor.  Whether the loop over it ends is a property of the data it walks over.

`Yields next c l` says that the loop started at `c` ends, without an exception, after the values
`l`.  `drain next fuel c` is the loop itself, given up after `fuel` calls; `drain_of_yields` and
`yields_of_drain` connect the two.

Nothing in this module refers to the repository being modelled.
-/

namespace ParrotServe

variable {ε σ α : Type}

/-- `next c`: an exception, `none` for a stop, or a value and the cursor after it. -/
abbrev IterNext (ε σ α : Type) := σ → Except ε (Option (α × σ))

/-- The loop from `c` ends after the values of the list. -/
def Yields (next : IterNext ε σ α) : σ → List α → Prop
  | c, [] => next c = .ok none
  | c, a :: l => ∃ c', next c = .ok (some (a, c')) ∧ Yields next c' l

/-- The loop from `c`; `ok none` when it has not ended after `fuel` calls. -/
def drain (next : IterNext ε σ α) : ℕ → σ → Except ε (Option (List α))
  | 0, _ => .ok none
  | fuel + 1, c =>
      match next c with
      | .error e => .error e
      | .ok none => .ok (some [])
      | .ok (some (a, c')) =>
          match drain next fuel c' with
          | .error e => .error e
          | .ok none => .ok none
          | .ok (some l) => .ok (some (a :: l))

variable {next : IterNext ε σ α}

/-- A loop yields one list. -/
lemma Yields.unique : ∀ {l l' : List α} {c : σ}, Yields next c l → Yields next c l' → l = l'
  | [], [], _, _, _ => rfl
  | [], _ :: _, _, h, h' => by
      obtain ⟨_, h', -⟩ := h'
      rw [Yields, h'] at h
      simp at h
  | _ :: _, [], _, h, h' => by
      obtain ⟨_, h, -⟩ := h
      rw [Yields, h] at h'
      simp at h'
  | a :: l, b :: l', c, h, h' => by
      obtain ⟨c₁, h₁, h⟩ := h
      obtain ⟨c₂, h₂, h'⟩ := h'
      rw [h₁] at h₂
      obtain ⟨rfl, rfl⟩ := Prod.mk.inj (Option.some.inj (Except.ok.inj h₂))
      rw [h.unique h']

/-- Enough fuel runs a loop that ends to its end. -/
lemma drain_of_yields : ∀ {l : List α} {c : σ} {fuel : ℕ}, Yields next c l → l.length < fuel →
    drain next fuel c = .ok (some l)
  | _, _, 0, _, hlt => absurd hlt (Nat.not_lt_zero _)
  | [], c, fuel + 1, h, _ => by rw [drain, show next c = .ok none from h]
  | a :: l, c, fuel + 1, h, hlt => by
      obtain ⟨c', hc, hl⟩ := h
      rw [drain, hc]
      dsimp only
      rw [drain_of_yields hl (Nat.lt_of_succ_lt_succ hlt)]

/-- A loop that was run to its end yields what was collected. -/
lemma yields_of_drain : ∀ {fuel : ℕ} {c : σ} {l : List α}, drain next fuel c = .ok (some l) →
    Yields next c l
  | 0, _, _, h => by simp [drain] at h
  | fuel + 1, c, l, h => by
      rw [drain] at h
      split at h
      · simp at h
      · rename_i hc
        obtain rfl : [] = l := by simpa using h
        exact hc
      · rename_i a c' hc
        split at h
        · simp at h
        · simp at h
        · rename_i l' hl'
          obtain rfl : a :: l' = l := by simpa using h
          exact ⟨c', hc, yields_of_drain hl'⟩

/-- A loop that never raises, and whose cursor goes down, ends. -/
lemma exists_drain {rank : σ → ℕ} (hnext : ∀ c, next c = .ok none ∨
    ∃ a c', next c = .ok (some (a, c')) ∧ rank c' < rank c) :
    ∀ {fuel : ℕ} {c : σ}, rank c < fuel → ∃ l, drain next fuel c = .ok (some l)
  | 0, _, hlt => absurd hlt (Nat.not_lt_zero _)
  | fuel + 1, c, hlt => by
      rw [drain]
      rcases hnext c with hc | ⟨a, c', hc, hrank⟩
      · exact ⟨[], by rw [hc]⟩
      · obtain ⟨l, hl⟩ := exists_drain hnext (Nat.lt_of_lt_of_le hrank (Nat.le_of_lt_succ hlt))
        exact ⟨a :: l, by rw [hc]; dsimp only; rw [hl]⟩

end ParrotServe
