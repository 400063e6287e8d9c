import Mathlib.Data.List.Basic
import Mathlib.Data.Prod.Lex
import Mathlib.Tactic.Lemma

/-!
# Choosing by a scan

A loop over a list keeps the best element so far and takes the next one unless the best `beats`
it.  When `beats` is reflexive and transitive, but not total, this does not compute a minimum: what
was replaced is never compared again.  The element that is left `Survives`: it beats everything
behind it in the list, and it beats every other element that does.

With two keys that both have to be at most the other's, `KeysLe`, this is such a scan;
`lexLeast_iff_of_first` says when it finds the lexicographic minimum of the keys all the same.

Nothing in this module refers to the repository being modelled.
-/

namespace ParrotServe

variable {α : Type*}

section Scan

variable {beats : α → α → Prop}

/-- One round: the best so far stays if it beats the next element. -/
def keep (beats : α → α → Prop) [DecidableRel beats] (best x : α) : α :=
  if beats best x then best else x

/-- An element of the list that beats everything behind it. -/
def Survives (beats : α → α → Prop) (a : α) (l : List α) : Prop :=
  ∃ pre post, l = pre ++ a :: post ∧ ∀ x ∈ post, beats a x

lemma Survives.mem {a : α} {l : List α} (h : Survives beats a l) : a ∈ l := by
  obtain ⟨pre, post, rfl, -⟩ := h
  simp

lemma survives_head {a : α} {l : List α} (h : ∀ x ∈ l, beats a x) : Survives beats a (a :: l) :=
  ⟨[], l, rfl, h⟩

lemma Survives.cons {a : α} {l : List α} (h : Survives beats a l) (b : α) :
    Survives beats a (b :: l) := by
  obtain ⟨pre, post, rfl, hpost⟩ := h
  exact ⟨b :: pre, post, rfl, hpost⟩

/-- Of a list with a head, the head survives or the tail has the survivor. -/
lemma survives_cons_iff {a b : α} {l : List α} :
    Survives beats a (b :: l) ↔ (a = b ∧ ∀ x ∈ l, beats b x) ∨ Survives beats a l := by
  constructor
  · rintro ⟨pre, post, heq, hpost⟩
    rcases pre with _ | ⟨c, pre⟩
    · obtain ⟨rfl, rfl⟩ : b = a ∧ l = post := by simpa using heq
      exact .inl ⟨rfl, hpost⟩
    · obtain ⟨-, rfl⟩ : b = c ∧ l = pre ++ a :: post := by simpa using heq
      exact .inr ⟨pre, post, rfl, hpost⟩
  · rintro (⟨rfl, hall⟩ | h)
    · exact survives_head hall
    · exact h.cons b

/-- A survivor beats the last element. -/
lemma Survives.beats_last (hrefl : ∀ a, beats a a) {a x : α} {l : List α}
    (h : Survives beats a (l ++ [x])) : beats a x := by
  obtain ⟨pre, post, heq, hpost⟩ := h
  rcases List.eq_nil_or_concat post with rfl | ⟨post', y, rfl⟩
  · obtain ⟨-, rfl⟩ : l = pre ∧ x = a := List.append_singleton_inj.mp heq
    exact hrefl x
  · have heq' : l ++ [x] = (pre ++ a :: post') ++ [y] := by simpa using heq
    obtain ⟨-, rfl⟩ := List.append_singleton_inj.mp heq'
    exact hpost x (by simp)

variable [DecidableRel beats]

/-- What the scan leaves survives. -/
lemma survives_foldl_keep (l : List α) :
    ∀ a, Survives beats (l.foldl (keep beats) a) (a :: l) := by
  induction l with
  | nil => exact fun a => survives_head fun x hx => absurd hx List.not_mem_nil
  | cons x l ih =>
      intro a
      rw [List.foldl_cons]
      unfold keep
      split
      · rename_i hbeats
        rcases survives_cons_iff.mp (ih a) with ⟨heq, hall⟩ | hs
        · refine survives_cons_iff.mpr (.inl ⟨heq, fun y hy => ?_⟩)
          rcases List.mem_cons.mp hy with rfl | hy
          · exact hbeats
          · exact hall y hy
        · exact (hs.cons x).cons a
      · exact (ih x).cons a

/-- What the scan leaves beats everything that survives: it is the first survivor. -/
lemma foldl_keep_beats (hrefl : ∀ a, beats a a)
    (htrans : ∀ a b c, beats a b → beats b c → beats a c) (l : List α) :
    ∀ a b, Survives beats b (a :: l) → beats (l.foldl (keep beats) a) b := by
  induction l with
  | nil =>
      intro a b h
      obtain rfl : b = a := by simpa using h.mem
      exact hrefl b
  | cons x l ih =>
      intro a b h
      rw [List.foldl_cons]
      unfold keep
      split
      · rename_i hbeats
        rcases survives_cons_iff.mp h with ⟨rfl, hall⟩ | h
        · exact ih b b (survives_head fun y hy => hall y (List.mem_cons_of_mem x hy))
        · rcases survives_cons_iff.mp h with ⟨rfl, hall⟩ | h
          · -- `a` was kept over `b`, and beats what `b` beats
            have ha : Survives beats a (a :: l) :=
              survives_head fun y hy => htrans a b y hbeats (hall y hy)
            exact htrans _ a b (ih a a ha) hbeats
          · exact ih a b (h.cons a)
      · rename_i hbeats
        rcases survives_cons_iff.mp h with ⟨rfl, hall⟩ | h
        · exact absurd (hall x List.mem_cons_self) hbeats
        · exact ih x b h

end Scan

/-! ## Two keys -/

section TwoKeys

variable {β γ : Type*} [LinearOrder β] [LinearOrder γ] {f : α → β} {g : α → γ}

/-- Both keys of `a` are at most those of `b`. -/
def KeysLe (f : α → β) (g : α → γ) (a b : α) : Prop := f a ≤ f b ∧ g a ≤ g b

instance : DecidableRel (KeysLe f g) :=
  fun a b => inferInstanceAs (Decidable (f a ≤ f b ∧ g a ≤ g b))

lemma KeysLe.refl (a : α) : KeysLe f g a a := ⟨le_rfl, le_rfl⟩

lemma KeysLe.trans (a b c : α) (h : KeysLe f g a b) (h' : KeysLe f g b c) : KeysLe f g a c :=
  ⟨h.1.trans h'.1, h.2.trans h'.2⟩

/-- An element of the list whose keys are the least of the lexicographic order. -/
def LexLeast (f : α → β) (g : α → γ) (a : α) (l : List α) : Prop :=
  a ∈ l ∧ ∀ b ∈ l, toLex (f a, g a) ≤ toLex (f b, g b)

lemma LexLeast.fst_le {a b : α} {l : List α} (h : LexLeast f g a l) (hb : b ∈ l) : f a ≤ f b :=
  Prod.Lex.monotone_fst _ _ (h.2 b hb)

lemma LexLeast.of_keysLe {a b : α} {l : List α} (h : LexLeast f g a l) (hb : b ∈ l)
    (hle : KeysLe f g b a) : LexLeast f g b l := by
  refine ⟨hb, fun c hc => le_trans ?_ (h.2 c hc)⟩
  exact Prod.Lex.toLex_mono ⟨hle.1, hle.2⟩

/-- The first survivor is a lexicographic minimum exactly when one of them has nothing behind it
whose second key is smaller. -/
lemma lexLeast_iff_of_first {a : α} {l : List α} (hs : Survives (KeysLe f g) a l)
    (hbeats : ∀ b, Survives (KeysLe f g) b l → KeysLe f g a b) :
    LexLeast f g a l ↔
      ∃ pre m post, l = pre ++ m :: post ∧ LexLeast f g m l ∧ ∀ x ∈ post, g m ≤ g x := by
  constructor
  · intro hleast
    obtain ⟨pre, post, heq, hpost⟩ := hs
    exact ⟨pre, a, post, heq, hleast, fun x hx => (hpost x hx).2⟩
  · rintro ⟨pre, m, post, heq, hleast, hpost⟩
    have hm : Survives (KeysLe f g) m l := by
      refine ⟨pre, post, heq, fun x hx => ⟨hleast.fst_le ?_, hpost x hx⟩⟩
      rw [heq]
      exact List.mem_append_right _ (List.mem_cons_of_mem _ hx)
    exact hleast.of_keysLe hs.mem (hbeats m hm)

end TwoKeys

end ParrotServe
