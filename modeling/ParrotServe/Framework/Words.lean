import Mathlib.Data.List.Infix
import Mathlib.Data.List.Basic
import Mathlib.Tactic.Lemma

/-!
# The words of a text

The words of a text are the maximal runs of characters that are no spaces.  A rewriting of texts
that leaves these characters alone and only changes the spaces around them (`Gapwise`) keeps the
words exactly when it takes no gap between two words away, `Gapwise.words_eq_iff`: then the words on
both sides become one.

The proof reads a text as letters, each with the spaces behind it (`source`).  Such a reading is not
unique as soon as only some of its letters are known, but any reading will do.

Nothing in this module refers to the repository being modelled.
-/

namespace ParrotServe

namespace Words

variable {α : Type*} (isSpace : α → Bool)

/-- The maximal runs of characters that are no spaces. -/
def words (t : List α) : List (List α) := (t.splitOnP isSpace).filter fun w => !w.isEmpty

variable {isSpace} {c d : α} {g t : List α}

@[simp] lemma words_nil : words isSpace ([] : List α) = [] := rfl

/-- Words end at a space. -/
lemma words_append_cons (hc : isSpace c) (a b : List α) :
    words isSpace (a ++ c :: b) = words isSpace a ++ words isSpace b := by
  rw [words, List.splitOnP_append_cons a b hc, List.filter_append]
  rfl

lemma words_cons_space (hc : isSpace c) (t : List α) :
    words isSpace (c :: t) = words isSpace t :=
  words_append_cons hc [] t

/-- Spaces in front of a text. -/
lemma words_spaces_append (hg : ∀ c ∈ g, isSpace c) (t : List α) :
    words isSpace (g ++ t) = words isSpace t := by
  induction g with
  | nil => rfl
  | cons c g ih =>
      rw [List.cons_append, words_cons_space (hg c List.mem_cons_self)]
      exact ih fun x hx => hg x (List.mem_cons_of_mem _ hx)

lemma words_singleton (hc : isSpace c = false) : words isSpace [c] = [[c]] := by
  simp [words, List.splitOnP_cons_eq_if_modifyHead, hc]

/-- A letter with spaces behind it. -/
lemma words_letter_spaces (hc : isSpace c = false) (hg : ∀ x ∈ g, isSpace x) (hne : g ≠ [])
    (t : List α) : words isSpace (c :: (g ++ t)) = [c] :: words isSpace t := by
  obtain ⟨x, g, rfl⟩ := List.exists_cons_of_ne_nil hne
  have hsplit := words_append_cons (hg x List.mem_cons_self) [c] (g ++ t)
  rw [words_singleton hc,
    words_spaces_append fun y hy => hg y (List.mem_cons_of_mem _ hy)] at hsplit
  exact hsplit

/-- The first word of a text that begins with a letter. -/
lemma exists_words_cons (hc : isSpace c = false) (t : List α) :
    ∃ w ws, words isSpace (c :: t) = (c :: w) :: ws ∧
      ∀ b, isSpace b = false → words isSpace (b :: c :: t) = (b :: c :: w) :: ws := by
  obtain ⟨w, ws, hsplit⟩ := List.exists_cons_of_ne_nil (List.splitOnP_ne_nil isSpace t)
  have hct : (c :: t).splitOnP isSpace = (c :: w) :: ws := by
    rw [List.splitOnP_cons_eq_if_modifyHead, hsplit, if_neg (by simp [hc])]
    rfl
  refine ⟨w, ws.filter fun w => !w.isEmpty, by rw [words, hct]; rfl, fun b hb => ?_⟩
  rw [words, List.splitOnP_cons_eq_if_modifyHead, hct, if_neg (by simp [hb])]
  rfl

/-- Two words become one when all spaces between them go. -/
lemma words_gap_eq_iff {g' x y : List α} (hc : isSpace c = false) (hd : isSpace d = false)
    (hg : ∀ x ∈ g, isSpace x) (hg' : ∀ x ∈ g', isSpace x) (hnil : g = [] → g' = []) :
    words isSpace (c :: (g' ++ d :: x)) = words isSpace (c :: (g ++ d :: y)) ↔
      (g' = [] → g = []) ∧ words isSpace (d :: x) = words isSpace (d :: y) := by
  obtain ⟨w, ws, hx, hcx⟩ := exists_words_cons hd x
  obtain ⟨v, vs, hy, hcy⟩ := exists_words_cons hd y
  by_cases hgne : g = []
  · rw [hnil hgne, hgne, List.nil_append, List.nil_append, hcx c hc, hcy c hc, hx, hy]
    simp
  by_cases hne' : g' = []
  · rw [hne', List.nil_append, hcx c hc, words_letter_spaces hc hg hgne]
    simp [hgne]
  · rw [words_letter_spaces hc hg hgne, words_letter_spaces hc hg' hne']
    simp [hne']

/-! ## Letters with the spaces behind them -/

/-- The text of letters, each with its spaces rewritten. -/
def source (f : List α → List α) (l : List (α × List α)) : List α :=
  l.flatMap fun p => p.1 :: f p.2

/-- Letters, and spaces. -/
def Reads (isSpace : α → Bool) (l : List (α × List α)) : Prop :=
  ∀ p ∈ l, isSpace p.1 = false ∧ ∀ c ∈ p.2, isSpace c

@[simp] lemma source_nil (f : List α → List α) : source f ([] : List (α × List α)) = [] := rfl

@[simp] lemma source_cons (f : List α → List α) (p : α × List α) (l : List (α × List α)) :
    source f (p :: l) = p.1 :: (f p.2 ++ source f l) := rfl

@[simp] lemma source_append (f : List α → List α) (l l' : List (α × List α)) :
    source f (l ++ l') = source f l ++ source f l' := List.flatMap_append

/-- Every text can be read. -/
lemma exists_reading (isSpace : α → Bool) (t : List α) :
    ∃ g l, (∀ c ∈ g, isSpace c) ∧ Reads isSpace l ∧ t = g ++ source id l := by
  induction t with
  | nil => exact ⟨[], [], by simp, by simp [Reads], rfl⟩
  | cons c t ih =>
      obtain ⟨g, l, hg, hl, rfl⟩ := ih
      cases hc : isSpace c with
      | true => exact ⟨c :: g, l, List.forall_mem_cons.mpr ⟨hc, hg⟩, hl, rfl⟩
      | false => exact ⟨[], (c, g) :: l, by simp, List.forall_mem_cons.mpr ⟨⟨hc, hg⟩, hl⟩, rfl⟩

/-- The words stay exactly when no spaces vanish, except behind the last letter. -/
lemma words_source_eq_iff {f : List α → List α}
    (hf : ∀ g, (∀ c ∈ g, isSpace c) → ∀ c ∈ f g, isSpace c) (hnil : f [] = [])
    (l : List (α × List α)) (hl : Reads isSpace l) :
    words isSpace (source f l) = words isSpace (source id l) ↔
      ∀ p ∈ l.dropLast, f p.2 = [] → p.2 = [] := by
  induction l with
  | nil => simp
  | cons p l ih =>
      obtain ⟨c, g⟩ := p
      obtain ⟨⟨hc, hg⟩, hl'⟩ := List.forall_mem_cons.mp hl
      dsimp only at hc hg
      cases l with
      | nil =>
          -- what is behind the last letter does not matter
          have hlast : ∀ h : List α, (∀ x ∈ h, isSpace x) → words isSpace (c :: h) = [[c]] := by
            intro h hh
            by_cases hne : h = []
            · rw [hne, words_singleton hc]
            · have hword := words_letter_spaces hc hh hne []
              rwa [List.append_nil] at hword
          simp [hlast g hg, hlast (f g) (hf g hg)]
      | cons q l =>
          obtain ⟨d, h⟩ := q
          have hd : isSpace d = false := (hl' _ List.mem_cons_self).1
          rw [List.dropLast_cons_cons, List.forall_mem_cons, ← ih hl']
          exact words_gap_eq_iff hc hd hg (hf g hg) fun hgnil : g = [] => by rw [hgnil, hnil]

/-! ## Rewriting the spaces -/

/-- Only spaces are rewritten, and each gap on its own. -/
structure Gapwise (isSpace : α → Bool) (f : List α → List α) : Prop where
  spaces : ∀ g, (∀ c ∈ g, isSpace c) → ∀ c ∈ f g, isSpace c
  nil : f [] = []
  split : ∀ a c b, isSpace c = false → f (a ++ c :: b) = f a ++ c :: f b

/-- The spaces between two words of a text. -/
def IsGap (isSpace : α → Bool) (t g : List α) : Prop :=
  g ≠ [] ∧ (∀ c ∈ g, isSpace c) ∧ ∃ a x y b, isSpace x = false ∧ isSpace y = false ∧
    t = a ++ x :: (g ++ y :: b)

namespace Gapwise

variable {f f' : List α → List α}

lemma comp (h : Gapwise isSpace f) (h' : Gapwise isSpace f') :
    Gapwise isSpace fun t => f' (f t) where
  spaces g hg := h'.spaces _ (h.spaces g hg)
  nil := by rw [h.nil, h'.nil]
  split a c b hc := by rw [h.split a c b hc, h'.split _ c _ hc]

/-- A reading of a text reads the rewritten one. -/
lemma source_eq (h : Gapwise isSpace f) (l : List (α × List α)) :
    ∀ g, Reads isSpace l → f (g ++ source id l) = f g ++ source f l := by
  induction l with
  | nil => simp
  | cons p l ih =>
      intro g hl
      obtain ⟨hp, hl⟩ := List.forall_mem_cons.mp hl
      rw [source_cons, source_cons, h.split _ _ _ hp.1, id, ih p.2 hl]

/-- **The words are kept exactly when no gap between two words vanishes.** -/
lemma words_eq_iff (h : Gapwise isSpace f) (t : List α) :
    words isSpace (f t) = words isSpace t ↔ ∀ g, IsGap isSpace t g → f g ≠ [] := by
  -- what a reading says, for any reading
  have hread : ∀ g l, (∀ c ∈ g, isSpace c) → Reads isSpace l → t = g ++ source id l →
      (words isSpace (f t) = words isSpace t ↔ ∀ p ∈ l.dropLast, f p.2 = [] → p.2 = []) := by
    rintro g l hg hl rfl
    rw [h.source_eq l g hl, words_spaces_append (h.spaces g hg), words_spaces_append hg,
      words_source_eq_iff h.spaces h.nil l hl]
  constructor
  · rintro hwords g ⟨hne, hg, a, x, y, b, hx, hy, rfl⟩ hvanish
    obtain ⟨ga, la, hga, hla, rfl⟩ := exists_reading isSpace a
    obtain ⟨gb, lb, hgb, hlb, rfl⟩ := exists_reading isSpace b
    have hreads : Reads isSpace (la ++ (x, g) :: (y, gb) :: lb) :=
      List.forall_mem_append.mpr ⟨hla, List.forall_mem_cons.mpr ⟨⟨hx, hg⟩,
        List.forall_mem_cons.mpr ⟨⟨hy, hgb⟩, hlb⟩⟩⟩
    refine hne ((hread ga _ hga hreads (by simp)).mp hwords (x, g) ?_ hvanish)
    rw [List.dropLast_append_of_ne_nil (List.cons_ne_nil _ _), List.dropLast_cons_cons]
    exact List.mem_append_right _ List.mem_cons_self
  · intro hgaps
    obtain ⟨g, l, hg, hl, ht⟩ := exists_reading isSpace t
    refine (hread g l hg hl ht).mpr fun p hp hvanish => ?_
    by_contra hne
    obtain ⟨l₁, l₂, hl₁⟩ := List.append_of_mem hp
    obtain ⟨init, q, rfl⟩ : ∃ init q, l = init ++ [q] :=
      (List.eq_nil_or_concat' l).resolve_left fun hnil => by simp [hnil] at hp
    rw [List.dropLast_concat] at hl₁
    obtain ⟨q', l', hq'⟩ : ∃ q' l', l₂ ++ [q] = q' :: l' := List.exists_cons_of_ne_nil (by simp)
    have hlast : (l₁ ++ p :: l₂) ++ [q] = l₁ ++ p :: q' :: l' := by
      rw [List.append_assoc, List.cons_append, hq']
    rw [hl₁, hlast] at hl ht
    have hmem := List.forall_mem_append.mp hl
    obtain ⟨hpr, hrest⟩ := List.forall_mem_cons.mp hmem.2
    refine hgaps p.2 ⟨hne, hpr.2, g ++ source id l₁, p.1, q'.1, q'.2 ++ source id l', hpr.1,
      (List.forall_mem_cons.mp hrest).1.1, ?_⟩ hvanish
    rw [ht]
    simp

end Gapwise

end Words

end ParrotServe
