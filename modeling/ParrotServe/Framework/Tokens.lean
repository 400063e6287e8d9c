import Mathlib.Data.List.Infix
import Mathlib.Data.List.Basic
import Mathlib.Data.Nat.Find
import Mathlib.Tactic.Lemma

/-!
# Texts with tokens

A template is a text in which some words, the *tokens*, stand for something else.  `tok n` is the
token of a name, and only `valid` names have tokens.  `SelfDelimiting` says that occurrences of
tokens never overlap: no token is a prefix of another, and no proper end of a token runs into
the beginning of one.

Such a text has one reading.  `exists_split` cuts it into segments, a text without tokens and the
token behind it, and a last text.  What a scanner from the left or a replacement does to the text
is then read off the segments: `not_prefix_before` and `not_prefix_inside` say that no token
begins where the segments show none, and `replace_source` is the replacement of one token by a
text, everywhere and from the left.

Nothing in this module refers to the repository being modelled.
-/

namespace ParrotServe

namespace Tokens

variable {α ν : Type*}

/-! ## Tokens that do not overlap -/

/-- Occurrences of tokens never overlap. -/
structure SelfDelimiting (valid : ν → Prop) (tok : ν → List α) : Prop where
  ne_nil : ∀ n, tok n ≠ []
  eq_of_prefix : ∀ {m n}, valid m → valid n → tok m <+: tok n → m = n
  apart : ∀ {m n w y}, valid m → valid n → tok m = w ++ y → w ≠ [] → y ≠ [] →
    ¬ y <+: tok n ∧ ¬ tok n <+: y

/-- A text in which no token occurs. -/
def Free (valid : ν → Prop) (tok : ν → List α) (t : List α) : Prop :=
  ∀ n, valid n → ¬ tok n <:+: t

variable {valid : ν → Prop} {tok : ν → List α} {m n : ν} {t u w x : List α}

lemma free_nil (hd : SelfDelimiting valid tok) : Free valid tok [] :=
  fun n _ h => hd.ne_nil n (List.infix_nil.mp h)

/-- A part of a free text is free. -/
lemma Free.of_part (h : Free valid tok t) (hu : u <:+: t) : Free valid tok u :=
  fun n hn hi => h n hn (hi.trans hu)

namespace SelfDelimiting

variable (hd : SelfDelimiting valid tok)

include hd

/-- No token begins inside a text without it, in front of another token. -/
lemma not_prefix_before (hm : valid m) (hn : valid n) (hw : w ≠ []) (hfree : ¬ tok m <+: w) :
    ¬ tok m <+: w ++ (tok n ++ x) := by
  intro h
  rcases List.prefix_or_prefix_of_prefix h (List.prefix_append w _) with hpre | ⟨y, hy⟩
  · exact hfree hpre
  · have hne : y ≠ [] := by
      rintro rfl
      rw [List.append_nil] at hy
      exact hfree (hy ▸ List.prefix_refl _)
    rw [← hy, List.prefix_append_right_inj] at h
    obtain ⟨h₁, h₂⟩ := hd.apart hm hn hy.symm hw hne
    exact (List.prefix_or_prefix_of_prefix h (List.prefix_append _ x)).elim h₁ h₂

/-- No other token begins where a token does. -/
lemma not_prefix_at (hm : valid m) (hn : valid n) (hne : m ≠ n) : ¬ tok m <+: tok n ++ x := by
  intro h
  rcases List.prefix_or_prefix_of_prefix h (List.prefix_append _ x) with hpre | hpre
  · exact hne (hd.eq_of_prefix hm hn hpre)
  · exact hne (hd.eq_of_prefix hn hm hpre).symm

/-- No token begins inside a token. -/
lemma not_prefix_inside (hm : valid m) (hn : valid n) (hsplit : tok n = u ++ w) (hu : u ≠ [])
    (hw : w ≠ []) : ¬ tok m <+: w ++ x := by
  intro h
  obtain ⟨h₁, h₂⟩ := hd.apart hn hm hsplit hu hw
  exact (List.prefix_or_prefix_of_prefix h (List.prefix_append w x)).elim h₂ h₁

end SelfDelimiting

/-! ## Segments -/

/-- The text of segments: each its own text and then its token. -/
def source (tok : ν → List α) (segs : List (List α × ν)) : List α :=
  segs.flatMap fun s => s.1 ++ tok s.2

@[simp] lemma source_nil : source tok [] = [] := rfl

@[simp] lemma source_cons (s : List α × ν) (segs : List (List α × ν)) :
    source tok (s :: segs) = s.1 ++ (tok s.2 ++ source tok segs) := by
  simp [source]

@[simp] lemma source_append (segs segs' : List (List α × ν)) :
    source tok (segs ++ segs') = source tok segs ++ source tok segs' :=
  List.flatMap_append

/-- Segments that show all tokens of their text. -/
def Clean (valid : ν → Prop) (tok : ν → List α) (segs : List (List α × ν)) : Prop :=
  ∀ s ∈ segs, Free valid tok s.1 ∧ valid s.2

lemma clean_cons {s : List α × ν} {segs : List (List α × ν)} : Clean valid tok (s :: segs) ↔
    (Free valid tok s.1 ∧ valid s.2) ∧ Clean valid tok segs :=
  List.forall_mem_cons

lemma Clean.sublist {segs segs' : List (List α × ν)} (h : Clean valid tok segs)
    (hsub : segs'.Sublist segs) : Clean valid tok segs' :=
  fun s hs => h s (hsub.subset hs)

/-- The first token of a text that has one. -/
lemma exists_first (hd : SelfDelimiting valid tok) (h : ¬ Free valid tok t) :
    ∃ u n v, t = u ++ (tok n ++ v) ∧ Free valid tok u ∧ valid n := by
  have hex : ∃ k, ∃ u n v, t = u ++ (tok n ++ v) ∧ valid n ∧ u.length = k := by
    simp only [Free, not_forall, not_not] at h
    obtain ⟨n, hn, u, v, huv⟩ := h
    exact ⟨_, u, n, v, by rw [← huv, List.append_assoc], hn, rfl⟩
  classical
  obtain ⟨u, n, v, ht, hn, hk⟩ := Nat.find_spec hex
  refine ⟨u, n, v, ht, ?_, hn⟩
  -- a token in the text before it would come first
  rintro m hm ⟨a, b, hab⟩
  refine Nat.find_min hex (m := a.length) ?_ ⟨a, m, b ++ (tok n ++ v), ?_, hm, rfl⟩
  · have hpos := List.length_pos_of_ne_nil (hd.ne_nil m)
    rw [← hk, ← hab, List.length_append, List.length_append]
    omega
  · rw [ht, ← hab]
    simp only [List.append_assoc]

/-- Every text has a clean reading. -/
lemma exists_split (hd : SelfDelimiting valid tok) (t : List α) : ∃ segs last,
    Clean valid tok segs ∧ Free valid tok last ∧ source tok segs ++ last = t := by
  induction hlen : t.length using Nat.strong_induction_on generalizing t with
  | _ k ih =>
      by_cases h : Free valid tok t
      · exact ⟨[], t, fun _ hs => absurd hs List.not_mem_nil, h, rfl⟩
      · obtain ⟨u, n, v, rfl, hu, hn⟩ := exists_first hd h
        have hpos := List.length_pos_of_ne_nil (hd.ne_nil n)
        obtain ⟨segs, last, hsegs, hlast, rfl⟩ := ih v.length (by
          rw [← hlen, List.length_append, List.length_append]
          omega) v rfl
        refine ⟨(u, n) :: segs, last, clean_cons.mpr ⟨⟨hu, hn⟩, hsegs⟩, hlast, ?_⟩
        simp only [source_cons, List.append_assoc]

/-! ## Replacing a word -/

variable [DecidableEq α]

/-- Replace a word from the left, so many characters before the end of the last one. -/
def replaceFrom (old new : List α) : ℕ → List α → List α
  | _, [] => []
  | skip + 1, _ :: rest => replaceFrom old new skip rest
  | 0, c :: rest =>
      if old <+: c :: rest then new ++ replaceFrom old new (old.length - 1) rest
      else c :: replaceFrom old new 0 rest

/-- Replace all occurrences of a word, from the left and without overlap. -/
def replace (old new t : List α) : List α := replaceFrom old new 0 t

variable {old new : List α}

@[simp] lemma replace_nil : replace old new [] = [] := rfl

lemma replaceFrom_skip (u x : List α) :
    replaceFrom old new u.length (u ++ x) = replace old new x := by
  induction u with
  | nil =>
      rw [List.nil_append, List.length_nil]
      rfl
  | cons c u ih => exact ih

/-- A word at the beginning is replaced. -/
lemma replace_self_append (hold : old ≠ []) (x : List α) :
    replace old new (old ++ x) = new ++ replace old new x := by
  obtain ⟨c, rest, rfl⟩ := List.exists_cons_of_ne_nil hold
  have hpre : c :: rest <+: c :: (rest ++ x) := List.prefix_append (c :: rest) x
  rw [List.cons_append, replace, replaceFrom, if_pos hpre]
  exact congrArg _ (replaceFrom_skip rest x)

/-- A text in which the word does not begin is kept. -/
lemma replace_append (x : List α) (t : List α) :
    (∀ u w, t = u ++ w → w ≠ [] → ¬ old <+: w ++ x) →
      replace old new (t ++ x) = t ++ replace old new x := by
  induction t with
  | nil => exact fun _ => rfl
  | cons c t ih =>
      intro h
      have hhead : ¬ old <+: c :: (t ++ x) := h [] (c :: t) rfl (List.cons_ne_nil c t)
      rw [List.cons_append, replace, replaceFrom, if_neg hhead]
      refine congrArg (c :: ·) (ih fun u w ht hw => ?_)
      exact h (c :: u) w (by rw [ht, List.cons_append]) hw

/-- A text in which the word does not occur is kept. -/
lemma replace_of_absent (h : ¬ old <:+: t) : replace old new t = t := by
  have hkeep : replace old new (t ++ []) = t ++ replace old new [] :=
    replace_append [] t fun u w ht _ hpre => by
      rw [List.append_nil] at hpre
      exact h (ht ▸ hpre.isInfix.trans (List.suffix_append u w).isInfix)
  rwa [List.append_nil, replace_nil, List.append_nil] at hkeep

variable [DecidableEq ν]

/-- The replacement of a token replaces the token in the segments. -/
lemma replace_source (hd : SelfDelimiting valid tok) (hm : valid m) (x : List α)
    (segs : List (List α × ν)) (hsegs : ∀ s ∈ segs, ¬ tok m <:+: s.1 ∧ valid s.2) :
    replace (tok m) new (source tok segs ++ x) =
      (segs.flatMap fun s => s.1 ++ if s.2 = m then new else tok s.2) ++
        replace (tok m) new x := by
  induction segs with
  | nil => rfl
  | cons s segs ih =>
      obtain ⟨t, n⟩ := s
      obtain ⟨⟨hfree, hn⟩, hrest⟩ := List.forall_mem_cons.mp hsegs
      have htext : replace (tok m) new (t ++ (tok n ++ (source tok segs ++ x))) =
          t ++ replace (tok m) new (tok n ++ (source tok segs ++ x)) :=
        replace_append _ _ fun u w ht hw => hd.not_prefix_before hm hn hw fun hpre =>
          hfree (ht ▸ hpre.isInfix.trans (List.suffix_append u w).isInfix)
      have htok : replace (tok m) new (tok n ++ (source tok segs ++ x)) =
          (if n = m then new else tok n) ++ replace (tok m) new (source tok segs ++ x) := by
        split_ifs with he
        · rw [he]
          exact replace_self_append (hd.ne_nil m) _
        · refine replace_append _ _ fun u w ht hw => ?_
          by_cases hu : u = []
          · rw [hu, List.nil_append] at ht
            rw [← ht]
            exact hd.not_prefix_at hm hn (Ne.symm he)
          · exact hd.not_prefix_inside hm hn ht hu hw
      rw [source_cons, List.append_assoc, List.append_assoc, htext, htok, ih hrest]
      simp only [List.flatMap_cons, List.append_assoc]

end Tokens

end ParrotServe
