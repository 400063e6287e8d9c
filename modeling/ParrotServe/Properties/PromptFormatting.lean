import ParrotServe.Framework.Repetitions
import ParrotServe.Framework.Words
import ParrotServe.Properties.FunctionTransforms

/-!
# The standard formatter

What `standard_formatter` does to a text is read in three steps (`standardText_eq`): the tabs go and
every run of spaces loses its multiple of four, a newline becomes a space, and a run of `n` spaces
gets the length `squeeze spaceCounts n`.

The first step is meant for indents and does not look where the spaces stand.  A gap between two
words that is only tabs and spaces, with a number of spaces that is a multiple of four, is gone, and
the words are one.  These gaps are the only ones: `standardFormatter_keeps_words_iff`.

The last step replaces sixteen spaces, then fifteen, down to two.  A pass makes a long run about `i`
times shorter, so that up to a bound, which is far above `2 ^ 32`, at most one space is left.  The
text is then normal, and a normal text is not touched again: `standardFormatter_normal`.
-/

namespace ParrotServe

namespace PFunc

open Tokens Words

/-! ## The three steps -/

/-- The length of a run of spaces after `AlwaysOneSpace`. -/
def squeeze (counts : List ℕ) (n : ℕ) : ℕ := counts.foldl (fun n i => n / i + n % i) n

/-- The text in one line, without indents. -/
def joinedText (t : Text) : Text :=
  (mapRuns ' ' (· % 4) 0 (t.filter (· ≠ '\t'))).map fun c => if c = '\n' then ' ' else c

lemma formatText_counts (counts : List ℕ) (hpos : ∀ i ∈ counts, 0 < i) (t : Text) :
    formatText (counts.map fun i => (List.replicate i ' ', [' '])) t =
      mapRuns ' ' (squeeze counts) 0 t := by
  induction counts generalizing t with
  | nil => exact (mapRuns_id ' ' t 0).symm
  | cons i counts ih =>
      have hpass : replace (List.replicate i ' ') [' '] t =
          mapRuns ' ' (fun n => n / i * 1 + n % i) 0 t :=
        replace_replicate (hpos i List.mem_cons_self) 1 t 0
      have hrest := ih (fun j hj => hpos j (List.mem_cons_of_mem i hj))
        (replace (List.replicate i ' ') [' '] t)
      calc formatText ((i :: counts).map fun i => (List.replicate i ' ', [' '])) t
          = mapRuns ' ' (squeeze counts) 0 (replace (List.replicate i ' ') [' '] t) := hrest
        _ = mapRuns ' ' (fun n => squeeze counts (n / i * 1 + n % i)) 0 t := by
            rw [hpass, mapRuns_mapRuns]
        _ = mapRuns ' ' (squeeze (i :: counts)) 0 t := by
            simp only [Nat.mul_one]
            rfl

lemma formatText_joined (t : Text) :
    formatText [(['\n'], [' '])] (formatText pyIndents t) = joinedText t := by
  have htab : replace ['\t'] [] t = t.filter (· ≠ '\t') := by
    rw [replace_singleton]
    induction t with
    | nil => rfl
    | cons c t ih =>
        rw [List.flatMap_cons, ih]
        by_cases hc : c = '\t' <;> simp [hc]
  have hspaces : ∀ u : Text, replace [' ', ' ', ' ', ' '] [] u = mapRuns ' ' (· % 4) 0 u := by
    intro u
    have h := replace_replicate (b := ' ') (k := 4) (by omega) 0 u 0
    simpa using h
  have hline : ∀ u : Text, replace ['\n'] [' '] u = u.map fun c => if c = '\n' then ' ' else c := by
    intro u
    rw [replace_singleton, List.map_eq_flatMap]
    refine List.flatMap_congr fun c _ => ?_
    split_ifs <;> rfl
  rw [joinedText, ← htab, ← hspaces, ← hline]
  rfl

/-- The formatter, read in three steps. -/
lemma standardText_eq (t : Text) :
    standardText t = mapRuns ' ' (squeeze spaceCounts) 0 (joinedText t) := by
  rw [standardText, formatText_joined, formatText_counts spaceCounts (by decide)]

/-! ## Words -/

/-- White space, as `str.split` and `str.isspace` have it. -/
def isSpace (c : Char) : Bool :=
  c.toNat ∈ [0x85, 0xA0, 0x1680, 0x2028, 0x2029, 0x202F, 0x205F, 0x3000] ∨
    0x09 ≤ c.toNat ∧ c.toNat ≤ 0x0D ∨ 0x1C ≤ c.toNat ∧ c.toNat ≤ 0x20 ∨
      0x2000 ≤ c.toNat ∧ c.toNat ≤ 0x200A

/-- A replacement of spaces by spaces. -/
lemma gapwise_replace {old new : Text} (hne : old ≠ []) (hold : ∀ c ∈ old, isSpace c)
    (hnew : ∀ c ∈ new, isSpace c) : Gapwise isSpace (replace old new) where
  spaces g hg c hc := (mem_replace hc).elim (hnew c) (hg c)
  nil := replace_nil
  split a c b hc := replace_append_cons hne (fun hmem => by simp [hold c hmem] at hc) a b

lemma gapwise_formatText {pairs : List (Text × Text)}
    (h : ∀ p ∈ pairs, p.1 ≠ [] ∧ (∀ c ∈ p.1, isSpace c) ∧ ∀ c ∈ p.2, isSpace c) :
    Gapwise isSpace (formatText pairs) := by
  induction pairs with
  | nil => exact ⟨fun _ hg => hg, rfl, fun _ _ _ _ => rfl⟩
  | cons p pairs ih =>
      obtain ⟨⟨hne, hold, hnew⟩, hpairs⟩ := List.forall_mem_cons.mp h
      exact (gapwise_replace hne hold hnew).comp (ih hpairs)

/-- The formatter only changes white space. -/
lemma gapwise_standardText : Gapwise isSpace standardText := by
  have hspace : isSpace ' ' = true := by decide
  refine ((gapwise_formatText ?_).comp (gapwise_formatText ?_)).comp (gapwise_formatText ?_)
  · simp [isSpace, pyIndents]
  · simp [isSpace]
  · intro p hp
    obtain ⟨i, hi, rfl⟩ := List.mem_map.mp hp
    refine ⟨?_, fun c hc => List.eq_of_mem_replicate hc ▸ hspace, by simp [hspace]⟩
    rw [Ne, List.replicate_eq_nil_iff]
    rintro rfl
    exact absurd hi (by decide)

/-- White space that the indent remover takes for indents. -/
def IndentsOnly (g : Text) : Prop := (∀ c ∈ g, c = '\t' ∨ c = ' ') ∧ 4 ∣ g.count ' '

lemma squeeze_eq_zero {counts : List ℕ} (hpos : ∀ i ∈ counts, 0 < i) :
    ∀ {n}, squeeze counts n = 0 ↔ n = 0 := by
  induction counts with
  | nil => exact Iff.rfl
  | cons i counts ih =>
      intro n
      have hrest := ih (fun j hj => hpos j (List.mem_cons_of_mem i hj)) (n := n / i + n % i)
      refine hrest.trans ⟨fun h => ?_, fun h => by rw [h]; simp⟩
      have hdiv := Nat.div_add_mod n i
      rw [(Nat.add_eq_zero_iff.mp h).1, (Nat.add_eq_zero_iff.mp h).2] at hdiv
      simpa using hdiv.symm

/-- Nothing is left of indents, and something of every other text. -/
lemma standardText_eq_nil (g : Text) : standardText g = [] ↔ IndentsOnly g := by
  have htabs : (∀ c ∈ g.filter (· ≠ '\t'), c = ' ') ↔ ∀ c ∈ g, c = '\t' ∨ c = ' ' := by
    simp [List.mem_filter, or_iff_not_imp_left]
  have hcount : (∀ c ∈ g.filter (· ≠ '\t'), c = ' ') →
      (g.filter (· ≠ '\t')).length = g.count ' ' := by
    intro h
    rw [← List.count_eq_length.mpr fun c hc => (h c hc).symm, List.count_filter (by decide)]
  have hjoined : standardText g = [] ↔ joinedText g = [] := by
    rw [standardText_eq, mapRuns_eq_nil, squeeze_eq_zero (by decide), Nat.zero_add,
      List.length_eq_zero_iff]
    exact ⟨fun h => h.2, fun h => ⟨by simp [h], h⟩⟩
  rw [hjoined, joinedText, List.map_eq_nil_iff, mapRuns_eq_nil, Nat.zero_add, htabs, IndentsOnly,
    Nat.dvd_iff_mod_eq_zero]
  exact and_congr_right fun h => by rw [hcount (htabs.mpr h)]

/-- Two pieces with the same words. -/
def FuncBodyPiece.SameWords : FuncBodyPiece → FuncBodyPiece → Prop
  | .constant idx text, .constant idx' text' =>
      idx' = idx ∧ words isSpace text' = words isSpace text
  | piece, piece' => piece' = piece

/-- **The words of a prompt are kept unless a gap between two of them is taken for indents.** -/
theorem standardFormatter_keeps_words_iff (f : SemanticFunction) (hf : f.Declared) :
    (∃ g, standardFormatter f = .ok g ∧ List.Forall₂ FuncBodyPiece.SameWords f.body g.body) ↔
      ∀ idx text, .constant idx text ∈ f.body →
        ∀ gap, IsGap isSpace text gap → ¬ IndentsOnly gap := by
  have hwords : ∀ text, words isSpace (standardText text) = words isSpace text ↔
      ∀ gap, IsGap isSpace text gap → ¬ IndentsOnly gap := by
    intro text
    rw [gapwise_standardText.words_eq_iff text]
    exact forall₂_congr fun gap _ => not_congr (standardText_eq_nil gap)
  have hpiece : ∀ piece : FuncBodyPiece, piece.SameWords (piece.mapText standardText) ↔
      ∀ idx text, piece = .constant idx text →
        ∀ gap, IsGap isSpace text gap → ¬ IndentsOnly gap := by
    intro piece
    cases piece with
    | constant idx text =>
        rw [FuncBodyPiece.mapText, FuncBodyPiece.SameWords, and_iff_right rfl, hwords]
        simp
    | parameterLoc idx param => simp [FuncBodyPiece.mapText, FuncBodyPiece.SameWords]
  constructor
  · rintro ⟨g, hg, hsame⟩ idx text hmem
    rw [standardFormatter_eq hf] at hg
    obtain rfl := Except.ok.inj hg
    rw [SemanticFunction.mapText, List.forall₂_map_right_iff, List.forall₂_same] at hsame
    exact (hpiece _).mp (hsame _ hmem) idx text rfl
  · intro hgaps
    refine ⟨_, standardFormatter_eq hf, ?_⟩
    rw [SemanticFunction.mapText, List.forall₂_map_right_iff, List.forall₂_same]
    exact fun piece hmem => (hpiece piece).mpr fun idx text heq => hgaps idx text (heq ▸ hmem)

/-- A function that asks for an output. -/
def asking (text : Text) : SemanticFunction where
  name := ['f']
  params := [{ name := ['c'], typ := .outputLoc }]
  metadata := {}
  body := [.constant 0 text, .parameterLoc 1 { name := ['c'], typ := .outputLoc }]

lemma asking_declared (text : Text) : (asking text).Declared := by
  intro idx param hmem
  simp only [asking, List.mem_cons, reduceCtorEq, List.not_mem_nil, or_false, false_or,
    FuncBodyPiece.parameterLoc.injEq] at hmem
  rw [hmem.2]
  rfl

/-- A tab between two words makes them one. -/
theorem standardFormatter_joins_words :
    SemanticFunction.ofBodyStr ['f'] (asking []).params "a\tb\x7b\x7bc\x7d\x7d".toList {} =
        .ok (asking "a\tb".toList) ∧
      standardFormatter (asking "a\tb".toList) = .ok (asking "ab".toList) ∧
      ¬ List.Forall₂ FuncBodyPiece.SameWords (asking "a\tb".toList).body
        (asking "ab".toList).body := by
  refine ⟨rfl, rfl, fun h => ?_⟩
  cases h with
  | cons h _ => exact absurd h.2 (by decide)

/-- Four spaces between two words. -/
theorem standardFormatter_joins_sentences :
    ¬ ∃ g, standardFormatter (asking "function.    It ".toList) = .ok g ∧
      List.Forall₂ FuncBodyPiece.SameWords (asking "function.    It ".toList).body g.body := by
  intro h
  refine (standardFormatter_keeps_words_iff _ (asking_declared _)).mp h 0 _ List.mem_cons_self
    "    ".toList ?_ ⟨by simp, by decide⟩
  exact ⟨by decide, by simp [isSpace], "function".toList, '.', 'I', "t ".toList, by decide,
    by decide, by decide⟩

/-! ## Normal texts -/

/-- A text that the formatter leaves alone. -/
structure NormalText (t : Text) : Prop where
  no_tab : '\t' ∉ t
  no_newline : '\n' ∉ t
  one_space : t.IsChain fun x y => ¬(x = ' ' ∧ y = ' ')

/-- One pass makes a run this much shorter. -/
lemma pass_le {i n m : ℕ} (hi : 2 ≤ i) (him : i ≤ m + 2) (hn : n ≤ i * (m + 2 - i) + (i - 2)) :
    n / i + n % i ≤ m := by
  obtain ⟨k, hk⟩ := Nat.exists_eq_add_of_le him
  have hdiv := Nat.div_add_mod n i
  have hmod := Nat.mod_lt n (show 0 < i by omega)
  rw [hk, Nat.add_sub_cancel_left] at hn
  by_contra hlt
  have hle : k ≤ n / i := by omega
  rcases Nat.eq_or_lt_of_le hle with heq | hgt
  · rw [← heq] at hdiv hlt
    omega
  · have hmul : i * (k + 1) ≤ i * (n / i) := Nat.mul_le_mul_left i hgt
    rw [Nat.mul_succ] at hmul
    omega

/-- Runs of up to this length are squeezed to at most one space. -/
def reach : List ℕ → ℕ
  | [] => 1
  | i :: counts =>
      if i ≤ reach counts + 2 then i * (reach counts + 2 - i) + (i - 2) else reach counts

lemma squeeze_le_one {counts : List ℕ} (hcounts : ∀ i ∈ counts, 2 ≤ i) :
    ∀ {n}, n ≤ reach counts → squeeze counts n ≤ 1 := by
  induction counts with
  | nil => exact fun h => h
  | cons i counts ih =>
      intro n hn
      obtain ⟨hi, hrest⟩ := List.forall_mem_cons.mp hcounts
      refine ih hrest (n := n / i + n % i) ?_
      rw [reach] at hn
      split_ifs at hn with him
      · exact pass_le hi him hn
      · rw [Nat.div_eq_of_lt (by omega), Nat.mod_eq_of_lt (by omega)]
        omega

/-- The last spaces are squeezed out of runs of fewer than `2 ^ 32`. -/
lemma squeeze_spaceCounts_le {n : ℕ} (hn : n < 2 ^ 32) : squeeze spaceCounts n ≤ 1 :=
  squeeze_le_one (by decide) (hn.le.trans (by decide))

lemma length_joinedText_le (t : Text) : (joinedText t).length ≤ t.length := by
  have hruns := length_mapRuns_le (b := ' ') (fun n => Nat.mod_le n 4) (t.filter (· ≠ '\t')) 0
  have hfilter := List.length_filter_le (· ≠ '\t') t
  rw [joinedText, List.length_map]
  omega

/-- A character that is no space comes from the text. -/
lemma mem_joinedText {c : Char} {t : Text} (hc : c ≠ ' ') (h : c ∈ joinedText t) :
    c ∈ t ∧ c ≠ '\t' ∧ c ≠ '\n' := by
  obtain ⟨d, hd, heq⟩ := List.mem_map.mp h
  split_ifs at heq with hline
  · exact absurd heq.symm hc
  · rw [heq] at hd hline
    rw [mem_mapRuns_of_ne hc, List.mem_filter] at hd
    exact ⟨hd.1, by simpa using hd.2, hline⟩

lemma standardText_normal {t : Text} (ht : t.length < 2 ^ 32) : NormalText (standardText t) := by
  have hlen := length_joinedText_le t
  rw [standardText_eq]
  refine ⟨fun h => ?_, fun h => ?_, isChain_mapRuns _ fun k hk => ?_⟩
  · rw [mem_mapRuns_of_ne (by decide)] at h
    exact (mem_joinedText (by decide) h).2.1 rfl
  · rw [mem_mapRuns_of_ne (by decide)] at h
    exact (mem_joinedText (by decide) h).2.2 rfl
  · exact squeeze_spaceCounts_le (by omega)

/-- Replacements of words that do not occur. -/
lemma formatText_of_absent {pairs : List (Text × Text)} {t : Text}
    (h : ∀ p ∈ pairs, ¬ p.1 <:+: t) : formatText pairs t = t := by
  induction pairs with
  | nil => rfl
  | cons p pairs ih =>
      obtain ⟨hp, hpairs⟩ := List.forall_mem_cons.mp h
      have hfirst : replace p.1 p.2 t = t := replace_of_absent hp
      calc formatText (p :: pairs) t = formatText pairs (replace p.1 p.2 t) := rfl
        _ = t := by rw [hfirst, ih hpairs]

namespace NormalText

variable {t : Text}

lemma not_infix_replicate (h : NormalText t) {i : ℕ} (hi : 2 ≤ i) :
    ¬ List.replicate i ' ' <:+: t := by
  obtain ⟨k, rfl⟩ := Nat.exists_eq_add_of_le hi
  intro hinfix
  have hchain := h.one_space.infix hinfix
  rw [Nat.add_comm, List.replicate_succ, List.replicate_succ, List.isChain_cons_cons] at hchain
  exact hchain.1 ⟨rfl, rfl⟩

/-- A normal text is not touched. -/
lemma standardText_eq_self (h : NormalText t) : standardText t = t := by
  have hindents : formatText pyIndents t = t :=
    formatText_of_absent (List.forall_mem_cons.mpr
      ⟨fun hi => h.no_tab (hi.subset List.mem_cons_self), List.forall_mem_singleton.mpr
        (h.not_infix_replicate (i := 4) (by omega))⟩)
  have hlines : formatText [(['\n'], [' '])] t = t :=
    formatText_of_absent (List.forall_mem_singleton.mpr
      fun hi => h.no_newline (hi.subset List.mem_cons_self))
  rw [standardText, hindents, hlines]
  refine formatText_of_absent fun p hp => ?_
  obtain ⟨i, hi, rfl⟩ := List.mem_map.mp hp
  have htwo : ∀ i ∈ spaceCounts, 2 ≤ i := by decide
  exact h.not_infix_replicate (htwo i hi)

end NormalText

/-- The location of a piece. -/
def FuncBodyPiece.loc? : FuncBodyPiece → Option (ℕ × Parameter)
  | .constant _ _ => none
  | .parameterLoc idx param => some (idx, param)

/-- The texts do not matter for the locations. -/
lemma SemanticFunction.locations_mapText (f : SemanticFunction) (h : Text → Text) :
    (f.mapText h).body.filterMap FuncBodyPiece.loc? = f.body.filterMap FuncBodyPiece.loc? := by
  rw [SemanticFunction.mapText, List.filterMap_map]
  refine List.filterMap_congr fun piece _ => ?_
  cases piece <;> rfl

/-- **The formatter reaches a normal form, where it stays.** -/
theorem standardFormatter_normal (f : SemanticFunction) (hf : f.Declared)
    (hlen : ∀ idx text, .constant idx text ∈ f.body → text.length < 2 ^ 32) :
    ∃ g, standardFormatter f = .ok g ∧
      (∀ idx text, .constant idx text ∈ g.body → NormalText text) ∧
      standardFormatter g = .ok g ∧
      g.body.filterMap FuncBodyPiece.loc? = f.body.filterMap FuncBodyPiece.loc? := by
  have hnormal : ∀ idx text, .constant idx text ∈ (f.mapText standardText).body →
      NormalText text := by
    intro idx text hmem
    obtain ⟨source, hsource, htext⟩ := mem_mapText_constant.mp hmem
    rw [htext]
    exact standardText_normal (hlen idx source hsource)
  refine ⟨_, standardFormatter_eq hf, hnormal, ?_, ?_⟩
  · rw [standardFormatter_eq (hf.mapText standardText), SemanticFunction.mapText_eq_self]
    exact fun idx text hmem => (hnormal idx text hmem).standardText_eq_self
  · exact f.locations_mapText standardText

/-- Tabs, newlines and a run of seven spaces. -/
theorem standardFormatter_normal_at :
    ∃ g, standardFormatter (asking "\t\tTell       me\n\n \t".toList) = .ok g ∧
      (∀ idx text, .constant idx text ∈ g.body → NormalText text) ∧
      standardFormatter g = .ok g ∧
      g.body.filterMap FuncBodyPiece.loc? =
        (asking "\t\tTell       me\n\n \t".toList).body.filterMap FuncBodyPiece.loc? := by
  refine standardFormatter_normal _ (asking_declared _) fun idx text hmem => ?_
  simp only [asking, List.mem_cons, FuncBodyPiece.constant.injEq, reduceCtorEq, List.not_mem_nil,
    or_false] at hmem
  rw [hmem.2]
  decide

end PFunc

end ParrotServe
