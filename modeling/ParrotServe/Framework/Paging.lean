import Mathlib.Data.List.Basic
import Mathlib.Data.List.Nodup
import Mathlib.Data.Set.Basic
import Mathlib.Tactic.Ring

/-!
# Paged sequences

A paged sequence stores position `i` of a growing sequence in the slot
`page i * k + i % k`, where `page i` is the page the position falls in and `k` is the page
size.  The two lists that represent it record the page *of every position* and the slot of
every position, so a page of `k` positions occurs `k` times.

`stride k l` is the list `l[::k]`; on a paged sequence it recovers each page once
(`Paged.mem_stride`, `Paged.nodup_stride`).  `Paged` is the representation invariant of one
sequence, with the two ways of growing it by a position (`Paged.snoc_new`, which opens a page,
and `Paged.snoc_same`, which continues the last one).  `Addressed` is the weaker statement a
page *table* needs: the slot of a position is read off the strided page list.  It survives
concatenation when the first part has a length divisible by `k` (`Addressed.append`), and that
divisibility is all it needs.

`newPages` counts the pages that a sequence opens when it grows.

Nothing in this module refers to the repository being modelled.
-/

namespace ParrotServe

variable {α : Type*}

/-! ## Strided lists -/

/-- `strideAux k n l` skips `n` entries, then keeps one entry out of every `k`. -/
def strideAux (k : ℕ) : ℕ → List α → List α
  | _, [] => []
  | 0, x :: xs => x :: strideAux k (k - 1) xs
  | n + 1, _ :: xs => strideAux k n xs

/-- The list `l[::k]`: the entries at positions `0, k, 2k, …`. -/
def stride (k : ℕ) (l : List α) : List α := strideAux k 0 l

lemma strideAux_getElem? {k : ℕ} (hk : 0 < k) (l : List α) :
    ∀ n i, (strideAux k n l)[i]? = l[n + i * k]? := by
  induction l with
  | nil => intro n i; simp [strideAux]
  | cons x xs ih =>
      intro n i
      cases n with
      | succ n =>
          have hidx : n + 1 + i * k = (n + i * k) + 1 := by omega
          rw [strideAux, ih, hidx, List.getElem?_cons_succ]
      | zero =>
          cases i with
          | zero => simp [strideAux]
          | succ i =>
              have hidx : 0 + (i + 1) * k = (k - 1 + i * k) + 1 := by
                rw [Nat.succ_mul]
                omega
              rw [strideAux, List.getElem?_cons_succ, ih, hidx, List.getElem?_cons_succ]

lemma stride_getElem? {k : ℕ} (hk : 0 < k) (l : List α) (i : ℕ) :
    (stride k l)[i]? = l[i * k]? := by
  rw [stride, strideAux_getElem? hk, Nat.zero_add]

lemma mem_of_mem_strideAux {k : ℕ} {x : α} (l : List α) : ∀ n, x ∈ strideAux k n l → x ∈ l := by
  induction l with
  | nil => exact fun n h => by cases h
  | cons y ys ih =>
      intro n h
      cases n with
      | zero =>
          rcases List.mem_cons.mp h with rfl | h
          · exact List.mem_cons_self
          · exact List.mem_cons_of_mem _ (ih _ h)
      | succ n => exact List.mem_cons_of_mem _ (ih _ h)

lemma lt_length_stride {k : ℕ} (hk : 0 < k) (l : List α) (i : ℕ) :
    i < (stride k l).length ↔ i * k < l.length := by
  have h := stride_getElem? hk l i
  have h1 : (stride k l).length ≤ i ↔ l.length ≤ i * k := by
    rw [← List.getElem?_eq_none_iff, ← List.getElem?_eq_none_iff, h]
  omega

lemma length_stride_of_dvd {k m : ℕ} (hk : 0 < k) {l : List α} (h : l.length = k * m) :
    (stride k l).length = m := by
  have key : ∀ i, i < (stride k l).length ↔ i < m := by
    intro i
    rw [lt_length_stride hk, h, Nat.mul_comm k m]
    exact Nat.mul_lt_mul_right hk
  have h1 := key (stride k l).length
  have h2 := key m
  omega

/-- Striding distributes over a concatenation whose first part ends on a page boundary. -/
lemma stride_append {k : ℕ} (hk : 0 < k) {l₁ : List α} (h : k ∣ l₁.length) (l₂ : List α) :
    stride k (l₁ ++ l₂) = stride k l₁ ++ stride k l₂ := by
  obtain ⟨m, hm⟩ := h
  have hlen := length_stride_of_dvd hk hm
  refine List.ext_getElem? fun i => ?_
  rw [stride_getElem? hk]
  rcases Nat.lt_or_ge i m with hi | hi
  · have hik : i * k < l₁.length := by
      rw [hm, Nat.mul_comm k m]
      exact Nat.mul_lt_mul_of_pos_right hi hk
    rw [List.getElem?_append_left hik, List.getElem?_append_left (by omega), stride_getElem? hk]
  · have hik : l₁.length ≤ i * k := by
      rw [hm, Nat.mul_comm k m]
      exact Nat.mul_le_mul_right k hi
    rw [List.getElem?_append_right hik, List.getElem?_append_right (by omega),
      stride_getElem? hk, hlen, hm, Nat.mul_comm k m, Nat.sub_mul]

/-- The entries of a list extended by one. -/
lemma getElem?_concat_cases {l : List α} {x y : α} {n : ℕ} (h : (l ++ [x])[n]? = some y) :
    (n < l.length ∧ l[n]? = some y) ∨ (n = l.length ∧ y = x) := by
  rw [List.getElem?_append] at h
  split at h
  · exact .inl ⟨‹_›, h⟩
  · rw [List.getElem?_singleton] at h
    split at h
    · exact .inr ⟨by omega, by simpa using h.symm⟩
    · simp at h

/-! ## The representation invariant -/

/-- `pages` and `slots` represent a paged sequence with page size `k`: both have one entry per
position, the slot of a position is its offset inside its page, and two positions lie in the
same page exactly when they fall in the same group of `k`. -/
structure Paged (k : ℕ) (pages slots : List ℕ) : Prop where
  /-- The slot of a position, and equality of the two lengths. -/
  slot : ∀ i, slots[i]? = pages[i]?.map fun b => b * k + i % k
  /-- Pages are constant on each group of `k` positions and different between groups. -/
  page : ∀ i j a b, pages[i]? = some a → pages[j]? = some b → (a = b ↔ i / k = j / k)

namespace Paged

variable {k : ℕ} {pages slots : List ℕ}

lemma nil (k : ℕ) : Paged k [] [] where
  slot i := by simp
  page i j a b hi := by simp at hi

lemma length_eq (h : Paged k pages slots) : slots.length = pages.length := by
  have h1 := h.slot slots.length
  have h2 := h.slot pages.length
  simp only [List.getElem?_eq_none (Nat.le_refl _)] at h1 h2
  have h3 : pages.length ≤ slots.length := by
    simpa [List.getElem?_eq_none_iff] using h1.symm
  have h4 : slots.length ≤ pages.length := by
    simpa [List.getElem?_eq_none_iff] using h2
  omega

lemma slot_eq (h : Paged k pages slots) {i s : ℕ} (hs : slots[i]? = some s) :
    ∃ b, pages[i]? = some b ∧ s = b * k + i % k := by
  rw [h.slot i] at hs
  obtain ⟨b, hb, rfl⟩ := Option.map_eq_some_iff.mp hs
  exact ⟨b, hb, rfl⟩

/-- A slot determines the page it lies in. -/
lemma slot_div (h : Paged k pages slots) (hk : 0 < k) {i s : ℕ} (hs : slots[i]? = some s) :
    pages[i]? = some (s / k) := by
  obtain ⟨b, hb, rfl⟩ := h.slot_eq hs
  rw [hb, Nat.mul_comm, Nat.mul_add_div hk, Nat.div_eq_of_lt (Nat.mod_lt _ hk), Nat.add_zero]

lemma mem_of_mem_slots (h : Paged k pages slots) (hk : 0 < k) {s : ℕ} (hs : s ∈ slots) :
    s / k ∈ pages := by
  obtain ⟨i, hi⟩ := List.mem_iff_getElem?.mp hs
  exact List.mem_iff_getElem?.mpr ⟨i, h.slot_div hk hi⟩

/-- With pages of one position, pages and slots coincide. -/
lemma eq_of_one (h : Paged 1 pages slots) : slots = pages := by
  refine List.ext_getElem? fun i => ?_
  rw [h.slot i, Nat.mod_one]
  simp

/-- Different positions have different slots. -/
lemma nodup_slots (h : Paged k pages slots) (hk : 0 < k) : slots.Nodup := by
  rw [List.nodup_iff_getElem?_ne_getElem?]
  intro i j hij hj heq
  obtain ⟨s, hs⟩ : ∃ s, slots[j]? = some s := ⟨slots[j], List.getElem?_eq_getElem hj⟩
  rw [hs] at heq
  have hgroup := (h.page i j _ _ (h.slot_div hk heq) (h.slot_div hk hs)).mp rfl
  obtain ⟨a, ha, hsa⟩ := h.slot_eq heq
  obtain ⟨b, hb, hsb⟩ := h.slot_eq hs
  have hab : a = b := (h.page i j a b ha hb).mpr hgroup
  have hmod : i % k = j % k := by
    subst hab
    omega
  have hi := Nat.div_add_mod i k
  have hj' := Nat.div_add_mod j k
  rw [hgroup, hmod] at hi
  omega

/-- Sequences on disjoint sets of pages have disjoint slots. -/
lemma disjoint_slots {pages' slots' : List ℕ} (h : Paged k pages slots)
    (h' : Paged k pages' slots') (hk : 0 < k)
    (hd : List.Disjoint pages pages') :
    List.Disjoint slots slots' := fun _ hs hs' =>
  hd (h.mem_of_mem_slots hk hs) (h'.mem_of_mem_slots hk hs')

/-- Growing by a position at a page boundary opens a new page. -/
lemma snoc_new (h : Paged k pages slots) {b : ℕ} (hb : b ∉ pages)
    (hlen : pages.length % k = 0) : Paged k (pages ++ [b]) (slots ++ [b * k]) where
  slot i := by
    rw [List.getElem?_append, List.getElem?_append, h.length_eq]
    split
    · exact h.slot i
    · rename_i hi
      rcases Nat.lt_or_ge pages.length i with hgt | hle
      · simp [List.getElem?_eq_none (l := [b]) (i := i - pages.length) (by simp; omega),
          List.getElem?_eq_none (l := [b * k]) (i := i - pages.length) (by simp; omega)]
      · have : i = pages.length := by omega
        subst this
        simp [hlen]
  page i j a c hi hj := by
    have hmem : ∀ n x, pages[n]? = some x → x ≠ b := fun n x hx hxb =>
      hb (hxb ▸ List.mem_iff_getElem?.mpr ⟨n, hx⟩)
    have hdiv : ∀ n, n < pages.length → n / k ≠ pages.length / k := by
      intro n hn heq
      have h1 := Nat.div_add_mod n k
      have h2 := Nat.div_add_mod pages.length k
      rw [heq] at h1
      omega
    rcases getElem?_concat_cases hi with ⟨hi', ha⟩ | ⟨rfl, rfl⟩ <;>
      rcases getElem?_concat_cases hj with ⟨hj', hc⟩ | ⟨rfl, rfl⟩
    · exact h.page i j a c ha hc
    · exact iff_of_false (hmem i a ha) (hdiv i hi')
    · exact iff_of_false (fun e => hmem j c hc e.symm) (fun e => hdiv j hj' e.symm)
    · exact iff_of_true rfl rfl

/-- Growing by a position inside a page continues its last page and its last slot. -/
lemma snoc_same (h : Paged k pages slots) (hk : 0 < k) {b s : ℕ}
    (hlen : pages.length % k ≠ 0) (hb : pages.getLast? = some b) (hs : slots.getLast? = some s) :
    Paged k (pages ++ [b]) (slots ++ [s + 1]) := by
  have hpos : 0 < pages.length := by
    rcases Nat.eq_zero_or_pos pages.length with h0 | h0
    · simp [h0] at hlen
    · exact h0
  have hb' : pages[pages.length - 1]? = some b := by
    rw [← hb, List.getLast?_eq_getElem?]
  have hs' : slots[pages.length - 1]? = some s := by
    rw [← hs, List.getLast?_eq_getElem?, h.length_eq]
  obtain ⟨c, hc, hsc⟩ := h.slot_eq hs'
  have hcb : c = b := by
    rw [hc] at hb'
    exact Option.some.inj hb'
  subst hcb
  -- the last position and the new one share a group because the length is not on a boundary
  have hgroup : (pages.length - 1) / k = pages.length / k ∧
      (pages.length - 1) % k + 1 = pages.length % k := by
    have h1 := Nat.div_add_mod (pages.length - 1) k
    have h2 := Nat.div_add_mod pages.length k
    have h3 := Nat.mod_lt pages.length hk
    have h5 : (pages.length - 1) / k = pages.length / k := by
      have h4 : pages.length - 1 = k * (pages.length / k) + (pages.length % k - 1) := by omega
      have h6 : (pages.length % k - 1) / k = 0 := Nat.div_eq_of_lt (by omega)
      calc (pages.length - 1) / k
          = (k * (pages.length / k) + (pages.length % k - 1)) / k := by rw [← h4]
        _ = pages.length / k := by rw [Nat.mul_add_div hk, h6, Nat.add_zero]
    rw [h5] at h1
    exact ⟨h5, by omega⟩
  refine ⟨fun i => ?_, fun i j a x hi hj => ?_⟩
  · rw [List.getElem?_append, List.getElem?_append, h.length_eq]
    split
    · exact h.slot i
    · rename_i hi
      rcases Nat.lt_or_ge pages.length i with hgt | hle
      · simp [List.getElem?_eq_none (l := [c]) (i := i - pages.length) (by simp; omega),
          List.getElem?_eq_none (l := [s + 1]) (i := i - pages.length) (by simp; omega)]
      · have : i = pages.length := by omega
        subst this
        have h2 := hgroup.2
        simp only [Nat.sub_self, List.getElem?_cons_zero, Option.map_some, Option.some.injEq]
        omega
  · rcases getElem?_concat_cases hi with ⟨_, ha⟩ | ⟨rfl, rfl⟩ <;>
      rcases getElem?_concat_cases hj with ⟨_, hx⟩ | ⟨rfl, rfl⟩
    · exact h.page i j a x ha hx
    · rw [h.page i _ a _ ha hb', hgroup.1]
    · rw [h.page _ j _ x hb' hx, hgroup.1]
    · exact iff_of_true rfl rfl

/-- Striding loses no page. -/
lemma mem_stride (h : Paged k pages slots) (hk : 0 < k) {b : ℕ} :
    b ∈ stride k pages ↔ b ∈ pages := by
  constructor
  · intro hb
    obtain ⟨i, hi⟩ := List.mem_iff_getElem?.mp hb
    rw [stride_getElem? hk] at hi
    exact List.mem_iff_getElem?.mpr ⟨_, hi⟩
  · intro hb
    obtain ⟨i, hi⟩ := List.mem_iff_getElem?.mp hb
    have hlt : i / k * k < pages.length := by
      have := (List.getElem?_eq_some_iff.mp hi).1
      exact Nat.lt_of_le_of_lt (Nat.div_mul_le_self i k) this
    have hj : pages[i / k * k]? = some pages[i / k * k] := List.getElem?_eq_getElem hlt
    have heq : pages[i / k * k] = b :=
      (h.page _ _ _ _ hj hi).mpr (Nat.mul_div_cancel _ hk)
    refine List.mem_iff_getElem?.mpr ⟨i / k, ?_⟩
    rw [stride_getElem? hk, hj, heq]

/-- Striding keeps each page once. -/
lemma nodup_stride (h : Paged k pages slots) (hk : 0 < k) : (stride k pages).Nodup := by
  rw [List.nodup_iff_getElem?_ne_getElem?]
  intro i j hij hj heq
  obtain ⟨b, hb⟩ : ∃ b, (stride k pages)[j]? = some b :=
    ⟨(stride k pages)[j], List.getElem?_eq_getElem hj⟩
  rw [hb] at heq
  rw [stride_getElem? hk] at heq hb
  have := (h.page _ _ _ _ heq hb).mp rfl
  rw [Nat.mul_div_cancel _ hk, Nat.mul_div_cancel _ hk] at this
  omega

end Paged

/-! ## Addressing through a page table -/

/-- Every slot of the sequence is the one its page table `stride k pages` computes. -/
def Addressed (k : ℕ) (pages slots : List ℕ) : Prop :=
  slots.length = pages.length ∧
    ∀ p s, slots[p]? = some s → ∃ b, (stride k pages)[p / k]? = some b ∧ s = b * k + p % k

namespace Addressed

variable {k : ℕ} {pages slots : List ℕ}

/-- A paged sequence is addressed by its own page table. -/
lemma of_paged (h : Paged k pages slots) (hk : 0 < k) : Addressed k pages slots := by
  refine ⟨h.length_eq, fun p s hs => ?_⟩
  obtain ⟨b, hb, rfl⟩ := h.slot_eq hs
  have hlt : p / k * k < pages.length :=
    Nat.lt_of_le_of_lt (Nat.div_mul_le_self p k) (List.getElem?_eq_some_iff.mp hb).1
  have hj : pages[p / k * k]? = some pages[p / k * k] := List.getElem?_eq_getElem hlt
  have heq : pages[p / k * k] = b := (h.page _ _ _ _ hj hb).mpr (Nat.mul_div_cancel _ hk)
  refine ⟨b, ?_, rfl⟩
  rw [stride_getElem? hk, hj, heq]

/-- Page tables concatenate when the first sequence ends on a page boundary. -/
lemma append {pages' slots' : List ℕ} (hk : 0 < k) (h : Addressed k pages slots)
    (h' : Addressed k pages' slots') (hd : k ∣ pages.length) :
    Addressed k (pages ++ pages') (slots ++ slots') := by
  refine ⟨by rw [List.length_append, List.length_append, h.1, h'.1], fun p s hs => ?_⟩
  have hslen := h.1
  obtain ⟨m, hm⟩ := hd
  have hstride := length_stride_of_dvd hk hm
  rw [stride_append hk ⟨m, hm⟩]
  rcases Nat.lt_or_ge p slots.length with hp | hp
  · rw [List.getElem?_append_left hp] at hs
    obtain ⟨b, hb, hsb⟩ := h.2 p s hs
    exact ⟨b, by rw [List.getElem?_append_left (List.getElem?_eq_some_iff.mp hb).1, hb], hsb⟩
  · rw [List.getElem?_append_right hp] at hs
    obtain ⟨b, hb, hsb⟩ := h'.2 _ s hs
    obtain ⟨q, rfl⟩ : ∃ q, p = q + k * m := ⟨p - k * m, by omega⟩
    have hq : q + k * m - slots.length = q := by omega
    rw [hq] at hb hsb
    have hle : (stride k pages).length ≤ q / k + m := hstride ▸ Nat.le_add_left _ _
    have hdiv : (q + k * m) / k = q / k + m := Nat.add_mul_div_left q m hk
    have hmod : (q + k * m) % k = q % k := Nat.add_mul_mod_self_left q k m
    refine ⟨b, ?_, by rw [hmod]; exact hsb⟩
    rw [hdiv, List.getElem?_append_right hle, hstride, Nat.add_sub_cancel, hb]

end Addressed

/-! ## A table in two parts -/

/-- The slot at a position, computed from a page table. -/
def tableSlot (k : ℕ) (table : List ℕ) (p : ℕ) : Option ℕ :=
  table[p / k]?.map fun b => b * k + p % k

/-- The slots at the first `len` positions. -/
def tableSlots (k : ℕ) (table : List ℕ) (len : ℕ) : List (Option ℕ) :=
  (List.range len).map (tableSlot k table)

section tableSlots

variable {k : ℕ} {pages : List ℕ}

lemma tableSlot_stride (hk : 0 < k) (pages : List ℕ) (p : ℕ) :
    tableSlot k (stride k pages) p = pages[p / k * k]?.map fun b => b * k + p % k := by
  rw [tableSlot, stride_getElem? hk]

/-- The page of every position of the sequence is in its table. -/
lemma page_lt_length (hk : 0 < k) {p : ℕ} (hp : p < pages.length) :
    p / k < (stride k pages).length :=
  (lt_length_stride hk pages _).mpr (Nat.lt_of_le_of_lt (Nat.div_mul_le_self p k) hp)

lemma tableSlot_ne_none (hk : 0 < k) {p : ℕ} (hp : p < pages.length) :
    tableSlot k (stride k pages) p ≠ none := by
  rw [tableSlot, List.getElem?_eq_getElem (page_lt_length hk hp)]
  exact Option.some_ne_none _

/-- What a table is padded with is not addressed. -/
lemma tableSlots_padded (hk : 0 < k) {len : ℕ} (hlen : len ≤ pages.length) (padding : List ℕ) :
    tableSlots k (stride k pages ++ padding) len = tableSlots k (stride k pages) len := by
  refine List.map_congr_left fun p hp => ?_
  have hlt := page_lt_length hk (Nat.lt_of_lt_of_le (List.mem_range.mp hp) hlen)
  rw [tableSlot, tableSlot, List.getElem?_append_left hlt]

/-- A table can be cut where a page ends, and its first part be taken from any sequence with the
same beginning. -/
lemma tableSlots_cut (hk : 0 < k) {pages₀ : List ℕ} {cut pad n : ℕ}
    (hagree : pages₀.take cut = pages.take cut) (hle : cut ≤ pad)
    (hpad : k ∣ cut → pad = cut) (hcut : k ∣ cut ∨ n = 0) :
    tableSlots k (stride k (pages₀.take pad)) cut ++ tableSlots k (stride k (pages.drop pad)) n =
      tableSlots k (stride k pages) (cut + n) := by
  rw [tableSlots, tableSlots, tableSlots, List.range_add, List.map_append, List.map_map]
  congr 1
  · refine List.map_congr_left fun p hp => ?_
    have hlt : p / k * k < cut :=
      Nat.lt_of_le_of_lt (Nat.div_mul_le_self p k) (List.mem_range.mp hp)
    have hsame := congrArg (fun l => l[p / k * k]?) hagree
    rw [List.getElem?_take_of_lt hlt, List.getElem?_take_of_lt hlt] at hsame
    rw [tableSlot_stride hk, tableSlot_stride hk,
      List.getElem?_take_of_lt (Nat.lt_of_lt_of_le hlt hle), hsame]
  · rcases hcut with hdvd | rfl
    · refine List.map_congr_left fun q _ => ?_
      obtain ⟨m, rfl⟩ := hdvd
      rw [Function.comp_apply, tableSlot_stride hk, tableSlot_stride hk, hpad ⟨m, rfl⟩,
        List.getElem?_drop, Nat.mul_add_mod, Nat.mul_add_div hk, Nat.add_mul, Nat.mul_comm m k]
    · rfl

end tableSlots

/-! ## Growing by several positions -/

/-- The pages that `n` positions open behind `len` of them. -/
def newPages (k len n : ℕ) : ℕ := (len + n + k - 1) / k - (len + k - 1) / k

lemma newPages_add (k len a b : ℕ) :
    newPages k len (a + b) = newPages k len a + newPages k (len + a) b := by
  have hle : (len + k - 1) / k ≤ (len + a + k - 1) / k := Nat.div_le_div_right (by omega)
  have hle' : (len + a + k - 1) / k ≤ (len + a + b + k - 1) / k := Nat.div_le_div_right (by omega)
  unfold newPages
  rw [← Nat.add_assoc len a b]
  omega

@[simp] lemma newPages_zero (k len : ℕ) : newPages k len 0 = 0 := Nat.sub_self _

lemma newPages_mono {k len a b : ℕ} (h : a ≤ b) : newPages k len a ≤ newPages k len b := by
  obtain ⟨c, rfl⟩ := Nat.exists_eq_add_of_le h
  rw [newPages_add]
  omega

/-- A page is opened at its first position. -/
lemma newPages_one {k : ℕ} (hk : 0 < k) (len : ℕ) :
    newPages k len 1 = if len % k = 0 then 1 else 0 := by
  obtain ⟨m, rfl⟩ := Nat.exists_eq_succ_of_ne_zero hk.ne'
  have hnext : (len + 1 + m.succ - 1) / m.succ = len / m.succ + 1 := by
    rw [Nat.add_right_comm, Nat.add_sub_cancel, Nat.add_div_right _ hk]
  have hthis : (len + m.succ - 1) / m.succ = (len + m) / m.succ := rfl
  have hlen := Nat.div_add_mod len m.succ
  unfold newPages
  rw [hnext, hthis]
  split_ifs with hzero
  · rw [hzero, Nat.add_zero] at hlen
    have hlow : (len + m) / m.succ = len / m.succ := by
      conv_lhs => rw [← hlen]
      rw [Nat.mul_add_div hk, Nat.div_eq_of_lt (Nat.lt_succ_self m), Nat.add_zero]
    omega
  · have hhigh : (len + m) / m.succ = len / m.succ + 1 := by
      obtain ⟨c, hc⟩ := Nat.exists_eq_succ_of_ne_zero hzero
      have hsum : len + m = m.succ * (len / m.succ + 1) + c := by
        rw [Nat.mul_add, Nat.mul_one]
        omega
      have hlt : c < m.succ := by
        have := Nat.mod_lt len hk
        omega
      rw [hsum, Nat.mul_add_div hk, Nat.div_eq_of_lt hlt, Nat.add_zero]
    omega

end ParrotServe
