import ParrotServe.Model.PrefixMatcher

/-!
# What the prefix matcher counts

The long strings that share their first `startLen + 1` characters are a class.  `Counts xs k n` says
of the strings `xs` that `k` is the longest common prefix of a class, which has `n` strings.

`Represents m xs`: the keys of the table are those prefixes, each under its first `startLen`
characters.  A class has one key, as the key starts like the class; so the loop of `add_prefix`
finds the key of the class of its string if there is one, and the key it writes is not the key of
another class.  `addPrefix_represents` is the step, `prefix_matcher` the statement over all calls.
-/

namespace ParrotServe

namespace PrefixMatcher

/-! ## Classes -/

/-- The long strings with these first characters. -/
def classOf (xs : List Text) (c : Text) : List Text :=
  xs.filter fun x => decide (startLen < x.length ∧ x.take (startLen + 1) = c)

/-- The strings of the class of `x`. -/
abbrev sameStart (xs : List Text) (x : Text) : List Text := classOf xs (x.take (startLen + 1))

variable {xs ys : List Text} {c k p x : Text} {n : ℕ}

lemma mem_classOf :
    x ∈ classOf xs c ↔ x ∈ xs ∧ startLen < x.length ∧ x.take (startLen + 1) = c := by
  simp [classOf]

lemma classOf_concat_same (hlen : startLen < p.length) :
    classOf (xs ++ [p]) (p.take (startLen + 1)) = classOf xs (p.take (startLen + 1)) ++ [p] := by
  simp [classOf, hlen]

lemma classOf_concat_ne (hne : ¬ (startLen < p.length ∧ p.take (startLen + 1) = c)) :
    classOf (xs ++ [p]) c = classOf xs c := by
  unfold classOf
  rw [List.filter_append, List.filter_singleton, decide_eq_false hne, cond_false, List.append_nil]

/-- The longest common prefix of a class starts like the class. -/
lemma IsLcp.start (hk : IsLcp k (classOf xs c)) (hne : classOf xs c ≠ []) :
    startLen < k.length ∧ k.take (startLen + 1) = c := by
  obtain ⟨x, hx⟩ := List.exists_mem_of_ne_nil _ hne
  obtain ⟨-, hlen, hstart⟩ := mem_classOf.mp hx
  have hc : c <+: k := hk.2 c fun y hy => by
    rw [← (mem_classOf.mp hy).2.2]
    exact List.take_prefix _ _
  have hlenc : c.length = startLen + 1 := by
    rw [← hstart, List.length_take]
    omega
  obtain ⟨t, rfl⟩ := hc
  refine ⟨by rw [List.length_append]; omega, ?_⟩
  rw [← hlenc, List.take_left']
  rfl

/-! ## The table -/

/-- `k` is the longest common prefix of its class, which has `n` strings. -/
structure Counts (xs : List Text) (k : Text) (n : ℕ) : Prop where
  long : startLen < k.length
  isLcp : IsLcp k (sameStart xs k)
  count : n = (sameStart xs k).length
  pos : 0 < n

lemma Counts.ne_nil (h : Counts xs k n) : sameStart xs k ≠ [] := by
  have hpos := h.pos
  rw [h.count] at hpos
  exact List.ne_nil_of_length_pos hpos

/-- Every class is counted. -/
lemma exists_counts (hne : classOf xs c ≠ []) :
    ∃ k, k.take (startLen + 1) = c ∧ Counts xs k (classOf xs c).length := by
  obtain ⟨k, hk⟩ := exists_isLcp _ hne
  obtain ⟨hlong, hstart⟩ := IsLcp.start hk hne
  exact ⟨k, hstart, hlong, by rwa [sameStart, hstart], by rw [sameStart, hstart],
    List.length_pos_of_ne_nil hne⟩

/-- The counts of the strings that start with `lookup`, as a second level of the table. -/
def CountsAt (xs : List Text) (lookup : Text) (counter : Dict Text ℕ) : Prop :=
  ∀ k n, counter.get? k = some n ↔ k.take startLen = lookup ∧ Counts xs k n

/-- The table of the strings `xs`. -/
structure Represents (m : PrefixMatcher) (xs : List Text) : Prop where
  lookups : ∀ lookup, lookup ∈ m.prefixCounter.keys ↔
    ∃ x ∈ xs, startLen < x.length ∧ x.take startLen = lookup
  counters : ∀ lookup counter, m.prefixCounter.get? lookup = some counter →
    CountsAt xs lookup counter

/-- Who shares one more character shares the first ones. -/
lemma take_of_take_succ (h : k.take (startLen + 1) = p.take (startLen + 1)) :
    k.take startLen = p.take startLen := by
  have := congrArg (List.take startLen) h
  simpa [List.take_take] using this

/-- The test of the loop, for a key under the first characters of the string. -/
lemma getElem?_eq_iff (htake : k.take startLen = p.take startLen) :
    k[startLen]? = p[startLen]? ↔ k.take (startLen + 1) = p.take (startLen + 1) := by
  rw [List.take_add_one, List.take_add_one, htake, List.append_cancel_left_eq]
  cases k[startLen]? <;> cases p[startLen]? <;> simp

/-- The loop reduces the first key that has the next character too, or adds the string. -/
lemma matchKeys_cases (counter : Dict Text ℕ) (hp : startLen < p.length) :
    ∀ ks : List Text, (∀ k ∈ ks, startLen < k.length ∧ k.take startLen = p.take startLen) →
      (∃ k ∈ ks, k.take (startLen + 1) = p.take (startLen + 1) ∧
        matchKeys p counter ks = reduceKey p k counter) ∨
      ((∀ k ∈ ks, k.take (startLen + 1) ≠ p.take (startLen + 1)) ∧
        matchKeys p counter ks = .ok (counter.set p 1)) := by
  intro ks
  induction ks with
  | nil => exact fun _ => .inr ⟨fun _ hk => absurd hk List.not_mem_nil, rfl⟩
  | cons k ks ih =>
      intro hall
      obtain ⟨hlong, htake⟩ := hall k List.mem_cons_self
      have hiff := getElem?_eq_iff htake
      rw [List.getElem?_eq_getElem hlong, List.getElem?_eq_getElem hp, Option.some.injEq] at hiff
      unfold matchKeys
      rw [List.getElem?_eq_getElem hlong, List.getElem?_eq_getElem hp]
      dsimp only
      by_cases heq : k.take (startLen + 1) = p.take (startLen + 1)
      · rw [if_pos (hiff.mpr heq)]
        exact .inl ⟨k, List.mem_cons_self, heq, rfl⟩
      · rw [if_neg fun h => heq (hiff.mp h)]
        rcases ih fun k' hk' => hall k' (List.mem_cons_of_mem k hk') with
          ⟨k', hk', hstart, hmatch⟩ | ⟨hnone, hmatch⟩
        · exact .inl ⟨k', List.mem_cons_of_mem k hk', hstart, hmatch⟩
        · refine .inr ⟨fun k' hk' => ?_, hmatch⟩
          rcases List.mem_cons.mp hk' with rfl | hk'
          · exact heq
          · exact hnone k' hk'

/-- What the loop reduces a key to. -/
def reduced (k p : Text) : Text := k.take (commonLength k p)

/-- What is left of a key still starts like the string. -/
lemma reduced_start (hlong : startLen < k.length)
    (hstart : k.take (startLen + 1) = p.take (startLen + 1)) :
    startLen < (reduced k p).length ∧
      (reduced k p).take (startLen + 1) = p.take (startLen + 1) := by
  have hle : k.take (startLen + 1) <+: reduced k p :=
    prefix_take_commonLength (List.take_prefix _ _) (hstart ▸ List.take_prefix _ _)
  have hlen : (k.take (startLen + 1)).length = startLen + 1 := by
    rw [List.length_take]
    omega
  obtain ⟨t, ht⟩ := hle
  rw [← ht, List.length_append, ← hstart]
  refine ⟨by omega, ?_⟩
  nth_rewrite 1 [← hlen]
  exact List.take_left

/-- A key is replaced by what it has in common with the string, and counted once more. -/
lemma reduceKey_ok {counter : Dict Text ℕ} (hk : counter.get? k = some n)
    (hlong : startLen < k.length) (htake : k.take startLen = p.take startLen) :
    ∃ counter', reduceKey p k counter = .ok counter' ∧ ∀ k', counter'.get? k' =
      if k' = reduced k p then some (n + 1) else if k' = k then none else counter.get? k' := by
  have hlen := commonLength_eq_add_drop hlong.le htake
  unfold reduceKey
  rw [hk, ← hlen]
  dsimp only
  split
  · rename_i hall
    have hred : reduced k p = k := by rw [reduced, hall, List.take_length]
    refine ⟨_, rfl, fun k' => ?_⟩
    rw [hred, Dict.get?_set]
    split <;> rfl
  · rename_i hless
    have hne : reduced k p ≠ k := by
      intro heq
      have hlenk := congrArg List.length heq
      rw [reduced, List.length_take, Nat.min_eq_left (commonLength_le k p)] at hlenk
      exact hless hlenk
    refine ⟨_, rfl, fun k' => ?_⟩
    rw [Dict.get?_erase, Dict.get?_set]
    by_cases hkk : k' = k
    · subst hkk
      rw [if_pos rfl, if_neg fun h => hne h.symm, if_pos rfl]
    · rw [if_neg hkk, if_neg hkk]
      rfl

/-! ## One call -/

/-- A string of another class changes no count. -/
lemma counts_concat_ne (hne : ¬ (startLen < p.length ∧
    p.take (startLen + 1) = k.take (startLen + 1))) :
    Counts (xs ++ [p]) k n ↔ Counts xs k n := by
  have hsame : sameStart (xs ++ [p]) k = sameStart xs k := classOf_concat_ne hne
  constructor
  · exact fun h => ⟨h.long, hsame ▸ h.isLcp, hsame ▸ h.count, h.pos⟩
  · exact fun h => ⟨h.long, hsame.symm ▸ h.isLcp, hsame.symm ▸ h.count, h.pos⟩

/-- The first string of a class is its prefix. -/
lemma counts_concat_first (hlen : startLen < p.length)
    (hstart : k.take (startLen + 1) = p.take (startLen + 1)) (hnil : sameStart xs p = []) :
    Counts (xs ++ [p]) k n ↔ k = p ∧ n = 1 := by
  have hclass : sameStart (xs ++ [p]) k = [p] := by
    rw [sameStart, hstart, classOf_concat_same hlen, ← sameStart, hnil, List.nil_append]
  constructor
  · intro h
    exact ⟨(hclass ▸ h.isLcp).unique (isLcp_singleton p), by rw [h.count, hclass]; rfl⟩
  · rintro ⟨rfl, rfl⟩
    exact ⟨hlen, by rw [hclass]; exact isLcp_singleton k, by rw [hclass]; rfl, Nat.one_pos⟩

/-- A further string of the class of `k` shortens it. -/
lemma counts_concat_same {k' : Text} {n' : ℕ} (h : Counts xs k n) (hlen : startLen < p.length)
    (hstart : k.take (startLen + 1) = p.take (startLen + 1))
    (hstart' : k'.take (startLen + 1) = p.take (startLen + 1)) :
    Counts (xs ++ [p]) k' n' ↔ k' = reduced k p ∧ n' = n + 1 := by
  have hclass : ∀ x : Text, x.take (startLen + 1) = p.take (startLen + 1) →
      sameStart (xs ++ [p]) x = sameStart xs k ++ [p] := by
    intro x hx
    rw [sameStart, hx, classOf_concat_same hlen, ← hstart]
  have hlcp : IsLcp (reduced k p) (sameStart xs k ++ [p]) := h.isLcp.concat p
  have hcount : (sameStart xs k ++ [p]).length = n + 1 := by
    rw [List.length_append, ← h.count, List.length_singleton]
  constructor
  · intro h'
    exact ⟨(hclass k' hstart' ▸ h'.isLcp).unique hlcp, by rw [h'.count, hclass k' hstart', hcount]⟩
  · rintro ⟨rfl, rfl⟩
    have hclass := hclass _ hstart'
    exact ⟨(reduced_start h.long hstart).1, by rwa [hclass], by rw [hclass, hcount],
      Nat.succ_pos n⟩

/-- What is counted under the first characters of a string, with the string. -/
lemma matchKeys_countsAt {counter : Dict Text ℕ} (hp : startLen < p.length)
    (h : CountsAt xs (p.take startLen) counter) :
    ∃ counter', matchKeys p counter counter.keys = .ok counter' ∧
      CountsAt (xs ++ [p]) (p.take startLen) counter' := by
  have hkeys : ∀ k ∈ counter.keys, startLen < k.length ∧ k.take startLen = p.take startLen := by
    intro k hk
    obtain ⟨n, hn⟩ := counter.mem_keys.mp hk
    obtain ⟨htake, hc⟩ := (h k n).mp hn
    exact ⟨hc.long, htake⟩
  rcases matchKeys_cases counter hp counter.keys hkeys with
    ⟨k, hk, hstart, hmatch⟩ | ⟨hnone, hmatch⟩
  · obtain ⟨n, hn⟩ := counter.mem_keys.mp hk
    obtain ⟨hlong, htake⟩ := hkeys k hk
    have hc := ((h k n).mp hn).2
    obtain ⟨counter', hok, hget⟩ := reduceKey_ok hn hlong htake
    refine ⟨counter', hmatch.trans hok, fun k' n' => ?_⟩
    rw [hget]
    by_cases hstart' : k'.take (startLen + 1) = p.take (startLen + 1)
    · rw [counts_concat_same hc hp hstart hstart', and_iff_right (take_of_take_succ hstart')]
      split
      · rename_i heq
        simp [heq, eq_comm]
      · rename_i hred
        refine ⟨fun hget => ?_, fun hk' => absurd hk'.1 hred⟩
        split at hget
        · cases hget
        · -- a class has one key
          rename_i hkk
          have hc' := ((h k' n').mp hget).2
          have hsame : sameStart xs k' = sameStart xs k := by
            rw [sameStart, sameStart, hstart', hstart]
          exact absurd ((hsame ▸ hc'.isLcp).unique hc.isLcp) hkk
    · have hred : k' ≠ reduced k p := fun heq => hstart' (heq ▸ (reduced_start hlong hstart).2)
      have hkk : k' ≠ k := fun heq => hstart' (heq ▸ hstart)
      rw [if_neg hred, if_neg hkk, h, counts_concat_ne fun hsame => hstart' hsame.2.symm]
  · have hnil : sameStart xs p = [] := by
      by_contra hne
      obtain ⟨k, hstart, hc⟩ := exists_counts hne
      have hget := (h k _).mpr ⟨take_of_take_succ hstart, hc⟩
      exact hnone k (counter.mem_keys_of_get? hget) hstart
    refine ⟨_, hmatch, fun k' n' => ?_⟩
    rw [Dict.get?_set]
    by_cases hstart' : k'.take (startLen + 1) = p.take (startLen + 1)
    · rw [counts_concat_first hp hstart' hnil, and_iff_right (take_of_take_succ hstart')]
      split
      · rename_i heq
        simp [heq, eq_comm]
      · rename_i hkp
        refine ⟨fun hget => ?_, fun hk' => absurd hk'.1 hkp⟩
        exact absurd hstart' (hnone k' (counter.mem_keys_of_get? hget))
    · have hkp : k' ≠ p := fun heq => hstart' (heq ▸ rfl)
      rw [if_neg hkp, h, counts_concat_ne fun hsame => hstart' hsame.2.symm]

/-- The counts elsewhere do not change. -/
lemma CountsAt.concat {lookup : Text} {counter : Dict Text ℕ} (h : CountsAt xs lookup counter)
    (hne : ¬ (startLen < p.length ∧ p.take startLen = lookup)) :
    CountsAt (xs ++ [p]) lookup counter := by
  intro k n
  rw [h k n]
  refine and_congr_right fun htake => (counts_concat_ne fun hsame => ?_).symm
  exact hne ⟨hsame.1, (take_of_take_succ hsame.2).trans htake⟩

/-- Nothing is counted under characters that no string starts with. -/
lemma countsAt_empty {lookup : Text}
    (hnone : ¬ ∃ x ∈ xs, startLen < x.length ∧ x.take startLen = lookup) :
    CountsAt xs lookup .empty := by
  intro k n
  simp only [Dict.get?_empty, reduceCtorEq, false_iff, not_and]
  intro htake hc
  obtain ⟨x, hx⟩ := List.exists_mem_of_ne_nil _ hc.ne_nil
  obtain ⟨hmem, hlen, hstart⟩ := mem_classOf.mp hx
  exact hnone ⟨x, hmem, hlen, (take_of_take_succ hstart).trans htake⟩

/-- `add_prefix` raises nothing, and counts one more string. -/
lemma addPrefix_represents {m : PrefixMatcher} (h : Represents m xs) (p : Text) :
    ∃ m', m.addPrefix p = .ok m' ∧ Represents m' (xs ++ [p]) := by
  unfold addPrefix
  split
  · rename_i hshort
    have hshort : ¬ startLen < p.length := Nat.not_lt.mpr hshort
    refine ⟨m, rfl, ⟨fun lookup => ?_, fun lookup counter hget =>
      (h.counters lookup counter hget).concat fun hp => hshort hp.1⟩⟩
    rw [h.lookups]
    simp [or_and_right, exists_or, hshort]
  · rename_i hlong
    have hp : startLen < p.length := Nat.lt_of_not_le hlong
    have hat : CountsAt xs (p.take startLen)
        ((m.prefixCounter.get? (p.take startLen)).getD .empty) := by
      cases hget : m.prefixCounter.get? (p.take startLen) with
      | some counter => exact h.counters _ _ hget
      | none =>
          refine countsAt_empty fun hx => ?_
          exact m.prefixCounter.get?_eq_none.mp hget ((h.lookups _).mpr hx)
    obtain ⟨counter', hmatch, hat'⟩ := matchKeys_countsAt hp hat
    dsimp only
    rw [hmatch]
    refine ⟨_, rfl, ⟨fun lookup => ?_, fun lookup counter hget => ?_⟩⟩
    · dsimp only
      rw [Dict.mem_keys_set, h.lookups]
      simp [or_and_right, exists_or, hp, or_comm, eq_comm]
    · dsimp only at hget
      rw [Dict.get?_set] at hget
      split at hget
      · rename_i heq
        cases hget
        exact heq ▸ hat'
      · rename_i hne
        exact (h.counters lookup counter hget).concat fun hp => hne hp.2.symm

/-- The calls of `add_prefix` raise nothing, and count the strings. -/
lemma addPrefixes_represents (ps : List Text) : ∀ {m : PrefixMatcher} {xs : List Text},
    Represents m xs → ∃ m', m.addPrefixes ps = .ok m' ∧ Represents m' (xs ++ ps) := by
  induction ps with
  | nil => exact fun {m xs} h => ⟨m, rfl, by rwa [List.append_nil]⟩
  | cons p ps ih =>
      intro m xs h
      obtain ⟨m₁, hok, h₁⟩ := addPrefix_represents h p
      obtain ⟨m', hok', h'⟩ := ih h₁
      exact ⟨m', by simp only [addPrefixes, hok, hok'], by simpa using h'⟩

/-- The empty table. -/
lemma represents_nil : Represents {} [] := ⟨by simp, fun _ _ hget => by simp at hget⟩

/-! ## Tables and queries -/

/-- The key `k` under `lookup` has the count `n`. -/
def Entry (m : PrefixMatcher) (lookup k : Text) (n : ℕ) : Prop :=
  ∃ counter, m.prefixCounter.get? lookup = some counter ∧ counter.get? k = some n

/-- The tables are the same but for the order of their keys. -/
structure SameTable (m m' : PrefixMatcher) : Prop where
  lookups : ∀ lookup, lookup ∈ m.prefixCounter.keys ↔ lookup ∈ m'.prefixCounter.keys
  entries : ∀ lookup k n, m.Entry lookup k n ↔ m'.Entry lookup k n

variable {m m' : PrefixMatcher}

lemma Represents.entry_iff (h : Represents m xs) {lookup : Text} :
    m.Entry lookup k n ↔ lookup = k.take startLen ∧ Counts xs k n := by
  constructor
  · rintro ⟨counter, hget, hk⟩
    obtain ⟨htake, hc⟩ := (h.counters lookup counter hget k n).mp hk
    exact ⟨htake.symm, hc⟩
  · rintro ⟨rfl, hc⟩
    obtain ⟨x, hx⟩ := List.exists_mem_of_ne_nil _ hc.ne_nil
    obtain ⟨hmem, hlen, hstart⟩ := mem_classOf.mp hx
    obtain ⟨counter, hget⟩ := m.prefixCounter.mem_keys.mp
      ((h.lookups _).mpr ⟨x, hmem, hlen, take_of_take_succ hstart⟩)
    exact ⟨counter, hget, (h.counters _ counter hget k n).mpr ⟨rfl, hc⟩⟩

/-- The order of the strings does not matter. -/
lemma Counts.perm (h : Counts xs k n) (hperm : xs.Perm ys) : Counts ys k n := by
  have hclass : (sameStart xs k).Perm (sameStart ys k) := hperm.filter _
  exact ⟨h.long, h.isLcp.perm hclass, h.count.trans hclass.length_eq, h.pos⟩

lemma Represents.sameTable (h : Represents m xs) (h' : Represents m' ys) (hperm : xs.Perm ys) :
    SameTable m m' where
  lookups lookup := by
    rw [h.lookups, h'.lookups]
    simp only [hperm.mem_iff]
  entries lookup k n := by
    rw [h.entry_iff, h'.entry_iff]
    exact and_congr_right fun _ => ⟨fun hc => hc.perm hperm, fun hc => hc.perm hperm.symm⟩

/-- A counted prefix of a string starts like it. -/
lemma Counts.start_eq (h : Counts xs k n) {s : Text} (hpre : k <+: s) :
    startLen < s.length ∧ k.take (startLen + 1) = s.take (startLen + 1) := by
  obtain ⟨t, rfl⟩ := hpre
  have hlong := h.long
  refine ⟨by rw [List.length_append]; omega, ?_⟩
  rw [List.take_append_of_le_length (by omega)]

/-- A class has one counted prefix. -/
lemma Counts.unique {k' : Text} {n' : ℕ} (h : Counts xs k n) (h' : Counts xs k' n')
    (hstart : k.take (startLen + 1) = k'.take (startLen + 1)) : k = k' ∧ n = n' := by
  have hsame : sameStart xs k = sameStart xs k' := by rw [sameStart, hstart]
  exact ⟨(hsame ▸ h.isLcp).unique h'.isLcp, by rw [h.count, h'.count, hsame]⟩

/-- `query_prefix` returns the length of a key that was counted more often than the threshold. -/
lemma Represents.queryPrefix_iff (h : Represents m xs) (s : Text) (i : ℤ) :
    m.queryPrefix s = i ∧ i ≠ -1 ↔
      ∃ lookup k count, m.Entry lookup k count ∧ gpThreshold < count ∧ k <+: s ∧ i = k.length := by
  unfold queryPrefix
  split
  · rename_i hshort
    refine ⟨fun hi => absurd hi.1.symm hi.2, ?_⟩
    rintro ⟨lookup, k, count, hentry, -, hpre, -⟩
    have := ((h.entry_iff.mp hentry).2.start_eq hpre).1
    omega
  · split
    · rename_i hget
      refine ⟨fun hi => absurd hi.1.symm hi.2, ?_⟩
      rintro ⟨lookup, k, count, hentry, -, hpre, -⟩
      obtain ⟨rfl, hc⟩ := h.entry_iff.mp hentry
      obtain ⟨counter, hsome, -⟩ := hentry
      rw [take_of_take_succ (hc.start_eq hpre).2, hget] at hsome
      cases hsome
    · rename_i counter hget
      have hentries : ∀ e ∈ counter.entries, m.Entry (s.take startLen) e.1 e.2 :=
        fun e he => ⟨counter, hget, counter.mem_entries.mp he⟩
      have hmem : ∀ {lookup k count}, m.Entry lookup k count → k <+: s →
          (k, count) ∈ counter.entries := by
        intro lookup k count hentry hpre
        obtain ⟨rfl, hc⟩ := h.entry_iff.mp hentry
        obtain ⟨counter', hsome, hk⟩ := hentry
        rw [take_of_take_succ (hc.start_eq hpre).2, hget] at hsome
        cases hsome
        exact counter.mem_entries.mpr hk
      split
      · rename_i hfind
        refine ⟨fun hi => absurd hi.1.symm hi.2, ?_⟩
        rintro ⟨lookup, k, count, hentry, hcount, hpre, -⟩
        have := List.find?_eq_none.mp hfind _ (hmem hentry hpre)
        simp [hcount, hpre] at this
      · rename_i e hfind
        have he := hentries e (List.mem_of_find?_eq_some hfind)
        have hgood := List.find?_some hfind
        simp only [Bool.and_eq_true, decide_eq_true_eq, List.isPrefixOf_iff_prefix] at hgood
        constructor
        · rintro ⟨rfl, -⟩
          exact ⟨_, e.1, e.2, he, hgood.1, hgood.2, rfl⟩
        · rintro ⟨lookup, k, count, hentry, -, hpre, rfl⟩
          have hc := (h.entry_iff.mp hentry).2
          have hce := (h.entry_iff.mp he).2
          obtain ⟨rfl, -⟩ := hce.unique hc
            ((hce.start_eq hgood.2).2.trans (hc.start_eq hpre).2.symm)
          exact ⟨rfl, by omega⟩

/-- After any calls of `add_prefix`: each class of long strings has one key, their longest common
prefix, with their number as its count, and there are no other keys.  The order of the calls does
not matter for the table and for queries, and a query that is not answered with `-1` is answered
with the length of a key that is a prefix of its string and was added often enough. -/
theorem prefix_matcher (xs : List Text) :
    ∃ m : PrefixMatcher, addPrefixes {} xs = .ok m ∧
      (∀ x ∈ xs, startLen < x.length → ∃ k, IsLcp k (sameStart xs x) ∧ ∀ k' n,
        m.Entry (x.take startLen) k' n ∧ k'.take (startLen + 1) = x.take (startLen + 1) ↔
          k' = k ∧ n = (sameStart xs x).length) ∧
      (∀ lookup k n, m.Entry lookup k n → ∃ x ∈ xs, startLen < x.length ∧
        lookup = x.take startLen ∧ k.take (startLen + 1) = x.take (startLen + 1)) ∧
      (∀ ys : List Text, xs.Perm ys → ∃ m', addPrefixes {} ys = .ok m' ∧ SameTable m m' ∧
        ∀ s, m'.queryPrefix s = m.queryPrefix s) ∧
      ∀ s i, m.queryPrefix s = i ∧ i ≠ -1 ↔
        ∃ lookup k count, m.Entry lookup k count ∧ gpThreshold < count ∧ k <+: s ∧
          i = k.length := by
  obtain ⟨m, hok, h⟩ := addPrefixes_represents xs represents_nil
  rw [List.nil_append] at h
  refine ⟨m, hok, fun x hx hlen => ?_, fun lookup k n hentry => ?_, fun ys hperm => ?_,
    h.queryPrefix_iff⟩
  · have hne : sameStart xs x ≠ [] := List.ne_nil_of_mem (mem_classOf.mpr ⟨hx, hlen, rfl⟩)
    obtain ⟨k, hstart, hc⟩ := exists_counts hne
    have hsame : sameStart xs k = sameStart xs x := by rw [sameStart, hstart]
    refine ⟨k, hsame ▸ hc.isLcp, fun k' n => ?_⟩
    rw [h.entry_iff]
    constructor
    · rintro ⟨⟨-, hc'⟩, hstart'⟩
      exact hc'.unique hc (hstart'.trans hstart.symm)
    · rintro ⟨rfl, rfl⟩
      exact ⟨⟨(take_of_take_succ hstart).symm, hc⟩, hstart⟩
  · obtain ⟨rfl, hc⟩ := h.entry_iff.mp hentry
    obtain ⟨x, hx⟩ := List.exists_mem_of_ne_nil _ hc.ne_nil
    obtain ⟨hmem, hlen, hstart⟩ := mem_classOf.mp hx
    exact ⟨x, hmem, hlen, (take_of_take_succ hstart).symm, hstart.symm⟩
  · obtain ⟨m', hok', h'⟩ := addPrefixes_represents ys represents_nil
    rw [List.nil_append] at h'
    have hsame := h.sameTable h' hperm
    refine ⟨m', hok', hsame, fun s => ?_⟩
    have hiff : ∀ i, m'.queryPrefix s = i ∧ i ≠ -1 ↔ m.queryPrefix s = i ∧ i ≠ -1 := fun i => by
      rw [h.queryPrefix_iff, h'.queryPrefix_iff]
      simp only [hsame.entries]
    by_cases hm : m.queryPrefix s = -1
    · by_contra hne
      exact hne ((hiff _).mp ⟨rfl, fun hm' => hne (hm'.trans hm.symm)⟩).1.symm
    · exact ((hiff _).mpr ⟨rfl, hm⟩).1

/-- Four strings that differ in their last character. -/
example : ((addPrefixes {} (['0', '1', '2', '3'].map fun c =>
    List.replicate startLen 'A' ++ ['B', 'B', c])).map fun m =>
      m.queryPrefix (List.replicate startLen 'A' ++ ['B', 'B', 'X'])).toOption = some 42 := by
  decide +kernel

end PrefixMatcher

end ParrotServe
