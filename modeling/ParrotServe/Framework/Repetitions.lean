import ParrotServe.Framework.Tokens
import Mathlib.Data.List.Chain

/-!
# Repeated characters

`mapRuns b f` gives every maximal run of the character `b`, also an empty one, a new length.
Replacing some copies of `b` by some other number of copies is such a map, `replace_replicate`, so a
sequence of replacements is read off the sequence of lengths: `mapRuns_mapRuns`.

What a replacement does on the two sides of a character that does not occur in the word are two
replacements, `replace_append_cons`.

Nothing in this module refers to the repository being modelled.
-/

namespace ParrotServe

namespace Tokens

variable {α : Type*} [DecidableEq α] {old new t : List α} {b c : α}

/-! ## Single characters -/

/-- A character at which the word does not begin. -/
lemma replace_cons_of_not_prefix (h : ¬ old <+: c :: t) :
    replace old new (c :: t) = c :: replace old new t := if_neg h

/-- A character that is not in the word is where the replacement starts anew. -/
lemma replace_append_cons (hne : old ≠ []) (hc : c ∉ old) (a x : List α) :
    replace old new (a ++ c :: x) = replace old new a ++ c :: replace old new x := by
  induction hlen : a.length using Nat.strong_induction_on generalizing a with
  | _ n ih =>
      cases a with
      | nil =>
          refine replace_cons_of_not_prefix fun hpre => hc ?_
          obtain ⟨d, old, rfl⟩ := List.exists_cons_of_ne_nil hne
          rw [(List.cons_prefix_cons.mp hpre).1]
          exact List.mem_cons_self
      | cons d a =>
          by_cases hpre : old <+: d :: a
          · obtain ⟨a', ha⟩ := hpre
            have hpos := List.length_pos_of_ne_nil hne
            have hlt : a'.length < n := by
              rw [← hlen, ← ha, List.length_append]
              omega
            rw [← ha, List.append_assoc, replace_self_append hne, replace_self_append hne,
              ih _ hlt a' rfl, List.append_assoc]
          · -- the word does not run over the character either
            have hpre' : ¬ old <+: d :: (a ++ c :: x) := by
              intro h
              rcases List.prefix_or_prefix_of_prefix h (List.prefix_append (d :: a) (c :: x))
                with h' | ⟨y, hy⟩
              · exact hpre h'
              · rw [← hy, ← List.cons_append, List.prefix_append_right_inj] at h
                cases y with
                | nil => exact hpre (hy ▸ by simp)
                | cons z y =>
                    obtain ⟨rfl, -⟩ := List.cons_prefix_cons.mp h
                    exact hc (hy ▸ List.mem_append_right _ List.mem_cons_self)
            rw [List.cons_append, replace_cons_of_not_prefix hpre',
              replace_cons_of_not_prefix hpre, ih a.length (by simp [← hlen]) a rfl]
            rfl

/-- Replacing a character by a text. -/
lemma replace_singleton (b : α) (new t : List α) :
    replace [b] new t = t.flatMap fun c => if c = b then new else [c] := by
  induction t with
  | nil => rfl
  | cons c t ih =>
      rw [List.flatMap_cons, ← ih]
      split_ifs with hc
      · rw [hc]
        exact replace_self_append (List.cons_ne_nil b []) t
      · exact replace_append_cons (List.cons_ne_nil b [])
          (fun h => hc (List.mem_singleton.mp h)) [] t

/-- A replacement brings in nothing but the new text. -/
lemma mem_replaceFrom (t : List α) : ∀ skip, c ∈ replaceFrom old new skip t → c ∈ new ∨ c ∈ t := by
  induction t with
  | nil => exact fun skip h => .inr (by cases skip <;> exact h)
  | cons d t ih =>
      intro skip h
      cases skip with
      | zero =>
          rw [replaceFrom] at h
          split_ifs at h
          · rcases List.mem_append.mp h with hnew | hrest
            · exact .inl hnew
            · exact (ih _ hrest).imp_right (List.mem_cons_of_mem d)
          · rcases List.mem_cons.mp h with rfl | hrest
            · exact .inr List.mem_cons_self
            · exact (ih _ hrest).imp_right (List.mem_cons_of_mem d)
      | succ skip => exact (ih skip h).imp_right (List.mem_cons_of_mem d)

lemma mem_replace (h : c ∈ replace old new t) : c ∈ new ∨ c ∈ t := mem_replaceFrom t 0 h

/-! ## Runs -/

/-- Give every run of `b` a new length; `n` of the current run are read already. -/
def mapRuns (b : α) (f : ℕ → ℕ) : ℕ → List α → List α
  | n, [] => List.replicate (f n) b
  | n, c :: t =>
      if c = b then mapRuns b f (n + 1) t else List.replicate (f n) b ++ c :: mapRuns b f 0 t

variable {f : ℕ → ℕ} {n : ℕ}

@[simp] lemma mapRuns_nil (b : α) (f : ℕ → ℕ) (n : ℕ) :
    mapRuns b f n [] = List.replicate (f n) b := rfl

@[simp] lemma mapRuns_cons_self (b : α) (f : ℕ → ℕ) (n : ℕ) (t : List α) :
    mapRuns b f n (b :: t) = mapRuns b f (n + 1) t := if_pos rfl

lemma mapRuns_cons_of_ne (hc : c ≠ b) (f : ℕ → ℕ) (n : ℕ) (t : List α) :
    mapRuns b f n (c :: t) = List.replicate (f n) b ++ c :: mapRuns b f 0 t := if_neg hc

lemma mapRuns_replicate_append (b : α) (f : ℕ → ℕ) (k : ℕ) (t : List α) : ∀ n,
    mapRuns b f n (List.replicate k b ++ t) = mapRuns b f (n + k) t := by
  induction k with
  | zero => exact fun _ => rfl
  | succ k ih =>
      intro n
      rw [List.replicate_succ, List.cons_append, mapRuns_cons_self, ih, Nat.add_right_comm,
        Nat.add_assoc]

/-- Maps of runs compose. -/
lemma mapRuns_mapRuns (b : α) (f g : ℕ → ℕ) (t : List α) : ∀ n,
    mapRuns b f 0 (mapRuns b g n t) = mapRuns b (fun n => f (g n)) n t := by
  induction t with
  | nil =>
      intro n
      have h := mapRuns_replicate_append b f (g n) [] 0
      rwa [List.append_nil, Nat.zero_add] at h
  | cons c t ih =>
      intro n
      by_cases hc : c = b
      · rw [hc, mapRuns_cons_self, mapRuns_cons_self, ih]
      · rw [mapRuns_cons_of_ne hc, mapRuns_cons_of_ne hc, mapRuns_replicate_append,
          mapRuns_cons_of_ne hc, ih, Nat.zero_add]

lemma mapRuns_id (b : α) (t : List α) : ∀ n, mapRuns b id n t = List.replicate n b ++ t := by
  induction t with
  | nil => exact fun n => (List.append_nil _).symm
  | cons c t ih =>
      intro n
      by_cases hc : c = b
      · rw [hc, mapRuns_cons_self, ih, List.replicate_succ']
        simp
      · rw [mapRuns_cons_of_ne hc, ih]
        rfl

/-- Other characters stay. -/
lemma mem_mapRuns_of_ne (hc : c ≠ b) (t : List α) : ∀ n, c ∈ mapRuns b f n t ↔ c ∈ t := by
  induction t with
  | nil => simp [hc]
  | cons d t ih =>
      intro n
      by_cases hd : d = b
      · rw [hd, mapRuns_cons_self, ih, List.mem_cons, or_iff_right hc]
      · rw [mapRuns_cons_of_ne hd, List.mem_append, List.mem_cons, List.mem_cons, ih]
        simp [hc]

/-- Runs that get no longer. -/
lemma length_mapRuns_le (hf : ∀ n, f n ≤ n) (t : List α) : ∀ n,
    (mapRuns b f n t).length ≤ n + t.length := by
  induction t with
  | nil =>
      intro n
      rw [mapRuns_nil, List.length_replicate, List.length_nil, Nat.add_zero]
      exact hf n
  | cons c t ih =>
      intro n
      by_cases hc : c = b
      · rw [hc, mapRuns_cons_self, List.length_cons]
        have hrest := ih (n + 1)
        omega
      · rw [mapRuns_cons_of_ne hc, List.length_append, List.length_replicate, List.length_cons,
          List.length_cons]
        have hn := hf n
        have hrest := ih 0
        omega

/-- Nothing is left of a text that is one run which vanishes. -/
lemma mapRuns_eq_nil (t : List α) : ∀ {n},
    mapRuns b f n t = [] ↔ (∀ c ∈ t, c = b) ∧ f (n + t.length) = 0 := by
  induction t with
  | nil => simp
  | cons c t ih =>
      intro n
      by_cases hc : c = b
      · rw [hc, mapRuns_cons_self, ih, List.length_cons, List.forall_mem_cons,
          and_iff_right rfl, Nat.add_right_comm, Nat.add_assoc]
      · rw [mapRuns_cons_of_ne hc]
        simp [hc]

/-- Runs of at most one character. -/
lemma isChain_mapRuns (t : List α) : ∀ {n}, (∀ k ≤ n + t.length, f k ≤ 1) →
    (mapRuns b f n t).IsChain fun x y => ¬(x = b ∧ y = b) := by
  have hrun : ∀ n, f n ≤ 1 → List.replicate (f n) b = [] ∨ List.replicate (f n) b = [b] := by
    intro n hn
    rcases Nat.le_one_iff_eq_zero_or_eq_one.mp hn with h | h
    · exact .inl (by rw [h]; rfl)
    · exact .inr (by rw [h]; rfl)
  induction t with
  | nil =>
      intro n h
      rw [mapRuns_nil]
      rcases hrun n (h n (Nat.le_add_right _ _)) with hn | hn <;> rw [hn]
      · exact List.isChain_nil
      · exact List.isChain_singleton b
  | cons c t ih =>
      intro n h
      rw [List.length_cons] at h
      by_cases hc : c = b
      · rw [hc, mapRuns_cons_self]
        exact ih fun k hk => h k (by omega)
      · have hrest := ih (n := 0) fun k hk => h k (by omega)
        have htail : (c :: mapRuns b f 0 t).IsChain fun x y => ¬(x = b ∧ y = b) :=
          List.isChain_cons.mpr ⟨fun y _ hand => hc hand.1, hrest⟩
        rw [mapRuns_cons_of_ne hc]
        rcases hrun n (h n (Nat.le_add_right _ _)) with hn | hn <;> rw [hn]
        · exact htail
        · exact List.isChain_cons_cons.mpr ⟨fun hand => hc hand.2, htail⟩

/-- Replacing in a run. -/
lemma replace_replicate_self {k : ℕ} (hk : 0 < k) (j n : ℕ) :
    replace (List.replicate k b) (List.replicate j b) (List.replicate n b) =
      List.replicate (n / k * j + n % k) b := by
  have hne : List.replicate k b ≠ [] := by
    rw [Ne, List.replicate_eq_nil_iff]
    omega
  induction n using Nat.strong_induction_on with
  | _ n ih =>
      rcases Nat.lt_or_ge n k with hlt | hge
      · rw [Nat.div_eq_of_lt hlt, Nat.mod_eq_of_lt hlt, Nat.zero_mul, Nat.zero_add]
        refine replace_of_absent fun h => ?_
        have hlen := h.length_le
        rw [List.length_replicate, List.length_replicate] at hlen
        omega
      · obtain ⟨m, rfl⟩ := Nat.exists_eq_add_of_le hge
        rw [List.replicate_add, replace_self_append hne, ih m (by omega), ← List.replicate_add,
          Nat.add_div_left m hk, Nat.add_mod_left, Nat.succ_mul]
        congr 1
        omega

/-- Replacing `k` copies by `j` copies, in a text with a run in front of it. -/
lemma replace_replicate {k : ℕ} (hk : 0 < k) (j : ℕ) (t : List α) : ∀ n,
    replace (List.replicate k b) (List.replicate j b) (List.replicate n b ++ t) =
      mapRuns b (fun n => n / k * j + n % k) n t := by
  have hne : List.replicate k b ≠ [] := by
    rw [Ne, List.replicate_eq_nil_iff]
    omega
  induction t with
  | nil =>
      intro n
      rw [List.append_nil, replace_replicate_self hk, mapRuns_nil]
  | cons c t ih =>
      intro n
      by_cases hc : c = b
      · rw [hc, mapRuns_cons_self, ← ih, List.replicate_succ']
        simp
      · rw [mapRuns_cons_of_ne hc,
          replace_append_cons hne (fun h => hc (List.eq_of_mem_replicate h)),
          replace_replicate_self hk, ← ih 0]
        rfl

end Tokens

end ParrotServe
