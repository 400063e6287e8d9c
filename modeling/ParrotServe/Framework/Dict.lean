import Mathlib.Data.List.Nodup
import Mathlib.Tactic.Lemma

/-!
# Dictionaries in insertion order

A `Dict κ ν` is a finite map whose keys have an order: a new key goes to the end, a key that is
assigned again keeps its place, and removing a key closes the gap.  Iterating over the entries
is iterating in that order.  Distinctness of the keys is a field, so no operation can lose it.

`get?` is characterised by `get?_set`, `get?_erase` and `mem_entries`; the keys by `mem_keys`,
`keys_set` and `keys_erase`.  Proofs about a map built from these operations use those lemmas
and never look at the underlying list, except where the order is the point.

Nothing in this module refers to the repository being modelled.
-/

namespace ParrotServe

universe u v

/-- A map with its keys in the order of insertion. -/
structure Dict (κ : Type u) (ν : Type v) where
  /-- The entries, oldest key first. -/
  entries : List (κ × ν)
  /-- No key has two entries. -/
  nodup : (entries.map Prod.fst).Nodup
  deriving DecidableEq

namespace Dict

variable {κ : Type u} {ν : Type v}

/-- The map without entries. -/
def empty : Dict κ ν := ⟨[], List.nodup_nil⟩

instance : Inhabited (Dict κ ν) := ⟨empty⟩

variable (d : Dict κ ν)

/-- The keys, oldest first. -/
def keys : List κ := d.entries.map Prod.fst

/-- The values, in the order of their keys. -/
def values : List ν := d.entries.map Prod.snd

lemma nodup_keys : d.keys.Nodup := d.nodup

@[simp] lemma keys_empty : (empty : Dict κ ν).keys = [] := rfl

@[simp] lemma values_empty : (empty : Dict κ ν).values = [] := rfl

/-- Two maps with the same entries in the same order. -/
lemma ext {d d' : Dict κ ν} (h : d.entries = d'.entries) : d = d' := by
  cases d
  cases d'
  cases h
  rfl

/-- The map with a function applied to its values. -/
def mapValues {ν' : Type*} (f : ν → ν') : Dict κ ν' where
  entries := d.entries.map fun e => (e.1, f e.2)
  nodup := by
    rw [List.map_map]
    exact d.nodup

@[simp] lemma keys_mapValues {ν' : Type*} (f : ν → ν') : (d.mapValues f).keys = d.keys :=
  List.map_map

variable [DecidableEq κ]

/-- The value of a key. -/
def get? (k : κ) : Option ν := d.entries.lookup k

/-- Assign a key: in place when it is there, at the end otherwise. -/
def set (k : κ) (v : ν) : Dict κ ν where
  entries :=
    if k ∈ d.keys then d.entries.map fun e => if e.1 = k then (e.1, v) else e
    else d.entries ++ [(k, v)]
  nodup := by
    split
    · have hmap : (d.entries.map fun e => if e.1 = k then (e.1, v) else e).map Prod.fst =
          d.entries.map Prod.fst := by
        rw [List.map_map]
        refine List.map_congr_left fun e _ => ?_
        simp only [Function.comp_apply]
        split <;> rfl
      rw [hmap]
      exact d.nodup
    · rename_i hk
      rw [List.map_append, List.nodup_append]
      refine ⟨d.nodup, List.nodup_singleton _, ?_⟩
      rintro x hx y hy rfl
      have hyk : x = k := by simpa using hy
      exact hk (hyk ▸ hx)

/-- Remove a key. -/
def erase (k : κ) : Dict κ ν where
  entries := d.entries.filter fun e => e.1 ≠ k
  nodup := d.nodup.sublist (List.filter_sublist.map _)

/-! ## Lookup -/

@[simp] lemma get?_empty (k : κ) : (empty : Dict κ ν).get? k = none := rfl

/-- In a list of entries with distinct keys, lookup finds exactly the entries. -/
lemma lookup_eq_some_of_nodup {l : List (κ × ν)} (hl : (l.map Prod.fst).Nodup) {k : κ} {v : ν} :
    l.lookup k = some v ↔ (k, v) ∈ l := by
  induction l with
  | nil => simp
  | cons e l ih =>
      obtain ⟨k', v'⟩ := e
      rw [List.map_cons, List.nodup_cons] at hl
      have hrest := ih hl.2
      rw [List.lookup_cons, List.mem_cons]
      by_cases hk : k = k'
      · subst hk
        have hnot : (k, v) ∉ l := fun hmem => hl.1 (List.mem_map.mpr ⟨_, hmem, rfl⟩)
        simp [hnot, eq_comm]
      · have hbeq : (k == k') = false := by simpa using hk
        simp [hbeq, hk, hrest]

/-- The entries of a map are what its lookup finds. -/
lemma mem_entries {k : κ} {v : ν} : (k, v) ∈ d.entries ↔ d.get? k = some v :=
  (lookup_eq_some_of_nodup d.nodup).symm

lemma mem_keys {k : κ} : k ∈ d.keys ↔ ∃ v, d.get? k = some v := by
  constructor
  · intro hk
    obtain ⟨⟨k', v⟩, hmem, rfl⟩ := List.mem_map.mp hk
    exact ⟨v, d.mem_entries.mp hmem⟩
  · rintro ⟨v, hv⟩
    exact List.mem_map_of_mem (d.mem_entries.mpr hv)

lemma mem_keys_of_get? {k : κ} {v : ν} (h : d.get? k = some v) : k ∈ d.keys :=
  d.mem_keys.mpr ⟨v, h⟩

lemma get?_eq_none {k : κ} : d.get? k = none ↔ k ∉ d.keys := by
  rw [mem_keys, not_exists, Option.eq_none_iff_forall_ne_some]

lemma mem_values {v : ν} : v ∈ d.values ↔ ∃ k, d.get? k = some v := by
  constructor
  · intro hv
    obtain ⟨⟨k, v'⟩, hmem, rfl⟩ := List.mem_map.mp hv
    exact ⟨k, d.mem_entries.mp hmem⟩
  · rintro ⟨k, hk⟩
    exact List.mem_map_of_mem (d.mem_entries.mpr hk)

/-! ## Assignment and removal -/

lemma entries_set_of_mem {k : κ} (v : ν) (h : k ∈ d.keys) :
    (d.set k v).entries = d.entries.map fun e => if e.1 = k then (e.1, v) else e :=
  if_pos h

lemma entries_set_of_not_mem {k : κ} (v : ν) (h : k ∉ d.keys) :
    (d.set k v).entries = d.entries ++ [(k, v)] :=
  if_neg h

lemma mem_entries_set {k k' : κ} {v v' : ν} :
    (k', v') ∈ (d.set k v).entries ↔
      (k' = k ∧ v' = v) ∨ (k' ≠ k ∧ (k', v') ∈ d.entries) := by
  by_cases hk : k ∈ d.keys
  · rw [entries_set_of_mem d v hk]
    constructor
    · intro hmem
      obtain ⟨e, he, heq⟩ := List.mem_map.mp hmem
      split at heq
      · rename_i hek
        cases heq
        exact .inl ⟨hek, rfl⟩
      · rename_i hek
        subst heq
        exact .inr ⟨hek, he⟩
    · rintro (⟨rfl, rfl⟩ | ⟨hne, hmem⟩)
      · obtain ⟨e, he, rfl⟩ := List.mem_map.mp hk
        exact List.mem_map.mpr ⟨e, he, by simp⟩
      · exact List.mem_map.mpr ⟨_, hmem, by simp [hne]⟩
  · rw [entries_set_of_not_mem d v hk, List.mem_append, List.mem_singleton, Prod.mk.injEq]
    constructor
    · rintro (hmem | heq)
      · refine .inr ⟨?_, hmem⟩
        rintro rfl
        exact hk (List.mem_map_of_mem hmem)
      · exact .inl heq
    · rintro (heq | ⟨-, hmem⟩)
      · exact .inr heq
      · exact .inl hmem

lemma get?_set (k k' : κ) (v : ν) :
    (d.set k v).get? k' = if k' = k then some v else d.get? k' := by
  apply Option.ext
  intro v'
  rw [← mem_entries, mem_entries_set]
  by_cases hk : k' = k
  · simp [hk, eq_comm]
  · simp [hk, mem_entries]

@[simp] lemma get?_set_self (k : κ) (v : ν) : (d.set k v).get? k = some v := by
  simp [get?_set]

lemma get?_set_ne {k k' : κ} (v : ν) (h : k' ≠ k) : (d.set k v).get? k' = d.get? k' := by
  simp [get?_set, h]

lemma get?_erase (k k' : κ) : (d.erase k).get? k' = if k' = k then none else d.get? k' := by
  apply Option.ext
  intro v'
  rw [← mem_entries]
  by_cases hk : k' = k
  · simp [erase, hk]
  · simp [erase, hk, mem_entries]

@[simp] lemma get?_erase_self (k : κ) : (d.erase k).get? k = none := by
  simp [get?_erase]

lemma get?_erase_ne {k k' : κ} (h : k' ≠ k) : (d.erase k).get? k' = d.get? k' := by
  simp [get?_erase, h]

lemma keys_set_of_mem {k : κ} (v : ν) (h : k ∈ d.keys) : (d.set k v).keys = d.keys := by
  rw [keys, d.entries_set_of_mem v h, List.map_map]
  refine List.map_congr_left fun e _ => ?_
  simp only [Function.comp_apply]
  split <;> rfl

lemma keys_set_of_not_mem {k : κ} (v : ν) (h : k ∉ d.keys) :
    (d.set k v).keys = d.keys ++ [k] := by
  rw [keys, d.entries_set_of_not_mem v h, List.map_append, List.map_singleton]
  rfl

lemma keys_erase (k : κ) : (d.erase k).keys = d.keys.filter (· ≠ k) := by
  simp only [keys, erase]
  rw [List.filter_map]
  congr 1

@[simp] lemma mem_keys_set {k k' : κ} {v : ν} :
    k' ∈ (d.set k v).keys ↔ k' = k ∨ k' ∈ d.keys := by
  by_cases hk : k ∈ d.keys
  · rw [d.keys_set_of_mem v hk]
    constructor
    · exact .inr
    · rintro (rfl | h)
      · exact hk
      · exact h
  · rw [d.keys_set_of_not_mem v hk, List.mem_append, List.mem_singleton, or_comm]

@[simp] lemma mem_keys_erase {k k' : κ} : k' ∈ (d.erase k).keys ↔ k' ∈ d.keys ∧ k' ≠ k := by
  rw [keys_erase, List.mem_filter, decide_eq_true_iff]

/-- A new key's value comes last. -/
lemma values_set_of_not_mem {k : κ} (v : ν) (h : k ∉ d.keys) :
    (d.set k v).values = d.values ++ [v] := by
  rw [values, d.entries_set_of_not_mem v h, List.map_append, List.map_singleton]
  rfl

/-- The values are the value of a key and those of the others. -/
lemma values_perm_erase {k : κ} {v : ν} (h : d.get? k = some v) :
    d.values.Perm (v :: (d.erase k).values) := by
  suffices hent : d.entries.Perm ((k, v) :: (d.erase k).entries) from hent.map Prod.snd
  have hmem := d.mem_entries.mpr h
  have hnodup := d.nodup
  simp only [erase]
  generalize d.entries = l at hmem hnodup
  induction l with
  | nil => exact absurd hmem List.not_mem_nil
  | cons e l ih =>
      rw [List.map_cons, List.nodup_cons] at hnodup
      rcases List.mem_cons.mp hmem with rfl | hl
      · have hrest : l.filter (fun e => e.1 ≠ k) = l := by
          refine List.filter_eq_self.mpr fun e he => decide_eq_true ?_
          rintro rfl
          exact hnodup.1 (List.mem_map.mpr ⟨_, he, rfl⟩)
        rw [List.filter_cons_of_neg (by simp), hrest]
      · have hne : e.1 ≠ k := by
          intro heq
          exact hnodup.1 (List.mem_map.mpr ⟨_, hl, heq.symm⟩)
        rw [List.filter_cons_of_pos (by simpa using hne)]
        exact ((ih hl hnodup.2).cons e).trans (.swap _ _ _)

end Dict

end ParrotServe
