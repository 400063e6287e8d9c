import Mathlib.Algebra.BigOperators.Group.List.Basic
import Mathlib.Data.List.Nodup
import Mathlib.Data.List.Range
import Mathlib.Logic.Function.Basic
import Mathlib.Tactic.Lemma
import Mathlib.Tactic.Ring

/-!
# Strided memory

A dense array lies in memory row by row: `rowMajor` is the offset of an index, with the strides of
the array.  Different indices have different offsets (`rowMajor_injective`), and the offsets of an
array are below its size (`rowMajor_lt`).  An index of 32 bits reaches every element of an array
that is small enough (`elementAt_rowMajor`).

A kernel is a list of stores that many threads perform in an order nobody controls, so its effect is
a relation, `Launched`: the stores are performed in some order.  If no address is stored to twice,
the order does not matter (`Launched.at_store`, `Launched.frame`).

`rangeStep` are the values of a loop with a step.  The loops of all threads that start at their
number and step by the number of threads cover a range once, `flatMap_rangeStep_perm`.

Nothing in this module refers to the repository being modelled.
-/

namespace ParrotServe

universe u

/-! ## Offsets -/

/-- The offset of an index in an array of a shape. -/
def rowMajor : List ℕ → List ℕ → ℕ
  | _ :: shape, i :: idx => i * shape.prod + rowMajor shape idx
  | _, _ => 0

/-- The strides of a shape. -/
def strides : List ℕ → List ℕ
  | [] => []
  | _ :: shape => shape.prod :: strides shape

/-- An index of an array of a shape. -/
def InShape (shape idx : List ℕ) : Prop := List.Forall₂ (· < ·) idx shape

variable {shape idx idx' : List ℕ}

lemma rowMajor_lt (h : InShape shape idx) : rowMajor shape idx < shape.prod := by
  induction h with
  | nil => exact Nat.one_pos
  | @cons i n idx shape hi _ ih =>
      rw [rowMajor, List.prod_cons]
      calc i * shape.prod + rowMajor shape idx < i * shape.prod + shape.prod := by omega
        _ = (i + 1) * shape.prod := by ring
        _ ≤ n * shape.prod := Nat.mul_le_mul_right _ hi

/-- Different indices have different offsets. -/
lemma rowMajor_injective (h : InShape shape idx) (h' : InShape shape idx')
    (heq : rowMajor shape idx = rowMajor shape idx') : idx = idx' := by
  induction h generalizing idx' with
  | nil => exact (List.forall₂_nil_right_iff.mp h').symm
  | @cons i n idx shape hi hidx ih =>
      obtain ⟨j, idx'', hj, hidx', rfl⟩ := List.forall₂_cons_right_iff.mp h'
      have hlt := rowMajor_lt hidx
      have hlt' := rowMajor_lt hidx'
      have hpos : 0 < shape.prod := by omega
      have hdiv : ∀ k r, r < shape.prod → (k * shape.prod + r) / shape.prod = k := fun k r hr => by
        rw [Nat.add_comm, Nat.add_mul_div_right _ _ hpos, Nat.div_eq_of_lt hr, Nat.zero_add]
      rw [rowMajor, rowMajor] at heq
      have hhead : i = j := (hdiv i _ hlt).symm.trans ((congrArg (· / shape.prod) heq).trans
        (hdiv j _ hlt'))
      subst hhead
      rw [ih hidx' (by omega)]

/-! ## Indices of 32 bits -/

/-- `ptr[idx]`, counted in elements: an `int` is extended to the 64 bits of the pointer. -/
def elementAt (base : ℕ) (idx : Int32) : ℕ := (UInt64.ofNat base + idx.toInt64.toUInt64).toNat

lemma elementAt_ofNat {base i : ℕ} (hi : i < 2 ^ 31) (hbase : base + i < 2 ^ 64) :
    elementAt base (Int32.ofNat i) = base + i := by
  have hwide : (Int32.ofNat i).toInt64 = Int64.ofNat i := by
    apply Int64.toInt.inj
    rw [Int32.toInt_toInt64, Int32.toInt_ofNat_of_lt hi, Int64.toInt_ofNat_of_lt (by omega)]
  rw [elementAt, hwide, Int64.toUInt64_ofNat', ← UInt64.ofNat_add, UInt64.toNat_ofNat_of_lt' hbase]

/-- A quotient of small numbers does not wrap. -/
lemma int32_ofNat_div {a b : ℕ} (ha : a < 2 ^ 31) (hb : b < 2 ^ 31) :
    Int32.ofNat a / Int32.ofNat b = Int32.ofNat (a / b) := by
  have hle : a / b ≤ a := Nat.div_le_self a b
  apply Int32.toInt.inj
  rw [Int32.toInt_div, Int32.toInt_ofNat_of_lt ha, Int32.toInt_ofNat_of_lt hb,
    Int32.toInt_ofNat_of_lt (by omega), Int.tdiv_eq_ediv_of_nonneg (by omega), ← Int.natCast_ediv]
  generalize a / b = q at hle
  exact Int.bmod_eq_of_le (by omega) (by omega)

lemma int32_ofNat_mod {a b : ℕ} (ha : a < 2 ^ 31) (hb : b < 2 ^ 31) :
    Int32.ofNat a % Int32.ofNat b = Int32.ofNat (a % b) := by
  have hle : a % b ≤ a := Nat.mod_le a b
  apply Int32.toInt.inj
  rw [Int32.toInt_mod, Int32.toInt_ofNat_of_lt ha, Int32.toInt_ofNat_of_lt hb,
    Int32.toInt_ofNat_of_lt (by omega), Int.tmod_eq_emod_of_nonneg (by omega), ← Int.natCast_emod]

/-- An element of a part of an array, whose index in the part has 32 bits. -/
lemma elementAt_rowMajor {n i : ℕ} (hi : i < n) (h : InShape shape idx)
    (hpart : shape.prod < 2 ^ 31) (hall : n * shape.prod ≤ 2 ^ 64) :
    elementAt (i * shape.prod) (Int32.ofNat (rowMajor shape idx)) =
      rowMajor (n :: shape) (i :: idx) := by
  have hlt : rowMajor (n :: shape) (i :: idx) < (n :: shape).prod := rowMajor_lt (.cons hi h)
  rw [List.prod_cons, rowMajor] at hlt
  rw [elementAt_ofNat ((rowMajor_lt h).trans hpart) (by omega), rowMajor]

/-! ## Loops -/

/-- The values of a loop from `start` to `stop` with a step. -/
def rangeStep (start stop step : ℕ) : List ℕ :=
  List.range' start ((stop - start + step - 1) / step) step

lemma mem_rangeStep {start stop step i : ℕ} (hstep : 0 < step) :
    i ∈ rangeStep start stop step ↔ start ≤ i ∧ i < stop ∧ i % step = start % step := by
  rw [rangeStep, List.mem_range']
  constructor
  · rintro ⟨k, hk, rfl⟩
    have hk' : (k + 1) * step ≤ stop - start + step - 1 :=
      (Nat.le_div_iff_mul_le hstep).mp hk
    rw [Nat.add_mul, Nat.one_mul, Nat.mul_comm] at hk'
    refine ⟨Nat.le_add_right _ _, by omega, Nat.add_mul_mod_self_left _ _ _⟩
  · rintro ⟨hle, hlt, hmod⟩
    obtain ⟨k, hk⟩ := Nat.dvd_of_mod_eq_zero (Nat.sub_mod_eq_zero_of_mod_eq hmod)
    refine ⟨k, ?_, by omega⟩
    rw [Nat.lt_iff_add_one_le, Nat.le_div_iff_mul_le hstep, Nat.add_mul, Nat.one_mul, Nat.mul_comm]
    omega

lemma nodup_rangeStep {start stop step : ℕ} (hstep : 0 < step) :
    (rangeStep start stop step).Nodup := List.nodup_range' step hstep

/-- The loops of all threads cover a range once. -/
lemma flatMap_rangeStep_perm {threads : ℕ} (hthreads : 0 < threads) (n : ℕ) :
    ((List.range threads).flatMap fun t => rangeStep t n threads).Perm (List.range n) := by
  refine (List.perm_ext_iff_of_nodup ?_ List.nodup_range).mpr fun i => ?_
  · refine List.nodup_flatMap.mpr ⟨fun t _ => nodup_rangeStep hthreads, ?_⟩
    refine List.nodup_range.imp_of_mem fun {t t'} ht ht' hne => ?_
    rw [List.mem_range] at ht ht'
    rintro i hi hi'
    rw [mem_rangeStep hthreads] at hi hi'
    rw [Nat.mod_eq_of_lt ht] at hi
    rw [Nat.mod_eq_of_lt ht'] at hi'
    exact hne (hi.2.2.symm.trans hi'.2.2)
  · simp only [List.mem_flatMap, List.mem_range, mem_rangeStep hthreads]
    constructor
    · rintro ⟨t, -, -, hlt, -⟩
      exact hlt
    · intro hlt
      exact ⟨i % threads, Nat.mod_lt _ hthreads, Nat.mod_le _ _, hlt, (Nat.mod_mod _ _).symm⟩

/-! ## Stores -/

variable {α : Type u} {mem mem' : ℕ → α} {stores : List (ℕ × α)} {addr : ℕ} {a : α}

/-- Stores, one behind the other. -/
def scatter (mem : ℕ → α) (stores : List (ℕ × α)) : ℕ → α :=
  stores.foldl (fun mem store => Function.update mem store.1 store.2) mem

lemma scatter_of_notMem (h : addr ∉ stores.map Prod.fst) : scatter mem stores addr = mem addr := by
  induction stores generalizing mem with
  | nil => rfl
  | cons store stores ih =>
      rw [List.map_cons, List.mem_cons, not_or] at h
      exact (ih h.2).trans (Function.update_of_ne h.1 _ _)

lemma scatter_of_mem (hnodup : (stores.map Prod.fst).Nodup) (h : (addr, a) ∈ stores) :
    scatter mem stores addr = a := by
  induction stores generalizing mem with
  | nil => cases h
  | cons store stores ih =>
      obtain ⟨hhead, hnodup⟩ := List.nodup_cons.mp hnodup
      rcases List.mem_cons.mp h with rfl | h
      · exact (scatter_of_notMem hhead).trans (Function.update_self _ _ _)
      · exact ih hnodup h

/-- The threads of a kernel performed their stores, in some order. -/
def Launched (stores : List (ℕ × α)) (mem mem' : ℕ → α) : Prop :=
  ∃ order : List (ℕ × α), order.Perm stores ∧ mem' = scatter mem order

/-- What was stored, if nobody else stores there. -/
lemma Launched.at_store (h : Launched stores mem mem') (hnodup : (stores.map Prod.fst).Nodup)
    (hmem : (addr, a) ∈ stores) : mem' addr = a := by
  obtain ⟨order, hperm, rfl⟩ := h
  exact scatter_of_mem ((hperm.map _).nodup_iff.mpr hnodup) (hperm.mem_iff.mpr hmem)

/-- Everything else stays. -/
lemma Launched.frame (h : Launched stores mem mem') (hmem : addr ∉ stores.map Prod.fst) :
    mem' addr = mem addr := by
  obtain ⟨order, hperm, rfl⟩ := h
  exact scatter_of_notMem fun h => hmem ((hperm.map _).mem_iff.mp h)

/-- A family of stores with different addresses. -/
lemma nodup_addresses {ι : Type*} {indices : List ι} (address : ι → ℕ) {value : ι → α}
    (hnodup : indices.Nodup)
    (hinj : ∀ i ∈ indices, ∀ j ∈ indices, address i = address j → i = j) :
    ((indices.map fun i => (address i, value i)).map Prod.fst).Nodup := by
  rw [List.map_map]
  exact hnodup.map_on fun i hi j hj h => hinj i hi j hj h

end ParrotServe
