import Mathlib.Data.List.Nodup
import Mathlib.Data.Set.Basic
import Mathlib.Data.Set.Insert
import Mathlib.Tactic.Lemma

/-!
# Exceptions and the recycling id pool

`PyError` is the type of the exceptions the modelled code raises: the class, and the message
where the code gives one.  Code that can raise returns `Except PyError`; where the state is
observable after the exception (a pool, an engine), it returns the state next to the result, so
that a partial effect is kept.

`RecyclePool` (`parrot/utils/recycle_pool.py`) hands out integer ids: fresh ones counted up by
`curMaxId`, or freed ones in the order they were freed.  Every id in the system comes from one:
contexts, engines, tasks, graph nodes, and the KV-cache blocks of an engine.

`RecyclePool.Owns p live` is the ownership invariant: `live` is the set of ids handed out and
not yet freed.  `allocate_ok`, `allocate_error` and `free_ok` are the specifications of the two
operations against it; every later proof about a pool goes through them.
-/

namespace ParrotServe

/-- The exceptions raised by the modelled code. -/
inductive PyError
  /-- `ParrotError`, or one of its subclasses. -/
  | parrotError (msg : String)
  /-- A failed `parrot_assert`, i.e. `ParrotError(AssertionError(msg))`. -/
  | parrotAssert (msg : String)
  /-- `ParrotCoreUserError`. -/
  | userError (msg : String)
  /-- A failed `assert` statement. -/
  | assertionError (msg : String)
  /-- `ValueError`. -/
  | valueError (msg : String)
  /-- A missing dictionary key. -/
  | keyError (key : String)
  /-- An index outside a list. -/
  | indexError
  /-- An attribute of `None`. -/
  | attributeError
  /-- An operation on a value of the wrong type. -/
  | typeError
  /-- A local variable read before it is assigned. -/
  | unboundLocalError (name : String)
  /-- `RuntimeError`. -/
  | runtimeError (msg : String)
  /-- `NotImplementedError`. -/
  | notImplementedError (msg : String)
  /-- `ParrotCoreInternalError(e)`, which ends the process. -/
  | internalError (cause : PyError)
  deriving DecidableEq, Repr

/-- `parrot_assert(cond, msg)`. -/
def parrotAssert (cond : Bool) (msg : String) : Except PyError Unit :=
  if cond then .ok () else .error (.parrotAssert msg)

@[simp] lemma parrotAssert_true (msg : String) : parrotAssert true msg = .ok () := rfl

@[simp] lemma parrotAssert_false (msg : String) :
    parrotAssert false msg = .error (.parrotAssert msg) := rfl

/-- The state of a `RecyclePool`. -/
structure RecyclePool where
  poolName : String := "pool"
  poolSize : Option ℕ := none
  allocatedNum : ℤ := 0
  curMaxId : ℕ := 0
  /-- The deque of freed ids, left to right. -/
  freeIds : List ℕ := []
  historyMax : ℤ := 0
  debugMode : Bool := false
  deriving DecidableEq, Repr

namespace RecyclePool

/-- The message of an exhausted pool. -/
def noFreeIds (p : RecyclePool) : PyError :=
  .parrotError ("No free ids in Pool: " ++ p.poolName ++ " (pool_size=" ++
    (p.poolSize.map toString).getD "None" ++ ").")

/-- `self.pool_size is not None and self.cur_max_id >= self.pool_size`. -/
def exceedsSize (p : RecyclePool) : Bool :=
  match p.poolSize with
  | none => false
  | some n => decide (n ≤ p.curMaxId)

/-- Fetch an id.  The counters move before the size check, so they stay moved when it raises. -/
def allocate (p : RecyclePool) : Except PyError ℕ × RecyclePool :=
  let p := { p with allocatedNum := p.allocatedNum + 1 }
  match p.freeIds, p.debugMode with
  | id :: rest, false =>
      let p := { p with freeIds := rest }
      (.ok id, { p with historyMax := max p.historyMax p.allocatedNum })
  | _, _ =>
      let p := { p with curMaxId := p.curMaxId + 1 }
      if p.exceedsSize then (.error p.noFreeIds, p) else (.ok (p.curMaxId - 1), p)

/-- Free an id.  The counter moves before the check that the id is not free already. -/
def free (p : RecyclePool) (id : ℕ) : Except PyError Unit × RecyclePool :=
  let p := { p with allocatedNum := p.allocatedNum - 1 }
  if id ∈ p.freeIds then (.error (.valueError "The id is already free."), p)
  else (.ok (), { p with freeIds := p.freeIds ++ [id] })

/-! ## The ownership invariant -/

/-- `live` is a set of ids that were handed out and not freed. -/
structure Owns (p : RecyclePool) (live : Set ℕ) : Prop where
  /-- Live ids were counted out. -/
  lt_max : ∀ id ∈ live, id < p.curMaxId
  /-- Live ids are not free. -/
  not_free : ∀ id ∈ live, id ∉ p.freeIds
  /-- Freed ids were counted out. -/
  free_lt : ∀ id ∈ p.freeIds, id < p.curMaxId
  /-- No id is free twice. -/
  free_nodup : p.freeIds.Nodup

/-- A new pool owns nothing. -/
lemma owns_empty (name : String) (size : Option ℕ) (debug : Bool) :
    Owns { poolName := name, poolSize := size, debugMode := debug } ∅ where
  lt_max id h := h.elim
  not_free id h := h.elim
  free_lt id h := by simp at h
  free_nodup := List.nodup_nil

/-- Giving up ownership without freeing. -/
lemma Owns.mono {p : RecyclePool} {live live' : Set ℕ} (h : p.Owns live) (hsub : live' ⊆ live) :
    p.Owns live' :=
  ⟨fun id hid => h.lt_max id (hsub hid), fun id hid => h.not_free id (hsub hid), h.free_lt,
    h.free_nodup⟩

/-- The two ways `allocate` succeeds: the oldest freed id, or the next unused one. -/
lemma allocate_cases {p p' : RecyclePool} {id : ℕ} (h : p.allocate = (.ok id, p')) :
    (∃ rest, p.freeIds = id :: rest ∧ p'.freeIds = rest ∧ p'.curMaxId = p.curMaxId) ∨
      (id = p.curMaxId ∧ p'.freeIds = p.freeIds ∧ p'.curMaxId = p.curMaxId + 1) := by
  unfold allocate at h
  dsimp only at h
  split at h
  · rename_i id' rest hfree hdebug
    simp only [Prod.mk.injEq, Except.ok.injEq] at h
    obtain ⟨rfl, rfl⟩ := h
    exact .inl ⟨rest, hfree, rfl, rfl⟩
  · split at h
    · simp at h
    · simp only [Prod.mk.injEq, Except.ok.injEq] at h
      obtain ⟨rfl, rfl⟩ := h
      exact .inr ⟨rfl, rfl, rfl⟩

/-- A raising `allocate` moves the counters only. -/
lemma allocate_error_cases {p p' : RecyclePool} {e : PyError} (h : p.allocate = (.error e, p')) :
    p'.freeIds = p.freeIds ∧ p'.curMaxId = p.curMaxId + 1 := by
  unfold allocate at h
  dsimp only at h
  split at h
  · simp at h
  · split at h
    · simp only [Prod.mk.injEq] at h
      obtain ⟨-, rfl⟩ := h
      exact ⟨rfl, rfl⟩
    · simp at h

/-- A pool without a size never raises on `allocate`. -/
lemma allocate_unbounded {p : RecyclePool} (h : p.poolSize = none) :
    ∃ id p', p.allocate = (.ok id, p') := by
  unfold allocate
  dsimp only
  split
  · exact ⟨_, _, rfl⟩
  · simp [exceedsSize, h]

@[simp] lemma allocate_poolSize (p : RecyclePool) : p.allocate.2.poolSize = p.poolSize := by
  unfold allocate
  dsimp only
  split
  · rfl
  · split <;> rfl

@[simp] lemma free_poolSize (p : RecyclePool) (id : ℕ) : (p.free id).2.poolSize = p.poolSize := by
  unfold free
  dsimp only
  split <;> rfl

/-- `allocate` hands out an id that is not live, and then owns it. -/
lemma Owns.allocate_ok {p p' : RecyclePool} {live : Set ℕ} {id : ℕ} (h : p.Owns live)
    (ha : p.allocate = (.ok id, p')) : id ∉ live ∧ p'.Owns (insert id live) := by
  rcases allocate_cases ha with ⟨rest, hfree, hrest, hmax⟩ | ⟨rfl, hfree, hmax⟩
  · have hid : id ∈ p.freeIds := by rw [hfree]; exact List.mem_cons_self
    have hnodup := h.free_nodup
    rw [hfree, List.nodup_cons] at hnodup
    have hsub : ∀ x ∈ rest, x ∈ p.freeIds := fun x hx => by
      rw [hfree]; exact List.mem_cons_of_mem _ hx
    refine ⟨fun hlive => h.not_free id hlive hid, ⟨?_, ?_, ?_, ?_⟩⟩
    · rintro x (rfl | hx)
      · exact hmax ▸ h.free_lt x hid
      · exact hmax ▸ h.lt_max x hx
    · rintro x (rfl | hx)
      · exact hrest ▸ hnodup.1
      · exact fun hmem => h.not_free x hx (hsub x (hrest ▸ hmem))
    · intro x hx
      exact hmax ▸ h.free_lt x (hsub x (hrest ▸ hx))
    · exact hrest ▸ hnodup.2
  · refine ⟨fun hlive => Nat.lt_irrefl _ (h.lt_max _ hlive), ⟨?_, ?_, ?_, ?_⟩⟩
    · rintro x (rfl | hx)
      · omega
      · have := h.lt_max x hx
        omega
    · rintro x (rfl | hx)
      · rw [hfree]
        exact fun hmem => Nat.lt_irrefl _ (h.free_lt _ hmem)
      · rw [hfree]
        exact h.not_free x hx
    · intro x hx
      have := h.free_lt x (hfree ▸ hx)
      omega
    · exact hfree ▸ h.free_nodup

/-- A raising `allocate` keeps what is owned. -/
lemma Owns.allocate_error {p p' : RecyclePool} {live : Set ℕ} {e : PyError} (h : p.Owns live)
    (ha : p.allocate = (.error e, p')) : p'.Owns live := by
  obtain ⟨hfree, hmax⟩ := allocate_error_cases ha
  refine ⟨fun x hx => ?_, fun x hx => hfree ▸ h.not_free x hx, fun x hx => ?_,
    hfree ▸ h.free_nodup⟩
  · have := h.lt_max x hx
    omega
  · have := h.free_lt x (hfree ▸ hx)
    omega

/-- Freeing a live id succeeds and gives up its ownership. -/
lemma Owns.free_ok {p : RecyclePool} {live : Set ℕ} {id : ℕ} (h : p.Owns live)
    (hid : id ∈ live) :
    (p.free id).1 = .ok () ∧ (p.free id).2.freeIds = p.freeIds ++ [id] ∧
      (p.free id).2.Owns (live \ {id}) := by
  have hnot := h.not_free id hid
  simp only [free, hnot, if_false, true_and]
  refine ⟨fun x hx => h.lt_max x hx.1, fun x hx => ?_, fun x hx => ?_, ?_⟩
  · rw [List.mem_append, List.mem_singleton]
    rintro (hmem | rfl)
    · exact h.not_free x hx.1 hmem
    · exact hx.2 rfl
  · rw [List.mem_append, List.mem_singleton] at hx
    rcases hx with hx | rfl
    · exact h.free_lt x hx
    · exact h.lt_max x hid
  · exact List.nodup_append.mpr ⟨h.free_nodup, List.nodup_singleton _,
      by rintro x hx y hy rfl; exact hnot (List.mem_singleton.mp hy ▸ hx)⟩

/-! ## The live ids -/

/-- The ids handed out and not freed. -/
def liveIds (p : RecyclePool) : Set ℕ := {id | id < p.curMaxId ∧ id ∉ p.freeIds}

lemma mem_liveIds {p : RecyclePool} {id : ℕ} :
    id ∈ p.liveIds ↔ id < p.curMaxId ∧ id ∉ p.freeIds := Iff.rfl

/-- `allocate` makes one more id live. -/
lemma Owns.mem_liveIds_allocate {p p' : RecyclePool} {live : Set ℕ} {id x : ℕ}
    (h : p.Owns live) (ha : p.allocate = (.ok id, p')) :
    x ∈ p'.liveIds ↔ x = id ∨ x ∈ p.liveIds := by
  simp only [mem_liveIds]
  rcases allocate_cases ha with ⟨rest, hfree, hrest, hmax⟩ | ⟨rfl, hfree, hmax⟩
  · have hid : id < p.curMaxId := h.free_lt id (hfree ▸ List.mem_cons_self)
    have hnodup := h.free_nodup
    rw [hfree, List.nodup_cons] at hnodup
    rw [hrest, hmax, hfree, List.mem_cons, not_or]
    by_cases hx : x = id
    · subst hx
      exact iff_of_true ⟨hid, hnodup.1⟩ (.inl rfl)
    · simp [hx]
  · rw [hfree, hmax]
    by_cases hx : x = p.curMaxId
    · subst hx
      exact iff_of_true ⟨Nat.lt_succ_self _, fun hmem => Nat.lt_irrefl _ (h.free_lt _ hmem)⟩
        (.inl rfl)
    · have hlt : x < p.curMaxId + 1 ↔ x < p.curMaxId := by omega
      simp [hx, hlt]

/-- `free` of a live id ends its life, and no other. -/
lemma Owns.mem_liveIds_free {p : RecyclePool} {live : Set ℕ} {id x : ℕ} (h : p.Owns live)
    (hid : id ∈ live) : x ∈ (p.free id).2.liveIds ↔ x ∈ p.liveIds ∧ x ≠ id := by
  have hmax : (p.free id).2.curMaxId = p.curMaxId := by
    unfold free
    dsimp only
    split <;> rfl
  rw [mem_liveIds, mem_liveIds, hmax, (h.free_ok hid).2.1, List.mem_append, List.mem_singleton,
    not_or, and_assoc]

end RecyclePool

end ParrotServe
