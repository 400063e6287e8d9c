import ParrotServe.Framework.TransitionSystem
import ParrotServe.Model.RecyclePool
import Mathlib.Data.List.Count

/-!
# Histories of an id pool

A pool is driven by calls of `allocate` and `free` in any order.  A `PoolHistory` is the pool with
a record of what happened, which the pool itself does not keep: the ids that were returned and not
freed since, how many calls raised, and the largest numbers of live ids.

When only live ids are freed, the ids in the queue and the live ids are apart (`PoolSafe`), however
many allocations raised, so that no live id is returned: `allocate_not_live`.

The size is tested after `curMaxId` is moved, with `>=`.  The last id of a pool is therefore never
handed out, and `allocate` raises when one id less is live than the pool has:
`allocate_raises_iff`.

The counters are moved before the tests that can raise, and `historyMax` only when a freed id is
reused.  `PoolAccounts` says what they count then, over any calls, and `pool_accounting` when that
is what their names say.
-/

namespace ParrotServe

open TransitionSystem

/-- A call of a pool. -/
inductive PoolCall
  | allocate
  | free (id : ℕ)
  deriving DecidableEq, Repr

/-- A pool with what happened to it. -/
structure PoolHistory where
  pool : RecyclePool
  /-- The ids returned and not freed since. -/
  live : List ℕ := []
  failedAllocates : ℕ := 0
  failedFrees : ℕ := 0
  /-- Frees of ids that were not live, and did not raise. -/
  strayFrees : ℕ := 0
  /-- The largest number of live ids so far. -/
  peak : ℕ := 0
  /-- The largest number of live ids, and of ids that the counter has lost, right after a freed id
  was reused. -/
  refill : ℤ := 0
  deriving DecidableEq, Repr

namespace PoolHistory

variable (h : PoolHistory)

/-- Calls that move the counter of the pool but not the number of live ids. -/
def drift : ℤ := h.failedAllocates - h.failedFrees - h.strayFrees

/-- Record an allocation. -/
def afterAllocate : PoolHistory :=
  match h.pool.allocate with
  | (.error _, pool) => { h with pool, failedAllocates := h.failedAllocates + 1 }
  | (.ok id, pool) => { h with
      pool
      live := id :: h.live
      peak := max h.peak (h.live.length + 1)
      refill := if h.pool.freeIds = [] then h.refill
        else max h.refill (h.live.length + 1 + h.drift) }

/-- Record a free. -/
def afterFree (id : ℕ) : PoolHistory :=
  match h.pool.free id with
  | (.error _, pool) => { h with pool, failedFrees := h.failedFrees + 1 }
  | (.ok _, pool) =>
      if id ∈ h.live then { h with pool, live := h.live.erase id }
      else { h with pool, strayFrees := h.strayFrees + 1 }

/-- Record a call. -/
def after : PoolCall → PoolHistory
  | .allocate => h.afterAllocate
  | .free id => h.afterFree id

/-- A call that frees nothing but live ids. -/
def FreesLive (h : PoolHistory) (c : PoolCall) : Prop := ∀ id, c = .free id → id ∈ h.live

end PoolHistory

/-- The calls of a new pool. -/
def poolCalls (name : String) (size : Option ℕ) (debug : Bool) :
    TransitionSystem PoolHistory PoolCall :=
  ofFun { pool := { poolName := name, poolSize := size, debugMode := debug } } (fun _ _ => True)
    PoolHistory.after

/-! ## Live ids -/

/-- The ids that a successful allocation can return. -/
lemma RecyclePool.allocate_lt {p p' : RecyclePool} {id n : ℕ} (h : p.allocate = (.ok id, p'))
    (hsize : p.poolSize = some n) (hfree : ∀ x ∈ p.freeIds, x < n) : id < n := by
  unfold allocate at h
  dsimp only at h
  split at h
  · rename_i hids _
    obtain rfl := Except.ok.inj (Prod.mk.inj h).1
    exact hfree _ (hids ▸ List.mem_cons_self)
  · split at h
    · cases (Prod.mk.inj h).1
    · rename_i hsmall
      obtain rfl := Except.ok.inj (Prod.mk.inj h).1
      simp only [exceedsSize, hsize, decide_eq_true_eq] at hsmall
      omega

/-- The queue and the live ids are apart, and below the size. -/
structure PoolSafe (size : Option ℕ) (h : PoolHistory) : Prop where
  owns : h.pool.Owns {id | id ∈ h.live}
  nodup : h.live.Nodup
  size_eq : h.pool.poolSize = size
  below : ∀ n, size = some n → ∀ id, id ∈ h.live ∨ id ∈ h.pool.freeIds → id < n

namespace PoolSafe

variable {size : Option ℕ} {h : PoolHistory}

/-- An id that is returned. -/
lemma allocate_ok (hs : PoolSafe size h) {id : ℕ} {p : RecyclePool}
    (ha : h.pool.allocate = (.ok id, p)) :
    id ∉ h.live ∧ ∀ n, size = some n → id < n :=
  ⟨(hs.owns.allocate_ok ha).1, fun n hn => RecyclePool.allocate_lt ha (hs.size_eq.trans hn)
    fun x hx => hs.below n hn x (.inr hx)⟩

lemma afterAllocate (hs : PoolSafe size h) : PoolSafe size h.afterAllocate := by
  have hsize : ∀ {r p}, h.pool.allocate = (r, p) → p.poolSize = size := by
    intro r p ha
    rw [← hs.size_eq, ← h.pool.allocate_poolSize, ha]
  unfold PoolHistory.afterAllocate
  split
  · rename_i e p ha
    refine ⟨hs.owns.allocate_error ha, hs.nodup, hsize ha, fun n hn id hid => ?_⟩
    rw [(RecyclePool.allocate_error_cases ha).1] at hid
    exact hs.below n hn id hid
  · rename_i id p ha
    obtain ⟨hnot, hlt⟩ := hs.allocate_ok ha
    refine ⟨?_, List.nodup_cons.mpr ⟨hnot, hs.nodup⟩, hsize ha, fun n hn x hx => ?_⟩
    · exact (hs.owns.allocate_ok ha).2.mono fun x hx => List.mem_cons.mp hx
    · rcases hx with hx | hx
      · rcases List.mem_cons.mp hx with rfl | hx
        · exact hlt n hn
        · exact hs.below n hn x (.inl hx)
      · refine hs.below n hn x (.inr ?_)
        rcases RecyclePool.allocate_cases ha with ⟨rest, hids, hrest, -⟩ | ⟨-, hids, -⟩
        · rw [hids]
          exact List.mem_cons_of_mem id (hrest ▸ hx)
        · exact hids ▸ hx

/-- Freeing a live id. -/
lemma free_eq (hs : PoolSafe size h) {id : ℕ} (hid : id ∈ h.live) :
    h.afterFree id = { h with pool := (h.pool.free id).2, live := h.live.erase id } := by
  have hok := (hs.owns.free_ok hid).1
  unfold PoolHistory.afterFree
  split
  · rename_i e p hfree
    rw [hfree] at hok
    cases hok
  · rename_i p hfree
    rw [if_pos hid, hfree]

lemma afterFree (hs : PoolSafe size h) {id : ℕ} (hid : id ∈ h.live) :
    PoolSafe size (h.afterFree id) := by
  obtain ⟨-, hids, howns⟩ := hs.owns.free_ok hid
  rw [hs.free_eq hid]
  refine ⟨howns.mono fun x hx => ?_, hs.nodup.erase id, ?_, fun n hn x hx => ?_⟩
  · obtain ⟨hne, hx⟩ := hs.nodup.mem_erase_iff.mp hx
    exact ⟨hx, hne⟩
  · exact (RecyclePool.free_poolSize _ _).trans hs.size_eq
  · rw [hids, List.mem_append, List.mem_singleton] at hx
    rcases hx with hx | hx | rfl
    · exact hs.below n hn x (.inl (List.mem_of_mem_erase hx))
    · exact hs.below n hn x (.inr hx)
    · exact hs.below n hn x (.inl hid)

end PoolSafe

/-- No call that frees live ids breaks the pool. -/
lemma poolSafe_invariant (name : String) (size : Option ℕ) (debug : Bool) :
    (poolCalls name size debug).IsInvariantUnder PoolHistory.FreesLive (PoolSafe size) where
  init := by
    rintro h rfl
    exact ⟨(RecyclePool.owns_empty name size debug).mono fun x hx => absurd hx List.not_mem_nil,
      List.nodup_nil, rfl, fun n _ id hid => by simp at hid⟩
  step := by
    rintro h c h' hs hlive ⟨-, rfl⟩
    cases c with
    | allocate => exact hs.afterAllocate
    | free id => exact hs.afterFree (hlive id rfl)

/-- **A pool never returns a live id.** -/
theorem allocate_not_live (name : String) (size : Option ℕ) (debug : Bool) (h : PoolHistory)
    (hr : (poolCalls name size debug).ReachableUnder PoolHistory.FreesLive h) :
    (∀ id p, h.pool.allocate = (.ok id, p) → id ∉ h.live ∧ ∀ n, size = some n → id < n) ∧
      h.pool.freeIds.Nodup ∧ ∀ id ∈ h.live, id ∉ h.pool.freeIds := by
  have hs := (poolSafe_invariant name size debug).holds hr
  exact ⟨fun id p ha => hs.allocate_ok ha, hs.owns.free_nodup, hs.owns.not_free⟩

/-- A history of calls that can be made one after another is a run. -/
lemma poolCalls_run {name : String} {size : Option ℕ} {debug : Bool}
    {guard : PoolHistory → PoolCall → Prop} (cs : List PoolCall)
    (hcs : Performs (fun _ _ => True) guard PoolHistory.after
      { pool := { poolName := name, poolSize := size, debugMode := debug } } cs) :
    (poolCalls name size debug).ReachableUnder guard (cs.foldl PoolHistory.after
      { pool := { poolName := name, poolSize := size, debugMode := debug } }) :=
  ReachableUnder.foldl cs (.init rfl) hcs

instance (h : PoolHistory) (c : PoolCall) : Decidable (h.FreesLive c) :=
  match c with
  | .allocate => .isTrue fun _ hc => by cases hc
  | .free id => decidable_of_iff (id ∈ h.live)
      ⟨fun hid _ hc => PoolCall.free.inj hc ▸ hid, fun hall => hall id rfl⟩

/-- A small pool, behind an allocation that raised and a free. -/
theorem allocate_not_live_at : ∃ h : PoolHistory,
    h.live = [1] ∧ h.failedAllocates = 1 ∧ h.pool.freeIds = [0] ∧
      (∀ id p, h.pool.allocate = (.ok id, p) → id ∉ h.live ∧ ∀ n, some 3 = some n → id < n) ∧
        h.pool.freeIds.Nodup ∧ ∀ id ∈ h.live, id ∉ h.pool.freeIds :=
  ⟨_, rfl, rfl, rfl, allocate_not_live "pool" (some 3) false _
    (poolCalls_run [.allocate, .allocate, .allocate, .free 0] (by decide))⟩

/-! ## Capacity -/

/-- What `allocate` does without debugging. -/
lemma RecyclePool.allocate_spec {p : RecyclePool} (hdebug : p.debugMode = false) :
    (∃ id rest, p.freeIds = id :: rest ∧ p.allocate = (.ok id, { p with
        allocatedNum := p.allocatedNum + 1
        freeIds := rest
        historyMax := max p.historyMax (p.allocatedNum + 1) })) ∨
      p.freeIds = [] ∧ (∀ n, p.poolSize = some n → p.curMaxId + 1 < n) ∧
        p.allocate = (.ok p.curMaxId, { p with
          allocatedNum := p.allocatedNum + 1
          curMaxId := p.curMaxId + 1 }) ∨
      ∃ n, p.freeIds = [] ∧ p.poolSize = some n ∧ n ≤ p.curMaxId + 1 ∧
        p.allocate = (.error p.noFreeIds, { p with
          allocatedNum := p.allocatedNum + 1
          curMaxId := p.curMaxId + 1 }) := by
  cases hids : p.freeIds with
  | cons id rest =>
      refine .inl ⟨id, rest, rfl, ?_⟩
      rw [allocate, hids, hdebug]
  | nil =>
      right
      cases hsize : p.poolSize with
      | none =>
          refine .inl ⟨rfl, fun n hn => absurd hn (by simp), ?_⟩
          simp [allocate, hids, exceedsSize, hsize]
      | some n =>
          by_cases hn : n ≤ p.curMaxId + 1
          · refine .inr ⟨n, rfl, rfl, hn, ?_⟩
            simp [allocate, hids, exceedsSize, hsize, hn, noFreeIds]
          · refine .inl ⟨rfl, fun m hm => ?_, ?_⟩
            · obtain rfl := Option.some.inj hm
              omega
            · simp [allocate, hids, exceedsSize, hsize, hn]

/-- Where the ids of a pool of this size are, without debugging. -/
structure PoolCounts (size : ℕ) (h : PoolHistory) : Prop where
  debug : h.pool.debugMode = false
  counted : h.live.length + h.pool.freeIds.length + h.failedAllocates = h.pool.curMaxId
  bounded : h.live.length + h.pool.freeIds.length ≤ size - 1
  /-- Only a pool of which all ids but one are in use raises. -/
  exhausted : 0 < h.failedAllocates → h.live.length + h.pool.freeIds.length = size - 1

namespace PoolCounts

variable {size : ℕ} {h : PoolHistory}

/-- An allocation raises exactly when all ids but one are live. -/
lemma raises_iff (hc : PoolCounts size h) (hs : PoolSafe (some size) h) :
    (∃ e p, h.pool.allocate = (.error e, p)) ↔ h.live.length = size - 1 := by
  have hcounted := hc.counted
  have hbounded := hc.bounded
  rcases RecyclePool.allocate_spec hc.debug with
    ⟨id, rest, hids, ha⟩ | ⟨hids, hsmall, ha⟩ | ⟨n, hids, hsize, hn, ha⟩
  · rw [hids, List.length_cons] at hbounded
    exact iff_of_false (by simp [ha]) (by omega)
  · have hlt := hsmall size hs.size_eq
    rw [hids, List.length_nil] at hcounted
    exact iff_of_false (by simp [ha]) (by omega)
  · obtain rfl : n = size := Option.some.inj (hsize.symm.trans hs.size_eq)
    have hexhausted := hc.exhausted
    rw [hids, List.length_nil] at hcounted hbounded hexhausted
    exact iff_of_true ⟨_, _, ha⟩ (by omega)

lemma afterAllocate (hc : PoolCounts size h) (hs : PoolSafe (some size) h) :
    PoolCounts size h.afterAllocate := by
  have hraises := hc.raises_iff hs
  obtain ⟨hdebug, hcounted, hbounded, hexhausted⟩ := hc
  rcases RecyclePool.allocate_spec hdebug with
    ⟨id, rest, hids, ha⟩ | ⟨hids, hsmall, ha⟩ | ⟨n, hids, hsize, hn, ha⟩
  · rw [hids, List.length_cons] at hcounted hbounded hexhausted
    rw [PoolHistory.afterAllocate, ha]
    refine ⟨hdebug, ?_, ?_, fun hpos => ?_⟩ <;> simp only [List.length_cons]
    · omega
    · omega
    · have hex := hexhausted hpos
      omega
  · have hlt := hsmall size hs.size_eq
    rw [hids, List.length_nil] at hcounted hbounded hexhausted
    rw [PoolHistory.afterAllocate, ha]
    refine ⟨hdebug, ?_, ?_, fun hpos => ?_⟩ <;> simp only [List.length_cons, hids, List.length_nil]
    · omega
    · omega
    · have hex := hexhausted hpos
      omega
  · have hlive := hraises.mp ⟨_, _, ha⟩
    rw [hids, List.length_nil] at hcounted
    rw [PoolHistory.afterAllocate, ha]
    refine ⟨hdebug, ?_, ?_, fun _ => ?_⟩ <;> simp only [hids, List.length_nil] <;> omega

lemma afterFree (hc : PoolCounts size h) (hs : PoolSafe (some size) h) {id : ℕ}
    (hid : id ∈ h.live) : PoolCounts size (h.afterFree id) := by
  obtain ⟨hdebug, hcounted, hbounded, hexhausted⟩ := hc
  have hnot := hs.owns.not_free id hid
  have hlen := List.length_erase_add_one hid
  rw [hs.free_eq hid, RecyclePool.free]
  simp only [hnot, if_false]
  refine ⟨hdebug, ?_, ?_, fun hpos => ?_⟩ <;> simp only [List.length_append, List.length_singleton]
  · omega
  · omega
  · have hex := hexhausted hpos
    omega

end PoolCounts

/-- The ids of a pool, over all calls that free live ids. -/
lemma poolCounts_invariant (name : String) (size : ℕ) :
    (poolCalls name (some size) false).IsInvariantUnder PoolHistory.FreesLive
      fun h => PoolSafe (some size) h ∧ PoolCounts size h :=
  (poolSafe_invariant name (some size) false).and
    (by
      rintro h rfl
      exact ⟨rfl, rfl, Nat.zero_le _, fun hpos => absurd hpos (Nat.lt_irrefl 0)⟩)
    (by
      rintro h c h' hs hc hlive ⟨-, rfl⟩
      cases c with
      | allocate => exact hc.afterAllocate hs
      | free id => exact hc.afterFree hs (hlive id rfl))

/-- **A pool raises one id too early.** -/
theorem allocate_raises_iff (name : String) (size : ℕ) (h : PoolHistory)
    (hr : (poolCalls name (some size) false).ReachableUnder PoolHistory.FreesLive h) :
    ((∃ e p, h.pool.allocate = (.error e, p)) → h.live.length = size) ↔
      size = 0 ∨ h.live.length + 1 ≠ size := by
  obtain ⟨hs, hc⟩ := (poolCounts_invariant name size).holds hr
  rw [hc.raises_iff hs]
  omega

/-- A pool of two ids with one live id raises. -/
theorem allocate_raises_early : ∃ h : PoolHistory,
    (poolCalls "pool" (some 2) false).ReachableUnder PoolHistory.FreesLive h ∧
      (∃ e p, h.pool.allocate = (.error e, p)) ∧ h.live.length = 1 :=
  ⟨_, poolCalls_run [.allocate] (by decide), ⟨_, _, rfl⟩, rfl⟩

/-- In a pool of two ids, after one of them was freed. -/
theorem allocate_raises_iff_at : ∃ h : PoolHistory, h.live = [] ∧ h.pool.freeIds = [0] ∧
    (((∃ e p, h.pool.allocate = (.error e, p)) → h.live.length = 2) ↔
      2 = 0 ∨ h.live.length + 1 ≠ 2) :=
  ⟨_, rfl, rfl, allocate_raises_iff "pool" 2 _
    (poolCalls_run [.allocate, .free 0] (by decide))⟩

/-! ## Accounting -/

/-- What the counters of a pool count, without debugging and over any calls. -/
structure PoolAccounts (h : PoolHistory) : Prop where
  debug : h.pool.debugMode = false
  allocated : h.pool.allocatedNum = h.live.length + h.drift
  historyMax : h.pool.historyMax = h.refill

namespace PoolAccounts

variable {h : PoolHistory}

lemma afterAllocate (ha : PoolAccounts h) : PoolAccounts h.afterAllocate := by
  obtain ⟨hdebug, hallocated, hmax⟩ := ha
  rw [PoolHistory.drift] at hallocated
  rcases RecyclePool.allocate_spec hdebug with
    ⟨id, rest, hids, ha⟩ | ⟨hids, -, ha⟩ | ⟨n, hids, -, -, ha⟩
  · rw [PoolHistory.afterAllocate, ha]
    refine ⟨hdebug, ?_, ?_⟩
    · simp only [PoolHistory.drift, List.length_cons]
      omega
    · have hne : h.pool.freeIds ≠ [] := by simp [hids]
      simp only [if_neg hne, PoolHistory.drift, hmax, hallocated]
      congr 1
      omega
  · rw [PoolHistory.afterAllocate, ha]
    refine ⟨hdebug, ?_, by simp only [if_pos hids, hmax]⟩
    simp only [PoolHistory.drift, List.length_cons]
    omega
  · rw [PoolHistory.afterAllocate, ha]
    refine ⟨hdebug, ?_, hmax⟩
    simp only [PoolHistory.drift]
    omega

lemma afterFree (ha : PoolAccounts h) (id : ℕ) : PoolAccounts (h.afterFree id) := by
  obtain ⟨hdebug, hallocated, hmax⟩ := ha
  rw [PoolHistory.drift] at hallocated
  by_cases hfree : id ∈ h.pool.freeIds
  · rw [PoolHistory.afterFree, RecyclePool.free, if_pos hfree]
    refine ⟨hdebug, ?_, hmax⟩
    simp only [PoolHistory.drift]
    omega
  · rw [PoolHistory.afterFree, RecyclePool.free, if_neg hfree]
    simp only
    split_ifs with hlive
    · have hlen := List.length_erase_add_one hlive
      refine ⟨hdebug, ?_, hmax⟩
      simp only [PoolHistory.drift]
      omega
    · refine ⟨hdebug, ?_, hmax⟩
      simp only [PoolHistory.drift]
      omega

end PoolAccounts

/-- The counters of a pool, over all calls. -/
lemma poolAccounts_invariant (name : String) (size : Option ℕ) :
    (poolCalls name size false).IsInvariantUnder (fun _ _ => True) PoolAccounts where
  init := by
    rintro h rfl
    exact ⟨rfl, rfl, rfl⟩
  step := by
    rintro h c h' ha - ⟨-, rfl⟩
    cases c with
    | allocate => exact ha.afterAllocate
    | free id => exact ha.afterFree id

/-- A raising call moves the counter. -/
lemma allocate_unchanged_iff {p : RecyclePool} (hdebug : p.debugMode = false) :
    (∀ e p', p.allocate = (.error e, p') → p' = p) ↔ ∃ id p', p.allocate = (.ok id, p') := by
  rcases RecyclePool.allocate_spec hdebug with
    ⟨id, rest, hids, ha⟩ | ⟨hids, hsmall, ha⟩ | ⟨n, hids, hsize, hn, ha⟩
  · exact iff_of_true (by simp [ha]) ⟨_, _, ha⟩
  · exact iff_of_true (by simp [ha]) ⟨_, _, ha⟩
  · refine iff_of_false (fun h => ?_) (by simp [ha])
    have hnum := congrArg RecyclePool.allocatedNum (h _ _ ha)
    simp only at hnum
    omega

lemma free_unchanged_iff (p : RecyclePool) (id : ℕ) :
    (∀ e p', p.free id = (.error e, p') → p' = p) ↔ ∃ p', p.free id = (.ok (), p') := by
  by_cases hfree : id ∈ p.freeIds
  · have hspec : p.free id = (.error (.valueError "The id is already free."),
        { p with allocatedNum := p.allocatedNum - 1 }) := if_pos hfree
    refine iff_of_false (fun h => ?_) (by simp [hspec])
    have hnum := congrArg RecyclePool.allocatedNum (h _ _ hspec)
    simp only at hnum
    omega
  · have hspec : p.free id = (.ok (), { p with
        allocatedNum := p.allocatedNum - 1
        freeIds := p.freeIds ++ [id] }) := if_neg hfree
    exact iff_of_true (by simp [hspec]) ⟨_, hspec⟩

/-- **When the accounting of a pool is exact.** -/
theorem pool_accounting (name : String) (size : Option ℕ) (h : PoolHistory)
    (hr : (poolCalls name size false).Reachable h) :
    ((∀ e p, h.pool.allocate = (.error e, p) → p = h.pool) ↔
      ∃ id p, h.pool.allocate = (.ok id, p)) ∧
    (∀ id, (∀ e p, h.pool.free id = (.error e, p) → p = h.pool) ↔
      ∃ p, h.pool.free id = (.ok (), p)) ∧
    (h.pool.allocatedNum = h.live.length ↔ h.failedAllocates = h.failedFrees + h.strayFrees) ∧
    (h.pool.historyMax = h.peak ↔ h.refill = h.peak) := by
  have ha := (poolAccounts_invariant name size).holds hr
  refine ⟨allocate_unchanged_iff ha.debug, free_unchanged_iff h.pool, ?_, by rw [ha.historyMax]⟩
  rw [ha.allocated, PoolHistory.drift]
  omega

/-- An id that is returned first is not in the maximum, and an exhausted pool counts an id that it
did not return. -/
theorem pool_accounting_fails :
    (∃ h, (poolCalls "pool" none false).Reachable h ∧ h.live.length = 1 ∧ h.peak = 1 ∧
      h.pool.historyMax = 0) ∧
    ∃ h, (poolCalls "pool" (some 1) false).Reachable h ∧
      (∃ e p, h.pool.allocate = (.error e, p) ∧ p ≠ h.pool) ∧
        h.afterAllocate.pool.allocatedNum = 1 ∧ h.afterAllocate.live = [] :=
  ⟨⟨_, poolCalls_run [.allocate] (by decide), rfl, rfl, rfl⟩,
    _, poolCalls_run [] trivial, ⟨_, _, rfl, by decide⟩, rfl, rfl⟩

/-- After an id was reused the maximum is right, until the next fresh one. -/
theorem pool_accounting_at : ∃ h : PoolHistory, h.live = [0] ∧ h.refill = 1 ∧ h.peak = 1 ∧
    ((∀ e p, h.pool.allocate = (.error e, p) → p = h.pool) ↔
      ∃ id p, h.pool.allocate = (.ok id, p)) ∧
    (∀ id, (∀ e p, h.pool.free id = (.error e, p) → p = h.pool) ↔
      ∃ p, h.pool.free id = (.ok (), p)) ∧
    (h.pool.allocatedNum = h.live.length ↔ h.failedAllocates = h.failedFrees + h.strayFrees) ∧
    (h.pool.historyMax = h.peak ↔ h.refill = h.peak) :=
  ⟨_, rfl, rfl, rfl, pool_accounting "pool" (some 4) _
    (poolCalls_run [.allocate, .free 0, .allocate] (by decide))⟩

/-! ## Runs without errors -/

/-- A call that frees nothing but live ids, and does not find the pool exhausted. -/
def PoolHistory.Quiet (h : PoolHistory) (c : PoolCall) : Prop :=
  h.FreesLive c ∧ (c = .allocate → ∃ id p, h.pool.allocate = (.ok id, p))

/-- What the counters do in a run without errors. -/
structure PoolQuiet (h : PoolHistory) : Prop where
  drift : h.drift = 0
  live_le : h.live.length ≤ h.peak
  refill_le : h.refill ≤ h.peak

lemma poolQuiet_invariant (name : String) (size : Option ℕ) :
    (poolCalls name size false).IsInvariantUnder PoolHistory.Quiet
      fun h => PoolSafe size h ∧ PoolQuiet h := by
  have hsafe := poolSafe_invariant name size false
  have hquiet : (poolCalls name size false).IsInvariantUnder PoolHistory.Quiet (PoolSafe size) :=
    ⟨hsafe.init, fun h c h' hs hc hstep => hsafe.step h c h' hs hc.1 hstep⟩
  refine hquiet.and ?_ ?_
  · rintro h rfl
    exact ⟨rfl, le_refl 0, le_refl 0⟩
  · rintro h c h' hs ⟨hdrift, hlive, hrefill⟩ hc ⟨-, rfl⟩
    cases c with
    | allocate =>
        obtain ⟨id, p, ha⟩ := hc.2 rfl
        rw [PoolHistory.after, PoolHistory.afterAllocate, ha]
        refine ⟨hdrift, ?_, ?_⟩
        · simp only [List.length_cons]
          omega
        · simp only
          split_ifs <;> omega
    | free id =>
        have hid := hc.1 id rfl
        rw [PoolHistory.after, hs.free_eq hid]
        have hlen := List.length_erase_add_one hid
        refine ⟨hdrift, ?_, hrefill⟩
        simp only
        omega

/-- Without errors the number of live ids is right, and the maximum is not too large. -/
theorem pool_accounting_quiet (name : String) (size : Option ℕ) (h : PoolHistory)
    (hr : (poolCalls name size false).ReachableUnder PoolHistory.Quiet h) :
    h.pool.allocatedNum = h.live.length ∧ h.pool.historyMax ≤ h.peak := by
  have ha := (poolAccounts_invariant name size).holds hr.reachable
  obtain ⟨-, hq⟩ := (poolQuiet_invariant name size).holds hr
  rw [ha.allocated, ha.historyMax, hq.drift]
  exact ⟨Int.add_zero _, hq.refill_le⟩

end ParrotServe
