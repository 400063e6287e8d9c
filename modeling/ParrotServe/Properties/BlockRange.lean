import ParrotServe.Properties.KvView
import ParrotServe.Properties.PoolHistories

/-!
# The blocks of an engine are in its cache

The pool of a runner hands out the ids below `num_kv_cache_blocks`, and a context only gets blocks
from it: `KvMemory.BlocksBelow` is kept by every operation on contexts, so in every reachable state
of an engine the slots of its contexts are slots of the tensors (`TreeInv.slot_lt`).
-/

namespace ParrotServe

namespace KvMemory

variable {m m' : KvMemory} {n : ℕ} {r : CtxRef}

/-- Every block that an object has or that can be recycled is one of the first `n`. -/
structure BlocksBelow (n : ℕ) (m : KvMemory) : Prop where
  size : m.kvCacheManager.poolSize = some n
  free : ∀ b ∈ m.kvCacheManager.freeIds, b < n
  held : ∀ r, ∀ b ∈ (m.obj r).tokenKvBlockIds, b < n

namespace BlocksBelow

/-- The pool stays and no object gets a block. -/
lemma congr (h : BlocksBelow n m) (hpool : m'.kvCacheManager = m.kvCacheManager)
    (hobj : ∀ r, (m'.obj r).tokenKvBlockIds ⊆ (m.obj r).tokenKvBlockIds) : BlocksBelow n m' where
  size := hpool ▸ h.size
  free := hpool ▸ h.free
  held r b hb := h.held r b (hobj r hb)

lemma set (h : BlocksBelow n m) {c : BlockContext}
    (hc : c.tokenKvBlockIds ⊆ (m.obj r).tokenKvBlockIds) : BlocksBelow n (m.set r c) := by
  refine h.congr rfl fun r' => ?_
  by_cases hr : r' = r
  · rw [hr, set_obj_self]
    exact hc
  · rw [set_obj_of_ne _ hr]
    exact List.Subset.refl _

lemma push (h : BlocksBelow n m) {c : BlockContext} (hc : c.tokenKvBlockIds = []) :
    BlocksBelow n (m.push c) := by
  refine h.congr rfl fun r' => ?_
  by_cases hr : r' = m.next
  · rw [hr, KvMemory.push]
    dsimp only
    rw [set_obj_self, hc]
    exact List.nil_subset _
  · rw [KvMemory.push]
    dsimp only
    rw [set_obj_of_ne _ hr]
    exact List.Subset.refl _

/-- A pool after an allocation. -/
lemma pool (h : BlocksBelow n m) : BlocksBelow n { m with
    kvCacheManager := m.kvCacheManager.allocate.2 } where
  size := (RecyclePool.allocate_poolSize _).trans h.size
  free b hb := by
    unfold RecyclePool.allocate at hb
    dsimp only at hb
    split at hb
    · rename_i hids _
      exact h.free b (hids ▸ List.mem_cons_of_mem _ hb)
    · split at hb
      · exact h.free b hb
      · exact h.free b hb
  held := h.held

lemma allocateOne (h : BlocksBelow n m) (r : CtxRef) : BlocksBelow n (m.allocateOne r).2 := by
  unfold KvMemory.allocateOne
  dsimp only
  split
  · split
    · rename_i e pool hpool
      have := h.pool
      rwa [hpool] at this
    · rename_i b pool hpool
      have hb : b < n := RecyclePool.allocate_lt hpool h.size h.free
      have hall := h.pool
      rw [hpool] at hall
      refine ⟨hall.size, hall.free, fun r' b' hb' => ?_⟩
      by_cases hr : r' = r
      · rw [hr, appendPosition, set_obj_self] at hb'
        rcases List.mem_append.mp hb' with hb' | hb'
        · exact h.held r b' hb'
        · exact List.mem_singleton.mp hb' ▸ hb
      · rw [appendPosition, set_obj_of_ne _ hr] at hb'
        exact h.held r' b' hb'
  · split
    · rename_i b slot hlast _
      refine ⟨h.size, h.free, fun r' b' hb' => ?_⟩
      by_cases hr : r' = r
      · rw [hr, appendPosition, set_obj_self] at hb'
        rcases List.mem_append.mp hb' with hb' | hb'
        · exact h.held r b' hb'
        · exact List.mem_singleton.mp hb' ▸ h.held r b (List.mem_of_getLast? hlast)
      · rw [appendPosition, set_obj_of_ne _ hr] at hb'
        exact h.held r' b' hb'
    · exact h

lemma allocate (k : ℕ) : ∀ {m : KvMemory}, BlocksBelow n m → BlocksBelow n (m.allocate r k).2 := by
  induction k with
  | zero => exact fun h => h
  | succ k ih =>
      intro m h
      have hone := h.allocateOne r
      rw [KvMemory.allocate]
      split
      · rename_i e m' heq
        rwa [heq] at hone
      · rename_i m' heq
        rw [heq] at hone
        exact ih hone

lemma padTo (h : BlocksBelow n m) (k : ℕ) : BlocksBelow n (m.padTo r k).2 := by
  unfold KvMemory.padTo
  dsimp only
  split
  · exact h
  · have hset : BlocksBelow n (m.set r { m.obj r with paddedLen := k - m.getThisContextLen r }) :=
      h.set (List.Subset.refl _)
    have hall := allocate (r := r) (k - m.getThisContextLen r) hset
    split
    · rename_i e m' heq
      rwa [heq] at hall
    · rename_i m' heq
      rw [heq] at hall
      exact hall.set (List.Subset.refl _)

lemma adopt (h : BlocksBelow n m) (p : CtxRef) (i : ℕ) : BlocksBelow n (m.adopt p i).2 := by
  have hlink : BlocksBelow n (m.link p i) := h.set (List.Subset.refl _)
  unfold KvMemory.adopt
  dsimp only
  split
  · exact hlink
  · exact hlink.padTo _

lemma unlink (h : BlocksBelow n m) (r : CtxRef) : BlocksBelow n (m.unlink r).2 := by
  unfold KvMemory.unlink
  dsimp only
  split
  · split <;> exact h
  · split
    · split <;> exact h.set (List.Subset.refl _)
    · exact h

lemma freeBlocks (bs : List ℕ) : ∀ {m : KvMemory}, BlocksBelow n m → (∀ b ∈ bs, b < n) →
    BlocksBelow n (m.freeBlocks bs).2 := by
  induction bs with
  | nil => exact fun h _ => h
  | cons b bs ih =>
      intro m h hbs
      rw [KvMemory.freeBlocks, RecyclePool.free]
      dsimp only
      split
      · rename_i hfree
        split at hfree
        · obtain ⟨-, rfl⟩ := Prod.mk.inj hfree
          exact ⟨h.size, h.free, h.held⟩
        · cases (Prod.mk.inj hfree).1
      · rename_i hfree
        split at hfree
        · cases (Prod.mk.inj hfree).1
        · obtain ⟨-, rfl⟩ := Prod.mk.inj hfree
          refine ih ⟨h.size, fun b' hb' => ?_, h.held⟩ fun b' hb' =>
            hbs b' (List.mem_cons_of_mem _ hb')
          rcases List.mem_append.mp hb' with hb' | hb'
          · exact h.free b' hb'
          · exact List.mem_singleton.mp hb' ▸ hbs b List.mem_cons_self

lemma destruction (h : BlocksBelow n m) (r : CtxRef) : BlocksBelow n (m.destruction r).2 := by
  have hunlink := h.unlink r
  unfold KvMemory.destruction
  split
  · rename_i e m' heq
    rwa [heq] at hunlink
  · rename_i m' heq
    rw [heq] at hunlink
    exact freeBlocks _ hunlink fun b hb => hunlink.held r b (mem_of_mem_strideAux _ _ hb)

end BlocksBelow

end KvMemory

namespace BuiltinEngine

variable {s s' : BuiltinEngine} {n : ℕ}

/-- The blocks of an engine are in its cache. -/
abbrev InRange (n : ℕ) (s : BuiltinEngine) : Prop := s.mem.BlocksBelow n

lemma InRange.quiet (h : s.InRange n) (hq : Quiet s s') : s'.InRange n :=
  KvMemory.BlocksBelow.congr h hq.pool fun r => by
    rw [(hq.obj r).2.2.2.2.1]
    exact List.Subset.refl _

lemma InRange.bind (h : s.InRange n) {j : JobRef} (ho : BindOutcome s j s') : s'.InRange n := by
  cases ho with
  | unknownParent => exact h
  | existing hmap => exact h
  | root hmap hnone => exact KvMemory.BlocksBelow.push h rfl
  | failed hmap hpid hparent hadopt =>
      have := KvMemory.BlocksBelow.adopt h ‹_› (s.job j).contextId
      rwa [hadopt] at this
  | forked hmap hpid hparent hadopt =>
      have := KvMemory.BlocksBelow.adopt h ‹_› (s.job j).contextId
      rw [hadopt] at this
      exact this.push rfl

lemma InRange.addJob (h : s.InRange n) (record : PrimitiveJob) (curTime : ℕ) :
    (s.addJob record curTime).2.InRange n :=
  have hqueue : (s.queueJob record curTime).InRange n := h
  hqueue.bind (bindJobContext_outcome _ _)

lemma InRange.allocateJob (h : s.InRange n) {j : JobRef} {r : CtxRef} {sample : Bool}
    (hok : s.allocateJob j r = .ok (sample, s')) : s'.InRange n := by
  unfold BuiltinEngine.allocateJob at hok
  split at hok
  · cases hok
  · rename_i tokenIds _
    dsimp only at hok
    have hset : (s.mem.set r { s.mem.obj r with
        tokenIds := (s.mem.obj r).tokenIds ++ tokenIds }).BlocksBelow n :=
      KvMemory.BlocksBelow.set h (List.Subset.refl _)
    have hall := KvMemory.BlocksBelow.allocate (r := r) tokenIds.length hset
    split at hok
    · cases hok
    · rename_i m heq
      rw [heq] at hall
      obtain ⟨-, rfl⟩ := Prod.mk.inj (Except.ok.inj hok)
      exact hall
  · have hall := KvMemory.BlocksBelow.allocate (r := r) 1 h
    split at hok
    · cases hok
    · rename_i m heq
      rw [heq] at hall
      split at hok
      · cases hok
      · obtain ⟨-, rfl⟩ := Prod.mk.inj (Except.ok.inj hok)
        exact hall
      · obtain ⟨-, rfl⟩ := Prod.mk.inj (Except.ok.inj hok)
        exact hall.set (List.Subset.refl _)

lemma InRange.prepareJobs (js : List JobRef) : ∀ {s : BuiltinEngine} {first : List JobRef},
    s.InRange n → s.prepareJobs js = .ok (first, s') → s'.InRange n := by
  induction js with
  | nil =>
      intro s first h hok
      obtain ⟨-, rfl⟩ := Prod.mk.inj (Except.ok.inj hok)
      exact h
  | cons j js ih =>
      intro s first h hok
      rw [BuiltinEngine.prepareJobs] at hok
      split at hok
      · cases hok
      · rename_i sample s₁ hone
        have h₁ : s₁.InRange n := by
          unfold prepareJob at hone
          split at hone
          · exact h.allocateJob hone
          · split at hone
            · cases hone
            · rename_i s₂ hbind
              have hbound := h.bind (bindJobContext_outcome s j)
              rw [hbind] at hbound
              split at hone
              · cases hone
              · exact hbound.allocateJob hone
        split at hok
        · cases hok
        · rename_i first' s₂ hrest
          obtain ⟨-, rfl⟩ := Prod.mk.inj (Except.ok.inj hok)
          exact ih h₁ hrest

lemma InRange.iterForward (h : s.InRange n) {o : ModelOutput} {jobs : List JobRef}
    (hf : s.iterForward o = .ok (jobs, s')) : s'.InRange n := by
  obtain ⟨batch, s₁, first, s₂, s₃, hbatch, -, hprep, hfirst, ids, -, hfwd⟩ := iterForward_cases hf
  have h₁ : s₁.InRange n := by
    unfold scheduleBatch at hbatch
    split at hbatch
    · cases hbatch
    · obtain ⟨-, rfl⟩ := Prod.mk.inj (Except.ok.inj hbatch)
      exact h
  have h₂ := h₁.prepareJobs _ hprep
  exact (h₂.quiet (firstSampling_quiet hfirst)).quiet (forward_quiet hfwd)

/-- **Every step of an engine** keeps its blocks in the cache. -/
lemma InRange.apply (h : s.InRange n) (a : Action) : (s.apply a).InRange n := by
  cases a with
  | fill _ _ _ _ _ _ t => exact h.addJob _ t
  | generate _ _ _ _ _ _ t => exact h.addJob _ t
  | freeContext cid =>
      show (s.freeContext cid).2.InRange n
      unfold freeContext managerFreeContext
      split_ifs
      · exact h
      · split
        · exact h
        · rename_i r _
          have hdestroy := KvMemory.BlocksBelow.destruction h r
          dsimp only
          split
          · rename_i heq
            rwa [heq] at hdestroy
          · rename_i heq
            rwa [heq] at hdestroy
  | engineIter o =>
      rw [BuiltinEngine.apply]
      split
      · rename_i s₁ hi
        rcases engineIter_cases hi with rfl | ⟨jobs, s₂, s₃, sched, hf, hup, rfl, -⟩
        · exact h
        · have hrun : s₃.InRange n := (h.iterForward hf).quiet (updateJobs_quiet hup)
          exact hrun
      · exact h

lemma inRange_start (attnFunc : AttnFunc) (bs n : ℕ) (config : SchedulerConfig) :
    (start attnFunc bs n config).InRange n where
  size := rfl
  free b hb := by cases hb
  held r b hb := by cases hb

/-- The slots of the registered contexts are in the cache. -/
lemma TreeInv.slot_lt {bs : ℕ} (h : TreeInv bs s) (hr : s.InRange n) {r : CtxRef}
    (hreg : r ∈ s.registered) {slot : ℕ} (hslot : slot ∈ (s.mem.obj r).tokenKvSlotIds) :
    slot < n * bs := by
  have hblock := (h.mem.paged r hreg).mem_of_mem_slots h.mem.blockSize_pos hslot
  rw [h.blockSize_eq] at hblock
  have hpos : 0 < bs := h.blockSize_eq ▸ h.mem.blockSize_pos
  exact (Nat.div_lt_iff_lt_mul hpos).mp (hr.held r _ hblock)

end BuiltinEngine

end ParrotServe
