import ParrotServe.Properties.BlockTables
import ParrotServe.Properties.EmptyBatches

/-!
# The memory under the jobs of an engine

`free_context` asks the running jobs only, and takes the id out of the map before the context
refuses to go because of its sub-contexts; and a request is queued before its context is bound.
So a waiting job can lose its context, a job can lose an ancestor of its context, and a job can
have no context at all.  `SafeRequest` excludes these three requests, by the state they arrive
in.  In every run without them each job has its context, with all ancestors in the map, on blocks
that nobody else has (`jobs_keep_memory`).

The forest is `TreeInv`.  What is added here is that binding succeeds: the constructor of a child
pads its parent inside the last block of the parent, for which the pool is not asked.
-/

namespace ParrotServe

namespace KvMemory

variable {m : KvMemory} {live : Set CtxRef} {r p : CtxRef}

/-! ## Padding asks for no block -/

/-- A position inside a block needs no new block. -/
lemma allocateOne_inside (h : MemInv m live) (hr : r ∈ live)
    (hlen : m.getThisContextLen r % m.blockSize ≠ 0) : (m.allocateOne r).1 = .ok () := by
  have hne : (m.obj r).tokenKvBlockIds ≠ [] := by
    intro hnil
    exact hlen (by rw [getThisContextLen, hnil, List.length_nil, Nat.zero_mod])
  have hne' : (m.obj r).tokenKvSlotIds ≠ [] := by
    intro hnil
    have hlength := (h.paged r hr).length_eq
    rw [hnil, List.length_nil] at hlength
    exact hne (List.length_eq_zero_iff.mp hlength.symm)
  rw [getThisContextLen] at hlen
  simp only [allocateOne, hlen, if_false, List.getLast?_eq_some_getLast hne,
    List.getLast?_eq_some_getLast hne']

/-- Nor do several positions that begin no block. -/
lemma allocate_inside (n : ℕ) : ∀ {m : KvMemory}, MemInv m live → r ∈ live →
    (∀ i < n, (m.getThisContextLen r + i) % m.blockSize ≠ 0) → (m.allocate r n).1 = .ok () := by
  induction n with
  | zero => exact fun _ _ _ => rfl
  | succ n ih =>
      intro m h hr hinside
      have hone := allocateOne_inside h hr (hinside 0 (Nat.succ_pos n))
      obtain ⟨hinv, bs, ss, hgrow, hres⟩ := allocateOne_spec h hr
      have hlen : bs.length = 1 := by
        rcases hres with ⟨-, hlen⟩ | ⟨hne, -⟩
        · exact hlen
        · exact absurd hone hne
      rw [allocate]
      rcases ho : m.allocateOne r with ⟨e | ⟨⟩, m'⟩
      · rw [ho] at hone
        cases hone
      · rw [ho] at hinv hgrow
        refine ih hinv hr fun i hi => ?_
        have hthis : m'.getThisContextLen r = m.getThisContextLen r + 1 := by
          rw [getThisContextLen, hgrow.self.blocks, List.length_append, hlen]
          rfl
        rw [hthis, hgrow.blockSize, Nat.add_assoc, Nat.add_comm 1 i]
        exact hinside (i + 1) (Nat.succ_lt_succ hi)

/-- No multiple of the block size lies between a length and its rounded length. -/
lemma totalLen_le_of_dvd (hbs : 0 < m.blockSize) {n k : ℕ} (hk : m.blockSize ∣ k) (hle : n ≤ k) :
    m.totalLen n ≤ k := by
  obtain ⟨q, rfl⟩ := hk
  rw [totalLen, Nat.mul_comm]
  refine Nat.mul_le_mul_left _ ?_
  rw [← Nat.lt_succ_iff, Nat.div_lt_iff_lt_mul hbs, Nat.succ_mul, Nat.mul_comm]
  omega

/-- The constructor of a child does not fail on its parent. -/
lemma adopt_ok (h : MemInv m live) (hp : p ∈ live) (i : ℕ) : (m.adopt p i).1 = .ok () := by
  have hlink := h.link p i
  simp only [adopt]
  split_ifs
  · rfl
  · set m' := m.link p i with hm'
    have hpos := hlink.blockSize_pos
    obtain ⟨hle, hdvd⟩ := totalLen_spec hpos (m'.getThisContextLen p)
    set c : BlockContext := { m'.obj p with
      paddedLen := m'.totalLen (m'.getThisContextLen p) - m'.getThisContextLen p } with hc
    have hset : MemInv (m'.set p c) live :=
      hlink.set ⟨rfl, rfl, rfl, rfl, rfl, by simp [hc], by simp [hc]⟩
    have hsame : (m'.set p c).getThisContextLen p = m'.getThisContextLen p := by
      simp only [getThisContextLen, set_obj_self, hc]
    have hok := allocate_inside
      (m'.totalLen (m'.getThisContextLen p) - m'.getThisContextLen p) hset hp fun i hi hmod => by
        rw [hsame, set_blockSize] at hmod
        have hmultiple := totalLen_le_of_dvd hpos (Nat.dvd_of_mod_eq_zero hmod)
          (Nat.le_add_right _ i)
        omega
    simp only [padTo, if_neg (Nat.not_lt.mpr hle)]
    rw [← hc]
    split
    · rename_i he
      rw [he] at hok
      cases hok
    · rfl

end KvMemory

namespace BuiltinEngine

open TransitionSystem

variable {s s' : BuiltinEngine} {bs : ℕ}

/-! ## Binding succeeds -/

/-- The context of a request is in the map, or its parent is, if it has one. -/
def KnownContext (s : BuiltinEngine) (contextId : ℕ) (parentContextId : Option ℕ) : Prop :=
  s.map contextId ≠ none ∨ ∀ q ∈ parentContextId, s.map q ≠ none

/-- Binding a job of a known context succeeds, gives it one, and changes no other job. -/
lemma bindJobContext_binds {live : Set CtxRef} (h : s.mem.MemInv live) (hreg : s.registered ⊆ live)
    (j : JobRef) (hknown : s.KnownContext (s.job j).contextId (s.job j).parentContextId) :
    (s.bindJobContext j).1 = .ok () ∧ ((s.bindJobContext j).2.job j).context ≠ none ∧
      (∀ j' ≠ j, (s.bindJobContext j).2.job j' = s.job j') ∧
      (s.bindJobContext j).2.scheduler = s.scheduler := by
  have hbound : ∀ (m : KvMemory) (r : CtxRef) (map : ℕ → Option CtxRef),
      let s' : BuiltinEngine :=
        { (s.setMem m).setJob j { s.job j with context := some r } with map := map }
      (s'.job j).context ≠ none ∧ (∀ j' ≠ j, s'.job j' = s.job j') ∧
        s'.scheduler = s.scheduler := by
    refine fun m r map => ⟨?_, fun j' hj' => Function.update_of_ne hj' _ _, rfl⟩
    simp [setJob]
  rw [bindJobContext]
  dsimp only
  split
  · rename_i r hmap
    exact ⟨rfl, hbound s.mem r s.map⟩
  · rename_i hmap
    split
    · exact ⟨rfl, hbound (s.mem.push _) _ _⟩
    · rename_i q hparent
      have hq := (hknown.resolve_left (not_not.mpr hmap)) q hparent
      split
      · rename_i hnone
        exact absurd hnone hq
      · rename_i p hp
        have hadopt := KvMemory.adopt_ok h (hreg ⟨q, hp⟩) (s.job j).contextId
        rw [KvMemory.newContext]
        rcases ha : s.mem.adopt p (s.job j).contextId with ⟨e | ⟨⟩, m⟩
        · rw [ha] at hadopt
          cases hadopt
        · exact ⟨rfl, hbound _ _ _⟩

/-! ## The jobs stay bound -/

/-- Every job in a queue has a context. -/
def JobsBound (s : BuiltinEngine) : Prop := ∀ j ∈ s.scheduler.jobs, (s.job j).context ≠ none

/-- The requests that leave memory where it is needed: the context of a new job, or its parent,
is known, and a context to be freed is refused by a running job or meets `FreeGuard`. -/
def SafeRequest (s : BuiltinEngine) : Action → Prop
  | .fill _ _ cid pid _ _ _ => s.KnownContext cid pid
  | .generate _ _ cid pid _ _ _ => s.KnownContext cid pid
  | .freeContext cid =>
      (∃ j ∈ s.scheduler.runningJobs, (s.job j).contextId = cid) ∨ FreeGuard s cid
  | .engineIter _ => True

/-- A new job is bound, and the others stay so. -/
lemma JobsBound.addJob (hb : s.JobsBound) {live : Set CtxRef} (h : s.mem.MemInv live)
    (hreg : s.registered ⊆ live) (record : PrimitiveJob) (t : ℕ)
    (hknown : s.KnownContext record.contextId record.parentContextId) :
    (s.addJob record t).1 = .ok () ∧ (s.addJob record t).2.JobsBound := by
  have hself : (s.queueJob record t).job s.nextJob = record := by
    simp [queueJob, setJob]
  have hqueued : (s.queueJob record t).mem.MemInv live := h
  obtain ⟨hok, hbind, hother, hsched⟩ := bindJobContext_binds hqueued hreg s.nextJob (by
    rw [hself]
    exact hknown)
  refine ⟨hok, fun j hj => ?_⟩
  rw [BuiltinEngine.addJob, hsched] at hj
  by_cases he : j = s.nextJob
  · rw [he]
    exact hbind
  · have hold : j ∈ s.scheduler.jobs := by
      simp only [queueJob, EngineScheduler.addJob, EngineScheduler.jobs, List.mem_append,
        List.mem_singleton] at hj ⊢
      tauto
    have hjob : (s.queueJob record t).job j = s.job j := Function.update_of_ne he _ _
    rw [BuiltinEngine.addJob, hother j he, hjob]
    exact hb j hold

/-- Nothing that keeps the jobs takes a context from one. -/
lemma JobsBound.keeps (hb : s.JobsBound) (hk : KeepsJobs s s') : s'.JobsBound := by
  intro j hj
  rw [hk.scheduler] at hj
  exact hk.bound j (hb j hj)

/-- Dropping jobs. -/
lemma JobsBound.reschedule (hb : s.JobsBound) {sched : EngineScheduler}
    (hsub : ∀ j ∈ sched.jobs, j ∈ s.scheduler.jobs) : JobsBound { s with scheduler := sched } :=
  fun j hj => hb j (hsub j hj)

/-- An iteration takes no context from a job. -/
lemma JobsBound.engineIter (hb : s.JobsBound) {o : ModelOutput} (hi : s.engineIter o = .ok s') :
    s'.JobsBound := by
  rcases engineIter_scheduler hi with rfl | ⟨batch, sched, s₂, sched₂, hsched, hkeeps, hfin, rfl⟩
  · exact hb
  · have hscheduled : JobsBound { s with scheduler := sched } :=
      hb.reschedule fun j hj => (EngineScheduler.schedule_spec hsched).2.1.mem_iff.mp hj
    exact (hscheduled.keeps hkeeps).reschedule fun _ => EngineScheduler.jobs_of_finish hfin

/-- A request to free the context of a running job changes nothing. -/
lemma freeContext_refused {cid : ℕ}
    (hrun : ∃ j ∈ s.scheduler.runningJobs, (s.job j).contextId = cid) :
    (s.freeContext cid).2 = s := by
  have hany : s.scheduler.runningJobs.any (fun j => (s.job j).contextId = cid) = true := by
    obtain ⟨j, hj, hid⟩ := hrun
    exact List.any_eq_true.mpr ⟨j, hj, decide_eq_true hid⟩
  rw [freeContext, if_pos hany]

/-- The forest is kept by every safe request. -/
lemma TreeInv.apply_safe (h : TreeInv bs s) {a : Action} (hg : SafeRequest s a) :
    TreeInv bs (s.apply a) := by
  by_cases hrefused : ∃ cid, a = .freeContext cid ∧
      ∃ j ∈ s.scheduler.runningJobs, (s.job j).contextId = cid
  · obtain ⟨cid, rfl, hrun⟩ := hrefused
    rw [BuiltinEngine.apply, freeContext_refused hrun]
    exact h
  · refine h.apply ?_
    rintro cid rfl
    exact hg.resolve_left fun hrun => hrefused ⟨cid, rfl, hrun⟩

/-- The jobs stay bound under every safe request. -/
lemma JobsBound.apply (hb : s.JobsBound) (h : TreeInv bs s) {a : Action} (hg : SafeRequest s a) :
    (s.apply a).JobsBound := by
  cases a with
  | fill sid tid cid pid flag ts t =>
      exact (hb.addJob h.mem subset_rfl (fillJob sid tid cid pid flag ts) t hg).2
  | generate sid tid cid pid flag cfg t =>
      exact (hb.addJob h.mem subset_rfl (generateJob sid tid cid pid flag cfg) t hg).2
  | freeContext cid => exact hb.keeps (freeContext_keeps cid)
  | engineIter o =>
      simp only [BuiltinEngine.apply]
      split
      · rename_i hi
        exact hb.engineIter hi
      · exact hb

lemma jobsBound_invariant (attnFunc : AttnFunc) (hbs : 0 < bs) (n : ℕ)
    (config : SchedulerConfig) : (system attnFunc bs n config).IsInvariantUnder SafeRequest
      fun s => TreeInv bs s ∧ s.JobsBound where
  init s hs := by
    rw [show s = start attnFunc bs n config from hs]
    exact ⟨treeInv_start hbs, by simp [JobsBound, start, EngineScheduler.jobs]⟩
  step s a s' h hg hstep := by
    rw [hstep.2]
    exact ⟨h.1.apply_safe hg, h.2.apply h.1 hg⟩

/-! ## What a job can rely on -/

/-- A context and its ancestors. -/
inductive Ancestor (m : KvMemory) (r : CtxRef) : CtxRef → Prop
  | self : Ancestor m r r
  | parent {a p : CtxRef} : Ancestor m r a → (m.obj a).parentContext = some p → Ancestor m r p

/-- A context is in the map, and its blocks are neither free nor those of another context in the
map. -/
structure HasBlocks (s : BuiltinEngine) (a : CtxRef) : Prop where
  inMap : s.map (s.mem.obj a).contextId = some a
  held : ∀ b ∈ (s.mem.obj a).tokenKvBlockIds, b ∈ s.mem.kvCacheManager.liveIds
  alone : ∀ b ∈ (s.mem.obj a).tokenKvBlockIds, ∀ id a', s.map id = some a' → a' ≠ a →
    b ∉ (s.mem.obj a').tokenKvBlockIds

lemma TreeInv.ancestor (h : TreeInv bs s) {r a : CtxRef} (hr : r ∈ s.registered)
    (ha : Ancestor s.mem r a) : a ∈ s.registered := by
  induction ha with
  | self => exact hr
  | parent _ hp ih => exact (h.parent _ ih _ hp).2

lemma TreeInv.hasBlocks (h : TreeInv bs s) {a : CtxRef} (ha : a ∈ s.registered) :
    s.HasBlocks a where
  inMap := h.key_eq ha
  held b hb := by
    have hlive : b ∈ s.mem.blocksOf s.registered := ⟨a, ha, hb⟩
    exact ⟨h.mem.owns.lt_max b hlive, h.mem.owns.not_free b hlive⟩
  alone b hb id a' ha' hne hb' :=
    h.mem.disjoint a ha a' ⟨id, ha'⟩ hne.symm hb hb'

/-- A job has a context, and it and all its ancestors have their blocks. -/
def KeepsMemory (s : BuiltinEngine) (j : JobRef) : Prop :=
  ∃ r, (s.job j).context = some r ∧ ∀ a, Ancestor s.mem r a → s.HasBlocks a

/-- **Jobs keep their memory.**  In every run of safe requests and iterations, each waiting or
running job has a context, and it and all its ancestors are in the map with blocks that are
theirs alone. -/
theorem jobs_keep_memory (attnFunc : AttnFunc) (blockSize : ℕ) (hbs : 0 < blockSize)
    (numKvCacheBlocks : ℕ) (config : SchedulerConfig) (s : BuiltinEngine)
    (hs : (system attnFunc blockSize numKvCacheBlocks config).ReachableUnder SafeRequest s) :
    ∀ j ∈ s.scheduler.waitingJobs ++ s.scheduler.runningJobs, s.KeepsMemory j := by
  obtain ⟨h, hb⟩ := (jobsBound_invariant attnFunc hbs numKvCacheBlocks config).holds hs
  intro j hj
  obtain ⟨r, hr⟩ := Option.ne_none_iff_exists'.mp (hb j hj)
  have hmap := (h.jobs j hj).2 r hr
  exact ⟨r, hr, fun a ha => h.hasBlocks (h.ancestor ⟨_, hmap⟩ ha)⟩

/-! ## A waiting job -/

/-- A job that is queued, and its context freed before the job ran. -/
def freedWhileWaiting : BuiltinEngine :=
  [.fill 0 0 0 none false [7] 0, .freeContext 0].foldl apply
    (start .xFormersFillVllmPagedAttentionGenerate 2 8 roomyConfig)

/-- The waiting job holds a context that has left the map. -/
theorem waiting_context_freed :
    (system .xFormersFillVllmPagedAttentionGenerate 2 8 roomyConfig).Reachable
      freedWhileWaiting ∧
    ¬ ∀ j ∈ freedWhileWaiting.scheduler.waitingJobs ++ freedWhileWaiting.scheduler.runningJobs,
      freedWhileWaiting.KeepsMemory j := by
  refine ⟨.foldl _ (.init rfl) ⟨rfl, trivial, rfl, trivial, trivial⟩, fun h => ?_⟩
  obtain ⟨r, hctx, hblocks⟩ := h 0 (by decide)
  obtain rfl : r = 0 := Option.some.inj (hctx.symm.trans (by decide))
  have hnone : freedWhileWaiting.map (freedWhileWaiting.mem.obj 0).contextId = none := by decide
  have hmap := (hblocks 0 .self).inMap
  rw [hnone] at hmap
  cases hmap

/-- A Generate on a forked context, which runs when its context is to be freed. -/
theorem jobs_keep_memory_forked :
    let s := [.fill 0 0 0 none false [7] 0, .engineIter zeroOutput,
        .generate 0 1 1 (some 0) false ⟨[], 4⟩ 1, .engineIter zeroOutput,
        .freeContext 1].foldl apply
      (start .xFormersFillVllmPagedAttentionGenerate 2 8 roomyConfig)
    s.scheduler.runningJobs = [1] ∧ s.KeepsMemory 1 := by
  refine ⟨by decide, jobs_keep_memory .xFormersFillVllmPagedAttentionGenerate 2 (by decide) 8
    roomyConfig _ (.foldl _ (.init rfl) ?_) 1 (by decide)⟩
  refine ⟨rfl, .inr (by simp), rfl, trivial, rfl, .inr ?_, rfl, trivial, rfl, .inl ?_, trivial⟩
  · rintro q hq
    obtain rfl := Option.some.inj hq
    decide
  · exact ⟨1, by decide, by decide⟩

end BuiltinEngine

end ParrotServe
