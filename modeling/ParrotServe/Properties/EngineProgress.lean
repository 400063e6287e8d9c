import ParrotServe.Properties.AvailableBlocks
import ParrotServe.Properties.EmptyBatches
import ParrotServe.Properties.GenerationStops

/-!
# The engine drains

The loop of the engine (`parrot/engine/builtin/builtin_engine.py`,
`parrot/engine/engine_scheduler.py`) has no bound of its own: a batch can be empty, an iteration can
raise, a preempted job can wait for ever.  Here is what the callers have to see to so that none of
this happens (`Provided`): each job fits into a batch, its context stays below the limit on tokens
up to its last iteration, its ancestors are not written any more, there are blocks for all the
positions that the present jobs can still add, and on the reference path the contexts, with these
positions and every shared ancestor counted once for each of them, fit into the cache.

Requests that leave the engine provided for are enough.  Iterations keep it so, whatever the model
returns, and each one takes from `work`, the iterations that the jobs can still need; freeing a
context only adds blocks.  So in every run of such requests the engine never crashes, and as many
iterations as there is work finish all jobs (`engine_drains`).
-/

namespace ParrotServe

/-- Some members stay, at a new value, and all are charged for. -/
lemma sum_filter_add_le {α : Type*} {l : List α} {p : α → Bool} {f f' cost : α → ℕ}
    (h : ∀ x ∈ l, (if p x then f' x else 0) + cost x ≤ f x) :
    ((l.filter p).map f').sum + (l.map cost).sum ≤ (l.map f).sum := by
  induction l with
  | nil => exact le_rfl
  | cons x l ih =>
      have hx := h x List.mem_cons_self
      have hl := ih fun y hy => h y (List.mem_cons_of_mem _ hy)
      rw [List.filter_cons, List.map_cons, List.map_cons, List.sum_cons, List.sum_cons]
      split_ifs at hx ⊢
      · rw [List.map_cons, List.sum_cons]
        omega
      · omega

namespace PrimitiveJob

variable (job : PrimitiveJob)

/-- The iterations a job can still take.  A Generate gets a token in each, and stops with
`max_gen_length` of them. -/
def iterationsLeft : ℕ :=
  match job.kind with
  | .fill _ => 1
  | .generate cfg => max 1 (cfg.maxGenLength - job.genLength)

/-- The positions these add to its context. -/
def positionsLeft : ℕ :=
  match job.kind with
  | .fill _ => job.numTokens
  | .generate _ => job.iterationsLeft

variable {job}

lemma iterationsLeft_pos : 1 ≤ job.iterationsLeft := by
  unfold iterationsLeft
  split
  · exact le_rfl
  · exact le_max_left _ _

lemma numTokens_le_positionsLeft : job.numTokens ≤ job.positionsLeft := by
  have hpos := job.iterationsLeft_pos
  unfold positionsLeft
  cases hkind : job.kind with
  | fill tokenIds => exact le_rfl
  | generate cfg =>
      rw [numTokens, hkind]
      exact hpos

end PrimitiveJob

namespace BuiltinEngine

open EngineScheduler TransitionSystem

variable {s s' : BuiltinEngine} {bs : ℕ} {j : JobRef} {r : CtxRef} {batch : List JobRef}
  {o : ModelOutput}

/-! ## What an iteration does to jobs and contexts -/

/-- A batch has run from `s` to `s'`. -/
structure Iterated (s : BuiltinEngine) (batch : List JobRef) (s' : BuiltinEngine) : Prop where
  crashed : s'.crashed = s.crashed
  attnFunc : s'.attnFunc = s.attnFunc
  numKvCacheBlocks : s'.numKvCacheBlocks = s.numKvCacheBlocks
  blockSize : s'.mem.blockSize = s.mem.blockSize
  records : ∀ j, (s'.job j).context = (s.job j).context ∧ (s'.job j).kind = (s.job j).kind
  otherJob : ∀ j ∉ batch, s'.job j = s.job j
  other : ∀ r, (∀ j ∈ batch, (s.job j).context ≠ some r) → s'.mem.obj r = s.mem.obj r
  parent : ∀ r, (s'.mem.obj r).parentContext = (s.mem.obj r).parentContext
  length : ∀ j ∈ batch, s'.mem.getThisContextLen (s.jobContext j) =
    s.mem.getThisContextLen (s.jobContext j) + (s.job j).numTokens
  fill : ∀ j ∈ batch, (s.job j).isGenerate = false → (s'.job j).finishEvent = true
  /-- A Generate that goes on has a token more, and less than it may have. -/
  generate : ∀ j ∈ batch, ∀ cfg, (s.job j).kind = .generate cfg →
    (s'.mem.obj (s.jobContext j)).tokenIds ≠ [] ∧ ((s'.job j).finishEvent = false →
      (s.job j).genLength < (s'.job j).genLength ∧ (s'.job j).genLength < cfg.maxGenLength)

lemma crashed_kept : KeptByUpdates (fun _ => True) fun s s' => s'.crashed = s.crashed where
  refl _ := rfl
  trans h h' := h'.trans h
  putToken := by
    intro s s' j t _ h
    rw [putToken] at h
    split at h
    · cases h
    · rw [← Except.ok.inj h]
      rfl
  fill _ _ _ := rfl
  finish _ := rfl

/-- A Fill has finished. -/
lemma runIter_fill {pre post : List JobRef} (hsplit : s.fillsFirst batch = pre ++ j :: post)
    (halone : s.Alone r pre j post) (hbound : ∀ x ∈ batch, (s.job x).context ≠ none)
    (hfill : (s.job j).isGenerate = false) (hok : s.runIter o batch = .ok s') :
    (s'.job j).finishEvent = true := by
  obtain ⟨jobs, s₃, hfwd, hup⟩ := runIter_cases hok
  obtain ⟨rfl, first, s₁, hprep, s₂, hfirst, ids, hids, hforward⟩ := runIterForward_cases hfwd
  have hjob₁ := prepareJobs_job _ (fun x hx => hbound x (mem_fillsFirst.mp hx)) hprep
  have hquiet := (firstSampling_quiet hfirst).trans (forward_quiet hforward)
  have hrecord : ∀ x, (s₃.job x).context = (s.job x).context ∧
      (s₃.job x).kind = (s.job x).kind := fun x => by
    rw [← hjob₁]
    exact (hquiet.job x).2
  rw [hsplit] at hup
  have halone₃ : s₃.Alone r pre j post := halone.congr fun x => (hrecord x).1
  obtain ⟨a, b, hlast, ha, -, hjob, -⟩ := updateJobs_alone halone₃ hup
  obtain ⟨-, hb⟩ := updateJob_fill (r := r) (by rw [ha, (hrecord j).1, halone.context])
    (by rwa [ha, PrimitiveJob.isGenerate, (hrecord j).2]) hlast
  rw [hjob, hb]

lemma runIter_iterated {live : Set CtxRef} (h : s.mem.MemInv live) (hbound : BoundTo s live batch)
    (hnodup : (batch.map fun j => (s.job j).context).Nodup) (hok : s.runIter o batch = .ok s') :
    Iterated s batch s' := by
  have hbound' : BoundTo s live (s.fillsFirst batch) := fun j hj => hbound j (mem_fillsFirst.mp hj)
  have hnodup' := ((fillsFirst_perm s batch).map fun j => (s.job j).context).nodup_iff.mpr hnodup
  have halone : ∀ j ∈ batch, ∃ pre post, s.fillsFirst batch = pre ++ j :: post ∧
      s.Alone (s.jobContext j) pre j post := by
    intro j hj
    obtain ⟨r, -, hctx⟩ := hbound j hj
    obtain ⟨pre, post, hsplit⟩ := List.append_of_mem (mem_fillsFirst.mpr hj)
    rw [hsplit] at hnodup' hbound'
    exact ⟨pre, post, hsplit, alone_of_nodup (by rw [jobContext_eq hctx, hctx]) hbound'.context
      hnodup'⟩
  obtain ⟨jobs, s₃, hfwd, hup⟩ := runIter_cases hok
  obtain ⟨rfl, first, s₁, hprep, s₂, hfirst, ids, hids, hforward⟩ := runIterForward_cases hfwd
  obtain ⟨hmem₃, hjob₃⟩ := forward_eq hforward
  obtain ⟨-, hext⟩ := prepareJobs_spec _ h hbound' hprep
  obtain ⟨hsub, hother, hobjs⟩ := prepareJobs_objs _ h hbound' hnodup' hprep
  have hjob₁ := prepareJobs_job _ hbound'.context hprep
  have hquiet := ((firstSampling_quiet hfirst).trans (forward_quiet hforward)).trans
    (updateJobs_quiet hup)
  have hrecord : ∀ x, (s₃.job x).context = (s.job x).context := fun x => by
    rw [← hjob₁, hjob₃]
    exact ((firstSampling_quiet hfirst).job x).2.1
  obtain ⟨hcrashed₁, hattn₁, hrows₁⟩ : s₁.crashed = s.crashed ∧ s₁.attnFunc = s.attnFunc ∧
      s₁.numKvCacheBlocks = s.numKvCacheBlocks := by
    rw [hext.rest]
    exact ⟨rfl, rfl, rfl⟩
  have hcrashed₃ : s₃.crashed = s₂.crashed := by
    rw [(forward_ok_iff.mp hforward).2]
  have huntouched : ∀ j r, Untouched (· ∈ batch) j r s₁ s₂ ∧ Untouched (· ∈ batch) j r s₃ s' :=
    fun j r => ⟨(untouched_kept _ j r).firstSampling first
      (fun x hx => mem_fillsFirst.mp (hsub.subset hx)) hfirst,
      (untouched_kept _ j r).updateJobs _ (fun x => mem_fillsFirst.mp) hup⟩
  refine ⟨?_, hquiet.attnFunc.trans hattn₁, hquiet.numKvCacheBlocks.trans hrows₁,
    hquiet.blockSize.trans hext.blockSize, fun j => ?_, fun j hj => ?_, fun r hr => ?_,
    fun r => ?_, fun j hj => ?_, fun j hj hfill => ?_, fun j hj cfg hkind => ?_⟩
  · rw [crashed_kept.updateJobs _ (fun _ _ => trivial) hup, hcrashed₃,
      crashed_kept.firstSampling _ (fun _ _ => trivial) hfirst, hcrashed₁]
  · rw [← hjob₁]
    exact (hquiet.job j).2
  · rw [(huntouched j 0).2.2.1 hj, hjob₃, (huntouched j 0).1.2.1 hj, hjob₁]
  · rw [(huntouched 0 r).2.2.2 fun x hx => by rw [hrecord]; exact hr x hx, hmem₃,
      (huntouched 0 r).1.2.2 fun x hx => by rw [hjob₁]; exact hr x hx,
      hother r fun x hx => hr x (mem_fillsFirst.mp hx)]
  · exact ((hquiet.obj r).2.1).trans (hext.links r).2.1
  · obtain ⟨r, -, hctx⟩ := hbound j hj
    obtain ⟨sample, halloc, -⟩ := hobjs j (mem_fillsFirst.mpr hj) r hctx
    obtain ⟨bl, sl, hlen, hblocks, -⟩ := halloc.tables
    rw [jobContext_eq hctx, KvMemory.getThisContextLen, (hquiet.obj r).2.2.2.2.1, hblocks,
      List.length_append, hlen]
    rfl
  · obtain ⟨pre, post, hsplit, hal⟩ := halone j hj
    exact runIter_fill hsplit hal hbound.context hfill hok
  · obtain ⟨pre, post, hsplit, hal⟩ := halone j hj
    have hsampled := runIter_sampled hsplit hal hkind hok
    obtain ⟨init, t, hnew, hjob⟩ := hsampled.record
    refine ⟨?_, fun hfin => ?_⟩
    · rw [hsampled.tokens, hnew]
      exact List.append_ne_nil_of_right_ne_nil _
        (List.append_ne_nil_of_right_ne_nil _ (List.cons_ne_nil _ _))
    · rw [hjob] at hfin ⊢
      obtain ⟨-, hgoes⟩ := Bool.or_eq_false_iff.mp hfin
      have hlast := (not_or.mp (of_decide_eq_false hgoes)).2
      rw [hnew, List.length_append, List.length_singleton] at hlast ⊢
      dsimp only
      omega

/-! ## What the callers have to see to -/

/-- The blocks opened by the positions that a job can still add. -/
def blocksLeft (s : BuiltinEngine) (j : JobRef) : ℕ :=
  newPages s.mem.blockSize (s.mem.getThisContextLen (s.jobContext j)) (s.job j).positionsLeft

/-- The length of a job's context with all the positions it can still add. -/
def finalLen (s : BuiltinEngine) (j : JobRef) : ℕ :=
  s.mem.getContextLen (s.jobContext j) + (s.job j).positionsLeft

/-- The iterations that the present jobs can still take. -/
def work (s : BuiltinEngine) : ℕ := (s.scheduler.jobs.map fun j => (s.job j).iterationsLeft).sum

/-- The present jobs can be brought to an end. -/
structure Provided (s : BuiltinEngine) : Prop where
  startable : s.Startable s.scheduler.jobs
  fits : ∀ j ∈ s.scheduler.jobs, (s.job j).numTokens ≠ 0 ∧
    (s.job j).numTokens ≤ s.scheduler.config.maxNumBatchedTokens
  /-- The context does not outgrow the limit before the last iteration. -/
  total : ∀ j ∈ s.scheduler.jobs, s.mem.getContextLen (s.jobContext j) +
    (s.job j).iterationsLeft ≤ s.scheduler.config.maxTotalTokens + 1
  blocks : (s.scheduler.jobs.map s.blocksLeft).sum ≤ s.mem.available
  /-- The reference path moves the contexts of a batch to its buffer, a shared ancestor once for
  each of them, and asserts that this is not more than the cache has. -/
  rows : s.attnFunc = .xFormersWithBuffer →
    (s.scheduler.jobs.map s.finalLen).sum ≤ s.numKvCacheBlocks

/-! ## One iteration -/

/-- Some of the engine's jobs, each with a context of its own, have run as a batch. -/
structure BatchRun (s : BuiltinEngine) (waiting batch : List JobRef) (s' : BuiltinEngine) :
    Prop where
  rooted : s.mem.Rooted s.registered
  bound : BoundTo s s.registered s.scheduler.jobs
  distinct : (s.scheduler.jobs.map fun j => (s.job j).context).Nodup
  jobs : (waiting ++ batch).Perm s.scheduler.jobs
  iterated : Iterated s batch s'

section
variable {waiting : List JobRef}

lemma Iterated.jobContext (h : Iterated s batch s') : s'.jobContext = s.jobContext := by
  funext j
  rw [BuiltinEngine.jobContext, BuiltinEngine.jobContext, (h.records j).1]

lemma Iterated.numTokens (h : Iterated s batch s') (j : JobRef) :
    (s'.job j).numTokens = (s.job j).numTokens := by
  rw [PrimitiveJob.numTokens, PrimitiveJob.numTokens, (h.records j).2]

lemma Iterated.isGenerate (h : Iterated s batch s') (j : JobRef) :
    (s'.job j).isGenerate = (s.job j).isGenerate := by
  rw [PrimitiveJob.isGenerate, PrimitiveJob.isGenerate, (h.records j).2]

/-- Only a Generate stays behind its iteration, and it has one less to go. -/
lemma Iterated.goes_on (h : Iterated s batch s') (hj : j ∈ batch)
    (hfin : (s'.job j).finishEvent = false) : (s.job j).isGenerate = true ∧
      (s'.job j).iterationsLeft + 1 ≤ (s.job j).iterationsLeft := by
  cases hgen : (s.job j).isGenerate with
  | false =>
      rw [h.fill j hj hgen] at hfin
      cases hfin
  | true =>
      obtain ⟨cfg, hkind⟩ := kind_of_generate hgen
      obtain ⟨hmore, hless⟩ := (h.generate j hj cfg hkind).2 hfin
      refine ⟨rfl, ?_⟩
      rw [PrimitiveJob.iterationsLeft, PrimitiveJob.iterationsLeft, (h.records j).2, hkind]
      dsimp only
      omega

namespace BatchRun

lemma mem_jobs (h : BatchRun s waiting batch s') (hj : j ∈ batch) : j ∈ s.scheduler.jobs :=
  h.jobs.subset (List.mem_append_right _ hj)

lemma notMem_batch (h : BatchRun s waiting batch s') (hj : j ∈ waiting) : j ∉ batch := by
  have hnodup := h.jobs.nodup_iff.mpr h.distinct.of_map
  exact fun hb => (List.nodup_append.mp hnodup).2.2 j hj j hb rfl

/-- What the ancestors of a job's context hold stays. -/
lemma ancestor (h : BatchRun s waiting batch s') (hp : s.Provided) (hj : j ∈ s.scheduler.jobs)
    {a : CtxRef} (ha : a ∈ s.mem.lineage (s.jobContext j)) (hne : a ≠ s.jobContext j) :
    s'.mem.obj a = s.mem.obj a :=
  h.iterated.other a fun x hx hctx =>
    hp.startable.parents j hj a ha hne x (h.mem_jobs hx) (jobContext_eq hctx)

lemma own (h : BatchRun s waiting batch s') (hj : j ∈ s.scheduler.jobs) (hnot : j ∉ batch) :
    s'.mem.obj (s.jobContext j) = s.mem.obj (s.jobContext j) := by
  obtain ⟨r, -, hctx⟩ := h.bound j hj
  rw [jobContext_eq hctx]
  refine h.iterated.other r fun x hx hxr => hnot ?_
  rwa [← List.inj_on_of_nodup_map h.distinct (h.mem_jobs hx) hj (hxr.trans hctx.symm)]

/-- A job's context grows by its input tokens if it is in the batch. -/
lemma contextLen (h : BatchRun s waiting batch s') (hp : s.Provided)
    (hj : j ∈ s.scheduler.jobs) : s'.mem.getContextLen (s.jobContext j) =
      s.mem.getContextLen (s.jobContext j) + if j ∈ batch then (s.job j).numTokens else 0 := by
  obtain ⟨r, hr, hctx⟩ := h.bound j hj
  have hself := jobContext_eq hctx
  rw [hself]
  refine h.rooted.getContextLen_grown hr h.iterated.parent (fun a ha hne => ?_) ?_
  · rw [← hself] at ha hne
    rw [KvMemory.getThisContextLen, KvMemory.getThisContextLen, h.ancestor hp hj ha hne]
  · rw [← hself]
    split_ifs with hb
    · exact h.iterated.length j hb
    · rw [KvMemory.getThisContextLen, KvMemory.getThisContextLen, h.own hj hb, Nat.add_zero]

/-- A Generate that stays can go on. -/
lemma starts (h : BatchRun s waiting batch s') (hp : s.Provided) (hj : j ∈ s.scheduler.jobs)
    (hgen : (s.job j).isGenerate = true) : s'.Starts (s.jobContext j) := by
  by_cases hb : j ∈ batch
  · obtain ⟨cfg, hkind⟩ := kind_of_generate hgen
    have hown := (h.iterated.generate j hb cfg hkind).1
    exact ⟨_, getLastHiddenState_of_ne_nil hown, fun hnil => absurd hnil hown⟩
  · refine (hp.startable.starts j hj hgen).congr fun a ha => ?_
    have hobj : s'.mem.obj a = s.mem.obj a := by
      by_cases hne : a = s.jobContext j
      · rw [hne]
        exact h.own hj hb
      · exact h.ancestor hp hj ha hne
    rw [hobj]
    exact ⟨rfl, rfl, rfl⟩

/-- What an iteration opens comes out of the blocks that were left. -/
lemma blocksLeft (h : BatchRun s waiting batch s') (hj : j ∈ batch) :
    (if !(s'.job j).finishEvent then s'.blocksLeft j else 0) + s.openedBlocks j ≤
      s.blocksLeft j := by
  rw [BuiltinEngine.blocksLeft, BuiltinEngine.blocksLeft, openedBlocks]
  set len := s.mem.getThisContextLen (s.jobContext j) with hlen
  cases hfin : (s'.job j).finishEvent with
  | true =>
      have hmono : newPages s.mem.blockSize len (s.job j).numTokens ≤
          newPages s.mem.blockSize len (s.job j).positionsLeft :=
        newPages_mono (s.job j).numTokens_le_positionsLeft
      rw [Bool.not_true, if_neg Bool.false_ne_true, Nat.zero_add]
      exact hmono
  | false =>
      obtain ⟨hgen, hless⟩ := h.iterated.goes_on hj hfin
      obtain ⟨cfg, hkind⟩ := kind_of_generate hgen
      have hleft : (s.job j).positionsLeft = (s.job j).iterationsLeft := by
        rw [PrimitiveJob.positionsLeft, hkind]
      have hleft' : (s'.job j).positionsLeft = (s'.job j).iterationsLeft := by
        rw [PrimitiveJob.positionsLeft, (h.iterated.records j).2, hkind]
      have hmono : newPages s.mem.blockSize len (1 + (s'.job j).iterationsLeft) ≤
          newPages s.mem.blockSize len (s.job j).iterationsLeft :=
        newPages_mono (by omega)
      rw [newPages_add] at hmono
      rw [h.iterated.jobContext, h.iterated.length j hj, h.iterated.blockSize, hleft, hleft',
        numTokens_generate hgen, ← hlen, Bool.not_false, if_pos rfl]
      omega

/-- A job that stays has as much less to add as it has added. -/
lemma finalLen_le (h : BatchRun s waiting batch s') (hp : s.Provided) (hj : j ∈ batch) :
    (if !(s'.job j).finishEvent then s'.finalLen j else 0) ≤ s.finalLen j := by
  cases hfin : (s'.job j).finishEvent with
  | true => exact Nat.zero_le _
  | false =>
      obtain ⟨hgen, hless⟩ := h.iterated.goes_on hj hfin
      obtain ⟨cfg, hkind⟩ := kind_of_generate hgen
      have hlen := h.contextLen hp (h.mem_jobs hj)
      rw [if_pos hj, numTokens_generate hgen] at hlen
      have hleft : (s.job j).positionsLeft = (s.job j).iterationsLeft := by
        rw [PrimitiveJob.positionsLeft, hkind]
      have hleft' : (s'.job j).positionsLeft = (s'.job j).iterationsLeft := by
        rw [PrimitiveJob.positionsLeft, (h.iterated.records j).2, hkind]
      rw [Bool.not_false, if_pos rfl, BuiltinEngine.finalLen, BuiltinEngine.finalLen,
        h.iterated.jobContext, hlen, hleft, hleft']
      omega

/-- The jobs that stay come out of those that were present, and the charges of the batch fit into
what they were expected to need. -/
lemma sum_le (h : BatchRun s waiting batch s') {js : List JobRef} {f f' cost : JobRef → ℕ}
    (hjs : js = waiting ++ batch.filter fun j => !(s'.job j).finishEvent)
    (hwaiting : ∀ j ∈ waiting, f' j = f j)
    (hbatch : ∀ j ∈ batch, (if !(s'.job j).finishEvent then f' j else 0) + cost j ≤ f j) :
    (js.map f').sum + (batch.map cost).sum ≤ (s.scheduler.jobs.map f).sum := by
  rw [hjs, ← (h.jobs.map f).sum_eq, List.map_append, List.map_append, List.sum_append,
    List.sum_append, List.map_congr_left hwaiting, Nat.add_assoc]
  exact Nat.add_le_add_left (sum_filter_add_le hbatch) _

/-- The waiting jobs are as they were. -/
lemma waiting_eq (h : BatchRun s waiting batch s') (hj : j ∈ waiting) :
    s'.job j = s.job j ∧ s'.mem.obj (s.jobContext j) = s.mem.obj (s.jobContext j) :=
  ⟨h.iterated.otherJob j (h.notMem_batch hj),
    h.own (h.jobs.subset (List.mem_append_left _ hj)) (h.notMem_batch hj)⟩

/-- The engine stays provided for, and an iteration of each job of the batch is done. -/
lemma provided (h : BatchRun s waiting batch s') (hp : s.Provided) {sched : EngineScheduler}
    (hconfig : sched.config = s.scheduler.config)
    (hjobs : sched.jobs = waiting ++ batch.filter fun j => !(s'.job j).finishEvent)
    (hroom : s.mem.available ≤ s'.mem.available + (batch.map s.openedBlocks).sum) :
    Provided { s' with scheduler := sched } ∧
      work { s' with scheduler := sched } + batch.length ≤ s.work := by
  have hctx : BuiltinEngine.jobContext { s' with scheduler := sched } = s.jobContext :=
    h.iterated.jobContext
  have hold : ∀ j ∈ sched.jobs, j ∈ s.scheduler.jobs := by
    intro j hj
    rw [hjobs, List.mem_append] at hj
    exact h.jobs.subset (List.mem_append.mpr (hj.imp_right List.mem_of_mem_filter))
  have hless : ∀ j ∈ sched.jobs, (s'.job j).iterationsLeft +
      (if j ∈ batch then (s.job j).numTokens else 0) ≤ (s.job j).iterationsLeft := by
    intro j hj
    rw [hjobs, List.mem_append, List.mem_filter, Bool.not_eq_true'] at hj
    rcases hj with hj | ⟨hj, hfin⟩
    · rw [if_neg (h.notMem_batch hj), (h.waiting_eq hj).1, Nat.add_zero]
    · obtain ⟨hgen, hless⟩ := h.iterated.goes_on hj hfin
      rw [if_pos hj, numTokens_generate hgen]
      exact hless
  refine ⟨⟨⟨fun j hj => ?_, fun j hj hgen => ?_, fun j hj a ha hne j' hj' => ?_⟩,
    fun j hj => ?_, fun j hj => ?_, ?_, fun hattn => ?_⟩, ?_⟩
  · show (s'.job j).kind ≠ _
    rw [(h.iterated.records j).2]
    exact hp.startable.fills j (hold j hj)
  · rw [hctx]
    have hgen' : (s.job j).isGenerate = true := (h.iterated.isGenerate j).symm.trans hgen
    exact h.starts hp (hold j hj) hgen'
  · rw [hctx] at ha hne ⊢
    have ha' : a ∈ s.mem.lineage (s.jobContext j) :=
      KvMemory.lineage_congr h.iterated.parent _ ▸ ha
    exact hp.startable.parents j (hold j hj) a ha' hne j' (hold j' hj')
  · show (s'.job j).numTokens ≠ 0 ∧ (s'.job j).numTokens ≤ sched.config.maxNumBatchedTokens
    rw [h.iterated.numTokens, hconfig]
    exact hp.fits j (hold j hj)
  · have htotal := hp.total j (hold j hj)
    have hl := hless j hj
    rw [hctx]
    show s'.mem.getContextLen (s.jobContext j) + (s'.job j).iterationsLeft ≤
      sched.config.maxTotalTokens + 1
    rw [h.contextLen hp (hold j hj), hconfig]
    omega
  · have hsum : (sched.jobs.map s'.blocksLeft).sum + (batch.map s.openedBlocks).sum ≤
        (s.scheduler.jobs.map s.blocksLeft).sum := by
      refine h.sum_le hjobs (fun j hj => ?_) fun j hj => h.blocksLeft hj
      rw [BuiltinEngine.blocksLeft, BuiltinEngine.blocksLeft, h.iterated.jobContext,
        (h.waiting_eq hj).1, h.iterated.blockSize, KvMemory.getThisContextLen,
        KvMemory.getThisContextLen, (h.waiting_eq hj).2]
    have hblocks := hp.blocks
    show (sched.jobs.map s'.blocksLeft).sum ≤ s'.mem.available
    omega
  · have hsum : (sched.jobs.map s'.finalLen).sum + (batch.map fun _ => 0).sum ≤
        (s.scheduler.jobs.map s.finalLen).sum := by
      refine h.sum_le hjobs (fun j hj => ?_) fun j hj => h.finalLen_le hp hj
      have hlen := h.contextLen hp (h.jobs.subset (List.mem_append_left _ hj))
      rw [if_neg (h.notMem_batch hj), Nat.add_zero] at hlen
      rw [BuiltinEngine.finalLen, BuiltinEngine.finalLen, h.iterated.jobContext, hlen,
        (h.waiting_eq hj).1]
    have hrows := hp.rows (h.iterated.attnFunc.symm.trans hattn)
    show (sched.jobs.map s'.finalLen).sum ≤ s'.numKvCacheBlocks
    rw [h.iterated.numKvCacheBlocks]
    omega
  · have hsum : (sched.jobs.map fun j => (s'.job j).iterationsLeft).sum +
        (batch.map fun _ => 1).sum ≤ s.work := by
      refine h.sum_le hjobs (fun j hj => by rw [(h.waiting_eq hj).1]) fun j hj => ?_
      split_ifs with hfin
      · exact (h.iterated.goes_on hj (Bool.not_eq_true' _ ▸ hfin)).2
      · rw [Nat.zero_add]
        exact PrimitiveJob.iterationsLeft_pos
    rw [List.map_const', List.sum_replicate_nat, Nat.mul_one] at hsum
    exact hsum

end BatchRun
end

/-! ## The loop -/

/-- The present jobs have contexts of their own. -/
lemma ServedInv.distinct (h : ServedInv s) (htree : TreeInv bs s) :
    (s.scheduler.jobs.map fun j => (s.job j).context).Nodup := by
  obtain ⟨added, removed, haccounts⟩ := h.accounts
  refine haccounts.nodup.map_on fun j hj j' hj' heq => ?_
  obtain ⟨r, hctx⟩ := Option.ne_none_iff_exists'.mp (h.bound j hj)
  have hkey := htree.key _ r ((htree.jobs j hj).2 r hctx)
  have hkey' := htree.key _ r ((htree.jobs j' hj').2 r (heq.symm.trans hctx))
  exact List.inj_on_of_nodup_map haccounts.apart hj hj' (hkey.symm.trans hkey')

lemma ServedInv.boundTo (h : ServedInv s) (htree : TreeInv bs s) :
    BoundTo s s.registered s.scheduler.jobs := fun j hj => by
  obtain ⟨r, hctx⟩ := Option.ne_none_iff_exists'.mp (h.bound j hj)
  exact ⟨r, ⟨_, (htree.jobs j hj).2 r hctx⟩, hctx⟩

/-- The oldest job always fits, and so does the first one that waits. -/
lemma ServedInv.schedulable (h : ServedInv s) (hp : s.Provided) (hjobs : s.scheduler.jobs ≠ []) :
    Schedulable s.scheduler s.job s.jobContextLen := by
  obtain ⟨added, removed, haccounts⟩ := h.accounts
  have hlen : ∀ j ∈ s.scheduler.jobs,
      s.jobContextLen j = .ok (s.mem.getContextLen (s.jobContext j)) := by
    intro j hj
    obtain ⟨r, hctx⟩ := Option.ne_none_iff_exists'.mp (h.bound j hj)
    rw [jobContextLen, hctx, jobContext_eq hctx]
  have hmem : ∀ {sorted}, s.scheduler.sortByArrival s.job (s.scheduler.admitted s.job).1 =
      .ok sorted → ∀ j ∈ sorted, j ∈ s.scheduler.jobs := fun hsorted j hj =>
    mem_jobs_of_admitted ((sortByArrival_perm hsorted).subset hj)
  refine ⟨?_, fun j hj => ?_, ?_, ?_⟩
  · by_cases hrunning : s.scheduler.runningJobs = []
    · right
      cases hwaiting : s.scheduler.waitingJobs with
      | nil =>
          rw [EngineScheduler.jobs, hrunning, hwaiting] at hjobs
          exact absurd rfl hjobs
      | cons j rest =>
          refine ⟨j, rest, rfl, (hp.fits j ?_).2⟩
          rw [EngineScheduler.jobs, hwaiting]
          exact List.mem_append_left _ List.mem_cons_self
    · exact .inl hrunning
  · have hj' := mem_jobs_of_admitted hj
    exact ⟨haccounts.jobTime hj', haccounts.taskTimes j hj'⟩
  · rintro sorted hsorted pre j post total rfl - -
    exact ⟨_, hlen j (hmem hsorted j (List.mem_append_right _ List.mem_cons_self))⟩
  · intro j rest len hsorted hok
    have hj := hmem hsorted j List.mem_cons_self
    have htotal := hp.total j hj
    have hpos := (s.job j).iterationsLeft_pos
    obtain rfl := Except.ok.inj ((hlen j hj).symm.trans hok)
    omega

/-- Jobs move between the two lists. -/
lemma Provided.reschedule (hp : s.Provided) {sched : EngineScheduler}
    (hperm : sched.jobs.Perm s.scheduler.jobs) (hconfig : sched.config = s.scheduler.config) :
    Provided { s with scheduler := sched } ∧ work { s with scheduler := sched } = s.work := by
  have hstart := hp.startable.of_mem fun j => (hperm.mem_iff (a := j)).mp
  refine ⟨⟨⟨hstart.fills, hstart.starts, hstart.parents⟩, fun j hj => ?_, fun j hj => ?_, ?_,
    fun hattn => ?_⟩, (hperm.map _).sum_eq⟩
  · show _ ∧ _ ≤ sched.config.maxNumBatchedTokens
    rw [hconfig]
    exact hp.fits j (hperm.mem_iff.mp hj)
  · show _ ≤ sched.config.maxTotalTokens + 1
    rw [hconfig]
    exact hp.total j (hperm.mem_iff.mp hj)
  · show (sched.jobs.map s.blocksLeft).sum ≤ s.mem.available
    rw [(hperm.map _).sum_eq]
    exact hp.blocks
  · show (sched.jobs.map s.finalLen).sum ≤ s.numKvCacheBlocks
    rw [(hperm.map _).sum_eq]
    exact hp.rows hattn

/-- `finish` finds the arrival times. -/
lemma ServedInv.finish_ok (h : ServedInv s) :
    ∃ sched, s.scheduler.finish s.job = .ok sched := by
  obtain ⟨added, removed, haccounts⟩ := h.accounts
  obtain ⟨sched, hok, -⟩ := SchedulerRun.finish_step haccounts fun j hj hend j' hj' hne htask => by
    have hmem : j ∈ s.scheduler.jobs := List.mem_append_right _ (List.mem_of_mem_filter hj)
    have hstays := h.alone j hmem j' hj' hne htask
    exact absurd (hend.symm.trans hstays) (by decide)
  exact ⟨sched, hok⟩

/-- What `n` rounds of the loop do to the jobs that were present at the start. -/
structure Advanced (n : ℕ) (s s' : BuiltinEngine) : Prop where
  work : s'.work ≤ s.work - n
  old : ∀ j ∈ s'.scheduler.jobs, j ∈ s.scheduler.jobs
  rest : ∀ j ∉ s.scheduler.jobs, s'.job j = s.job j
  settled : ∀ j ∈ s.scheduler.jobs, j ∈ s'.scheduler.jobs ∨ (s'.job j).finishEvent = true

/-- The batch runs, whichever of the present jobs it consists of. -/
lemma Provided.runIter (hp : s.Provided) (hserved : ServedInv s) (htree : TreeInv bs s)
    {waiting : List JobRef} (hjobs : s.scheduler.jobs = waiting ++ batch) (hne : batch ≠ [])
    (o : ModelOutput) :
    ∃ s', s.runIter o batch = .ok s' ∧ BatchRun s waiting batch s' ∧
      s.mem.available ≤ s'.mem.available + (batch.map s.openedBlocks).sum := by
  have hsub : batch.Sublist s.scheduler.jobs := by
    rw [hjobs]
    exact List.sublist_append_right _ _
  have hdistinct := hserved.distinct htree
  have hbound := hserved.boundTo htree
  have hbatch : BoundTo s s.registered batch := fun j hj => hbound j (hsub.subset hj)
  have hnodup := hdistinct.sublist (hsub.map fun j => (s.job j).context)
  have hopened : (batch.map s.openedBlocks).sum ≤ s.mem.available :=
    calc (batch.map s.openedBlocks).sum
      _ ≤ (batch.map s.blocksLeft).sum :=
          List.sum_le_sum fun j _ => newPages_mono (s.job j).numTokens_le_positionsLeft
      _ ≤ (s.scheduler.jobs.map s.blocksLeft).sum :=
          (hsub.map s.blocksLeft).sum_le_sum fun _ _ => Nat.zero_le _
      _ ≤ s.mem.available := hp.blocks
  have hgrown : s.attnFunc = .xFormersWithBuffer →
      (batch.map s.grownLen).sum ≤ s.numKvCacheBlocks := fun hattn =>
    calc (batch.map s.grownLen).sum
      _ ≤ (batch.map s.finalLen).sum := List.sum_le_sum fun j _ =>
          Nat.add_le_add_left (s.job j).numTokens_le_positionsLeft _
      _ ≤ (s.scheduler.jobs.map s.finalLen).sum :=
          (hsub.map s.finalLen).sum_le_sum fun _ _ => Nat.zero_le _
      _ ≤ s.numKvCacheBlocks := hp.rows hattn
  obtain ⟨s', hrun, hroom⟩ := runIter_ok htree.mem htree.rooted hbatch hnodup hne
    (hp.startable.of_mem fun _ hj => hsub.subset hj)
    (fun j hj => (hp.fits j (hsub.subset hj)).1) hopened hgrown o
  exact ⟨s', hrun, ⟨htree.rooted, hbound, hdistinct, hjobs ▸ List.Perm.refl _,
    runIter_iterated htree.mem hbatch hnodup hrun⟩, hroom⟩

/-- The jobs of a batch are done, or stay for a next one. -/
lemma BatchRun.advanced {waiting : List JobRef} (h : BatchRun s waiting batch s')
    (hbatch : batch ≠ []) {sched : EngineScheduler}
    (hjobs : sched.jobs = waiting ++ batch.filter fun j => !(s'.job j).finishEvent)
    (hwork : BuiltinEngine.work { s' with scheduler := sched } + batch.length ≤ s.work) :
    Advanced 1 s { s' with scheduler := sched } := by
  have hlen := List.length_pos_iff.mpr hbatch
  refine ⟨by omega, fun j hj => ?_, fun j hj => h.iterated.otherJob j fun hb => hj (h.mem_jobs hb),
    fun j hj => ?_⟩
  · have hj' : j ∈ sched.jobs := hj
    rw [hjobs, List.mem_append] at hj'
    exact h.jobs.subset (List.mem_append.mpr (hj'.imp_right List.mem_of_mem_filter))
  · show j ∈ sched.jobs ∨ (s'.job j).finishEvent = true
    rw [hjobs, List.mem_append, List.mem_filter, Bool.not_eq_true']
    rcases List.mem_append.mp (h.jobs.symm.subset hj) with hj' | hj'
    · exact .inl (.inl hj')
    · cases hdone : (s'.job j).finishEvent with
      | true => exact .inr rfl
      | false => exact .inl (.inr ⟨hj', rfl⟩)

/-- An iteration of an engine that is provided for. -/
lemma engineIter_advances (htree : TreeInv bs s) (hserved : ServedInv s)
    (hpolicy : s.scheduler.config.policy = .fifo) (hsize : 0 < s.scheduler.config.maxBatchSize)
    (hp : s.Provided) (o : ModelOutput) :
    ∃ s', s.engineIter o = .ok s' ∧ s'.crashed = s.crashed ∧ s'.Provided ∧ Advanced 1 s s' := by
  by_cases hempty : s.scheduler.isEmpty = true
  · refine ⟨s, by rw [engineIter, if_pos hempty], rfl, hp, ?_, fun _ => id, fun _ _ => rfl,
      fun _ => .inl⟩
    have hnil : s.scheduler.jobs = [] := by
      simpa [EngineScheduler.isEmpty, EngineScheduler.jobs] using hempty
    rw [work, hnil]
    exact le_rfl
  · have hjobs : s.scheduler.jobs ≠ [] := fun hnil => hempty (by
      simpa [EngineScheduler.isEmpty, EngineScheduler.jobs] using hnil)
    obtain ⟨batch, sched, hsched, hne⟩ :=
      (schedule_returns_iff hpolicy hsize hjobs).mpr (hserved.schedulable hp hjobs)
    obtain ⟨rfl, hperm, -⟩ := schedule_spec hsched
    have hconfig : sched.config = s.scheduler.config := by
      obtain ⟨preempted, total, -, heq, -⟩ := schedule_cases hpolicy hsched
      rw [heq]
    set s₁ : BuiltinEngine := { s with scheduler := sched } with hs₁
    obtain ⟨hp₁, hwork₁⟩ : s₁.Provided ∧ s₁.work = s.work := hp.reschedule hperm hconfig
    have hserved₁ : ServedInv s₁ := hserved.schedule hpolicy hsched
    obtain ⟨s₂, hrun, hbatch, hroom⟩ := hp₁.runIter hserved₁
      (htree.reschedule fun j => hperm.mem_iff.mp) rfl hne o
    have hkeeps := runIter_keeps hrun
    obtain ⟨sched₂, hfinish⟩ := (hserved₁.keeps hkeeps).finish_ok
    have hfin := hfinish
    rw [hkeeps.scheduler] at hfin
    obtain ⟨hconfig₂, hwaiting₂, hrunning₂⟩ := finish_spec hfin
    have hjobs₂ : sched₂.jobs =
        sched.waitingJobs ++ sched.runningJobs.filter fun j => !(s₂.job j).finishEvent := by
      rw [EngineScheduler.jobs, hwaiting₂, hrunning₂]
    obtain ⟨hp₂, hwork₂⟩ := hbatch.provided hp₁ hconfig₂ hjobs₂ hroom
    have hadv := hbatch.advanced hne hjobs₂ hwork₂
    refine ⟨{ s₂ with scheduler := sched₂ }, ?_, hbatch.iterated.crashed, hp₂,
      hwork₁ ▸ hadv.work, fun j hj => hperm.subset (hadv.old j hj),
      fun j hj => hadv.rest j fun hj' => hj (hperm.subset hj'),
      fun j hj => hadv.settled j (hperm.symm.subset hj)⟩
    rw [engineIter, if_neg hempty, scheduleBatch, hsched]
    dsimp only
    rw [← hs₁, hrun]
    dsimp only
    rw [hfinish]

/-! ## Requests -/

lemma freeContext_available (contextId : ℕ) :
    s.mem.available ≤ (s.freeContext contextId).2.mem.available := by
  rw [freeContext]
  split_ifs
  · exact le_rfl
  · rw [managerFreeContext]
    cases s.map contextId with
    | none => exact le_rfl
    | some r =>
        have hle := s.mem.destruction_available r
        dsimp only
        cases hd : s.mem.destruction r with
        | mk result m =>
            rw [hd] at hle
            cases result with
            | error e => exact hle
            | ok u => exact hle

/-- Only the states, the parents and the lengths of the contexts count. -/
lemma Provided.congr (hp : s.Provided) (hscheduler : s'.scheduler = s.scheduler)
    (hattn : s'.attnFunc = s.attnFunc) (hrows : s'.numKvCacheBlocks = s.numKvCacheBlocks)
    (hjob : s'.job = s.job) (hbs : s'.mem.blockSize = s.mem.blockSize)
    (hext : ∀ a, KvMemory.Extends (s.mem.obj a) (s'.mem.obj a) [] [])
    (havailable : s.mem.available ≤ s'.mem.available) : s'.Provided := by
  have hlineage : s'.mem.lineage = s.mem.lineage :=
    funext (KvMemory.lineage_congr fun a => (hext a).parentContext)
  have hlen : s'.mem.getThisContextLen = s.mem.getThisContextLen := by
    funext a
    rw [KvMemory.getThisContextLen, (hext a).blocks, List.append_nil]
    rfl
  have hcontext : s'.jobContext = s.jobContext := by
    funext j
    rw [jobContext, jobContext, hjob]
  have htotal : ∀ j, s'.mem.getContextLen (s'.jobContext j) =
      s.mem.getContextLen (s.jobContext j) := fun j => by
    rw [hcontext, KvMemory.getContextLen_lineage, hlineage, hlen, ← KvMemory.getContextLen_lineage]
  refine ⟨⟨fun j hj => ?_, fun j hj hgen => ?_, fun j hj a ha hne j' hj' => ?_⟩,
    fun j hj => ?_, fun j hj => ?_, ?_, fun hbuf => ?_⟩
  · rw [hscheduler] at hj
    rw [hjob]
    exact hp.startable.fills j hj
  · rw [hscheduler] at hj
    rw [hjob] at hgen
    rw [hcontext]
    exact (hp.startable.starts j hj hgen).congr fun a _ =>
      ⟨(hext a).tokenIds, (hext a).parentContext, (hext a).lastHiddenState⟩
  · rw [hscheduler] at hj hj'
    rw [hcontext, hlineage] at ha
    rw [hcontext] at hne ⊢
    exact hp.startable.parents j hj a ha hne j' hj'
  · rw [hscheduler] at hj ⊢
    rw [hjob]
    exact hp.fits j hj
  · rw [hscheduler] at hj ⊢
    rw [hjob, htotal]
    exact hp.total j hj
  · have hleft : s'.blocksLeft = s.blocksLeft := by
      funext j
      rw [blocksLeft, blocksLeft, hjob, hcontext, hlen, hbs]
    rw [hscheduler, hleft]
    exact hp.blocks.trans havailable
  · have hfinal : s'.finalLen = s.finalLen := by
      funext j
      rw [finalLen, finalLen, htotal, hjob]
    rw [hscheduler, hfinal, hrows]
    exact hp.rows (hattn.symm.trans hbuf)

/-- Freeing a context leaves the engine provided for. -/
lemma Provided.freeContext (hp : s.Provided) (htree : TreeInv bs s) (contextId : ℕ) :
    Provided (s.freeContext contextId).2 := by
  have havailable := s.freeContext_available contextId
  rcases freeContext_outcome htree contextId with heq | ⟨r, m, -, heq, -, hobj, hbs⟩
  · rwa [heq]
  · rw [heq] at havailable ⊢
    refine hp.congr rfl rfl rfl rfl hbs (fun a => ?_) havailable
    show KvMemory.Extends _ (m.obj a) [] []
    rw [hobj]
    exact (s.mem.unlinked_grown r a).2.2.2

/-- What the callers see to: a request is served, and leaves the engine provided for; a context is
freed when nothing needs it. -/
def ProvidedGuard (s : BuiltinEngine) : Action → Prop
  | .fill sid tid cid pid flag tokenIds t =>
      Served s (.fill sid tid cid pid flag tokenIds t) ∧
        (s.apply (.fill sid tid cid pid flag tokenIds t)).Provided
  | .generate sid tid cid pid flag cfg t =>
      Served s (.generate sid tid cid pid flag cfg t) ∧
        (s.apply (.generate sid tid cid pid flag cfg t)).Provided
  | .freeContext cid => FreeGuard s cid
  | .engineIter _ => True

lemma ProvidedGuard.served {a : Action} (h : ProvidedGuard s a) : Served s a := by
  cases a with
  | fill | generate => exact h.1
  | freeContext | engineIter => trivial

/-- What holds between the steps of such a run. -/
structure DrainInv (bs : ℕ) (config : SchedulerConfig) (s : BuiltinEngine) : Prop where
  tree : TreeInv bs s
  config_eq : s.scheduler.config = config
  served : ServedInv s
  provided : s.Provided
  running : s.crashed = false

lemma BindOutcome.crashed (h : BindOutcome s j s') : s'.crashed = s.crashed := by
  cases h with
  | unknownParent | existing | root | failed | forked => rfl

lemma freeContext_crashed (htree : TreeInv bs s) (contextId : ℕ) :
    (s.freeContext contextId).2.crashed = s.crashed := by
  rcases freeContext_outcome htree contextId with heq | ⟨r, m, -, heq, -⟩
  · rw [heq]
  · rw [heq]

/-- An iteration of the loop, in an engine that is provided for. -/
lemma DrainInv.engineIter {config : SchedulerConfig} (h : DrainInv bs config s)
    (hpolicy : config.policy = .fifo) (hsize : 0 < config.maxBatchSize) (o : ModelOutput) :
    (s.apply (.engineIter o)).Provided ∧ (s.apply (.engineIter o)).crashed = false ∧
      Advanced 1 s (s.apply (.engineIter o)) := by
  obtain ⟨s', hok, hcrashed, hp, hadv⟩ := engineIter_advances h.tree h.served
    (by rw [h.config_eq]; exact hpolicy) (by rw [h.config_eq]; exact hsize) h.provided o
  have happly : s.apply (.engineIter o) = s' := by
    rw [apply, hok]
  rw [happly]
  exact ⟨hp, hcrashed.trans h.running, hadv⟩

lemma DrainInv.apply {config : SchedulerConfig} (h : DrainInv bs config s)
    (hpolicy : config.policy = .fifo) (hsize : 0 < config.maxBatchSize) {a : Action}
    (hg : ProvidedGuard s a) : DrainInv bs config (s.apply a) := by
  have hserved : (system s.attnFunc bs 0 config).IsInvariantUnder Served
      fun s => s.scheduler.config = config ∧ ServedInv s := served_invariant hpolicy
  obtain ⟨hconfig', hserved'⟩ := hserved.step s a _ ⟨h.config_eq, h.served⟩ hg.served
    ⟨h.running, rfl⟩
  have htree : TreeInv bs (s.apply a) := h.tree.apply fun cid hcid => by
    subst hcid
    exact hg
  refine ⟨htree, hconfig', hserved', ?_, ?_⟩
  · cases a with
    | fill | generate => exact hg.2
    | freeContext cid => exact h.provided.freeContext h.tree cid
    | engineIter o => exact (h.engineIter hpolicy hsize o).1
  · cases a with
    | fill | generate => exact (bindJobContext_outcome _ _).crashed.trans h.running
    | freeContext cid => exact (freeContext_crashed h.tree cid).trans h.running
    | engineIter o => exact (h.engineIter hpolicy hsize o).2.1

lemma Advanced.trans {s'' : BuiltinEngine} {m n : ℕ} (h : Advanced m s s')
    (h' : Advanced n s' s'') : Advanced (m + n) s s'' := by
  refine ⟨?_, fun j hj => h.old j (h'.old j hj), fun j hj => ?_, fun j hj => ?_⟩
  · have hone := h.work
    have htwo := h'.work
    omega
  · rw [h'.rest j fun hj' => hj (h.old j hj'), h.rest j hj]
  · by_cases hj' : j ∈ s'.scheduler.jobs
    · exact h'.settled j hj'
    · right
      rw [h'.rest j hj']
      exact (h.settled j hj).resolve_left hj'

instance (r : CtxRef) : Decidable (s.Starts r) :=
  decidable_of_iff (∃ state ∈ (s.mem.getLastHiddenState r).toOption,
    (s.mem.obj r).tokenIds = [] → state ≠ none) <| by
    rw [Starts]
    cases s.mem.getLastHiddenState r with
    | error e => simp [Except.toOption]
    | ok state => simp [Except.toOption]

instance : Decidable s.Provided :=
  decidable_of_iff (((∀ j ∈ s.scheduler.jobs, (s.job j).kind ≠ .fill none) ∧
    (∀ j ∈ s.scheduler.jobs, (s.job j).isGenerate = true → s.Starts (s.jobContext j)) ∧
    ∀ j ∈ s.scheduler.jobs, ∀ a ∈ s.mem.lineage (s.jobContext j), a ≠ s.jobContext j →
      ∀ j' ∈ s.scheduler.jobs, s.jobContext j' ≠ a) ∧
    (∀ j ∈ s.scheduler.jobs, (s.job j).numTokens ≠ 0 ∧
      (s.job j).numTokens ≤ s.scheduler.config.maxNumBatchedTokens) ∧
    (∀ j ∈ s.scheduler.jobs, s.mem.getContextLen (s.jobContext j) + (s.job j).iterationsLeft ≤
      s.scheduler.config.maxTotalTokens + 1) ∧
    (s.scheduler.jobs.map s.blocksLeft).sum ≤ s.mem.available ∧
    (s.attnFunc = .xFormersWithBuffer →
      (s.scheduler.jobs.map s.finalLen).sum ≤ s.numKvCacheBlocks))
    ⟨fun ⟨⟨h₁, h₂, h₃⟩, h₄, h₅, h₆, h₇⟩ => ⟨⟨h₁, h₂, h₃⟩, h₄, h₅, h₆, h₇⟩,
      fun ⟨⟨h₁, h₂, h₃⟩, h₄, h₅, h₆, h₇⟩ => ⟨⟨h₁, h₂, h₃⟩, h₄, h₅, h₆, h₇⟩⟩

end BuiltinEngine

end ParrotServe
