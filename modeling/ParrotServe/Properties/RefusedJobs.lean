import ParrotServe.Properties.SubContexts

/-!
# Requests that an engine refuses

`_add_job` queues a job and then binds its context, so a request that raises is in the queue all the
same: it counts, its task and context have arrival times, and it waits without a context.  Nothing
else about it stays behind, because the one thing that can raise is the lookup of an unknown
parent.  The constructor of a context records its id in its parent and pads the parent, but in a
reachable state the padding fills the parent's last block and never asks the pool
(`KvMemory.adopt_ok`).

`refused_clean_iff` is the exact condition, `KnownContext`: the context of the request is in the
map, or its parent is, or it has none.  In every run of such requests each waiting job has a
context.
-/

namespace ParrotServe

namespace BuiltinEngine

open TransitionSystem

variable {s s' : BuiltinEngine} {bs : ℕ}

/-! ## What a refused request leaves behind -/

/-- What `_add_job` owes to its callers when it raises: the queues and the arrival tables, the
map, and the memory with all contexts and the pool are those of before. -/
def RefusesCleanly (s : BuiltinEngine) (record : PrimitiveJob) (curTime : ℕ) : Prop :=
  ∀ e s', s.addJob record curTime = (.error e, s') →
    s'.scheduler = s.scheduler ∧ s'.map = s.map ∧ s'.mem = s.mem

/-- A request for an unknown context with an unknown parent raises. -/
lemma addJob_unknown {record : PrimitiveJob} (curTime : ℕ)
    (h : ¬ s.KnownContext record.contextId record.parentContextId) :
    ∃ e, s.addJob record curTime = (.error e, s.queueJob record curTime) := by
  rw [KnownContext, not_or, not_not] at h
  obtain ⟨hmap, hparent⟩ := h
  have hself : (s.queueJob record curTime).job s.nextJob = record := by
    simp [queueJob, setJob]
  have hsame : (s.queueJob record curTime).map = s.map := rfl
  simp only [not_forall, not_not] at hparent
  obtain ⟨q, hq, hnone⟩ := hparent
  refine ⟨.keyError (toString q), ?_⟩
  rw [addJob, bindJobContext]
  simp only [hself, hsame, hmap, Option.mem_def.mp hq, hnone]

/-- The queue grew by a job. -/
lemma queueJob_scheduler_ne (s : BuiltinEngine) (record : PrimitiveJob) (curTime : ℕ) :
    (s.queueJob record curTime).scheduler ≠ s.scheduler := by
  intro he
  have hwaiting := congrArg (fun sched => sched.waitingJobs.length) he
  simp [queueJob, EngineScheduler.addJob] at hwaiting

/-! ## Runs of known requests -/

/-- The context of a new job is known. -/
def KnownRequest (s : BuiltinEngine) : Action → Prop
  | .fill _ _ cid pid _ _ _ => s.KnownContext cid pid
  | .generate _ _ cid pid _ _ _ => s.KnownContext cid pid
  | _ => True

lemma JobsBound.apply_known (hb : s.JobsBound) (h : ForestInv bs s) {a : Action}
    (hg : s.KnownRequest a) : (s.apply a).JobsBound := by
  have hreg := s.registered_subset_standing
  cases a with
  | fill sid tid cid pid flag ts t =>
      exact (hb.addJob h.mem hreg (fillJob sid tid cid pid flag ts) t hg).2
  | generate sid tid cid pid flag cfg t =>
      exact (hb.addJob h.mem hreg (generateJob sid tid cid pid flag cfg) t hg).2
  | freeContext cid => exact hb.keeps (freeContext_keeps cid)
  | engineIter o =>
      rw [BuiltinEngine.apply]
      split
      · exact hb.engineIter ‹_›
      · exact hb

lemma knownRequest_invariant (attnFunc : AttnFunc) (hbs : 0 < bs) (n : ℕ)
    (config : SchedulerConfig) : (system attnFunc bs n config).IsInvariantUnder KnownRequest
      fun s => ForestInv bs s ∧ s.JobsBound where
  init s hs := by
    refine ⟨(forestInv_invariant attnFunc hbs n config).init s hs, ?_⟩
    rw [show s = start attnFunc bs n config from hs]
    simp [JobsBound, start, EngineScheduler.jobs]
  step s a s' h hg hstep := by
    rw [hstep.2]
    exact ⟨h.1.apply a, h.2.apply_known h.1 hg⟩

/-! ## The result -/

/-- **When a refused request leaves the engine as it was.**  In every reachable state that is so
exactly for the requests with a known context, which are never refused; and in every run of such
requests each waiting job has a context. -/
theorem refused_clean_iff (attnFunc : AttnFunc) (blockSize : ℕ) (hbs : 0 < blockSize)
    (numKvCacheBlocks : ℕ) (config : SchedulerConfig) :
    (∀ s, (system attnFunc blockSize numKvCacheBlocks config).Reachable s →
      ∀ record curTime, s.RefusesCleanly record curTime ↔
        s.KnownContext record.contextId record.parentContextId) ∧
    ∀ s, (system attnFunc blockSize numKvCacheBlocks config).ReachableUnder KnownRequest s →
      ∀ j ∈ s.scheduler.waitingJobs, (s.job j).context ≠ none := by
  refine ⟨fun s hs record curTime => ⟨fun hclean => ?_, fun hknown e s' hs' => ?_⟩,
    fun s hs j hj => ?_⟩
  · by_contra hunknown
    obtain ⟨e, heq⟩ := s.addJob_unknown curTime hunknown
    exact s.queueJob_scheduler_ne record curTime (hclean e _ heq).1
  · have h := (forestInv_invariant attnFunc hbs numKvCacheBlocks config).holds hs
    have hself : (s.queueJob record curTime).job s.nextJob = record := by
      simp [queueJob, setJob]
    have hqueued : (s.queueJob record curTime).mem.MemInv s.standing := h.mem
    have hok := (bindJobContext_binds hqueued s.registered_subset_standing s.nextJob (by
      rw [hself]
      exact hknown)).1
    rw [addJob] at hs'
    rw [hs'] at hok
    cases hok
  · obtain ⟨-, hb⟩ := (knownRequest_invariant attnFunc hbs numKvCacheBlocks config).holds hs
    exact hb j (List.mem_append_left _ hj)

/-- The requests of a forked context are known, and their jobs are bound. -/
theorem refused_clean_fork :
    (start .xFormersFillVllmPagedAttentionGenerate 2 8 roomyConfig).RefusesCleanly
      (fillJob 0 0 0 none false [7]) 0 ∧
    ∀ j ∈ forkedContext.scheduler.waitingJobs, (forkedContext.job j).context ≠ none := by
  obtain ⟨hclean, hbound⟩ := refused_clean_iff .xFormersFillVllmPagedAttentionGenerate 2
    (by decide) 8 roomyConfig
  refine ⟨(hclean _ (.init rfl) _ 0).mpr (.inr fun q hq => ?_), hbound forkedContext ?_⟩
  · cases hq
  · refine .foldl _ (.init rfl) ⟨rfl, .inr fun q hq => ?_, rfl, .inr fun q hq => ?_, trivial⟩
    · cases hq
    · obtain rfl := Option.some.inj hq
      decide

/-- A Fill whose parent is unknown. -/
def unknownParent : BuiltinEngine :=
  (start .xFormersFillVllmPagedAttentionGenerate 2 8 roomyConfig).apply
    (.fill 0 0 1 (some 0) false [7] 0)

/-- The request raises, and its job waits without a context. -/
theorem refused_unclean :
    (system .xFormersFillVllmPagedAttentionGenerate 2 8 roomyConfig).Reachable unknownParent ∧
      unknownParent.scheduler.waitingJobs = [0] ∧ (unknownParent.job 0).context = none ∧
      ¬ (start .xFormersFillVllmPagedAttentionGenerate 2 8 roomyConfig).RefusesCleanly
        (fillJob 0 0 1 (some 0) false [7]) 0 := by
  refine ⟨.step (.init rfl) trivial ⟨rfl, rfl⟩, by decide, by decide, fun hclean => ?_⟩
  have hsched := (hclean (.keyError "0") unknownParent rfl).1
  have hwaiting : unknownParent.scheduler.waitingJobs = [] := by
    rw [hsched]
    rfl
  revert hwaiting
  decide

end BuiltinEngine

end ParrotServe
