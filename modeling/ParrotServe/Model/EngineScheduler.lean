import ParrotServe.Model.BlockContext
import Mathlib.Data.List.Sort

/-!
# Primitive jobs and the engine scheduler

`PrimitiveJob` with its two kinds (`parrot/engine/primitive_job.py`) and `EngineScheduler`
(`parrot/engine/engine_scheduler.py`).  A job is shared between the scheduler's lists and the
request handler that waits for it, so the lists hold references and the jobs live in a heap.

The scheduler reads two things about a job besides its record: the number of tokens it adds,
which is a field, and `job.context.get_context_len()`, which depends on the memory and raises
when the job was never bound.  The latter is the parameter `contextLen`.

Timestamps of jobs (`start_time`, `end_time`) only feed the log and are left out; arrival times
are kept, they are sort keys.
-/

namespace ParrotServe

/-- The identity of a job object. -/
abbrev JobRef := ℕ

/-- The part of `SamplingConfig` that decides when a generation stops. -/
structure SamplingConfig where
  stopTokenIds : List ℕ
  maxGenLength : ℕ
  deriving DecidableEq, Repr

/-- `Fill` or `Generate`, with what the two do not share. -/
inductive JobKind
  | fill (tokenIds : Option (List ℕ))
  | generate (samplingConfig : SamplingConfig)
  deriving DecidableEq, Repr

/-- A `PrimitiveJob`.  `parentContextId` is `none` for `NONE_CONTEXT_ID`. -/
structure PrimitiveJob where
  sessionId : ℕ
  taskId : ℕ
  contextId : ℕ
  parentContextId : Option ℕ
  endFlag : Bool
  kind : JobKind
  context : Option CtxRef := none
  finishEvent : Bool := false
  outputQueue : List ℕ := []
  genLength : ℕ := 0
  deriving DecidableEq, Repr

namespace PrimitiveJob

/-- `isinstance(job, Generate)`. -/
def isGenerate (job : PrimitiveJob) : Bool :=
  match job.kind with
  | .fill _ => false
  | .generate _ => true

/-- The number of tokens a job adds to a batch, as the admission loop counts them. -/
def numTokens (job : PrimitiveJob) : ℕ :=
  match job.kind with
  | .fill (some tokenIds) => tokenIds.length
  | .fill none => 1
  | .generate _ => 1

end PrimitiveJob

/-- `SchedulerConfig.policy`; every value but the first two selects the default branch. -/
inductive SchedulerPolicy
  | tgi
  | fifoV1
  | fifo
  deriving DecidableEq, Repr

/-- `SchedulerConfig`. -/
structure SchedulerConfig where
  maxBatchSize : ℕ
  maxNumBatchedTokens : ℕ
  maxTotalTokens : ℕ
  policy : SchedulerPolicy := .fifo
  deriving DecidableEq, Repr

/-- The state of an `EngineScheduler`. -/
structure EngineScheduler where
  config : SchedulerConfig
  waitingJobs : List JobRef := []
  runningJobs : List JobRef := []
  /-- Keyed by context id. -/
  jobArrivalTime : ℕ → Option ℕ := fun _ => none
  /-- Keyed by task id. -/
  taskArrivalTime : ℕ → Option ℕ := fun _ => none

namespace EngineScheduler

variable (sched : EngineScheduler) (job : JobRef → PrimitiveJob)
  (contextLen : JobRef → Except PyError ℕ)

/-- The jobs the scheduler holds. -/
def jobs : List JobRef := sched.waitingJobs ++ sched.runningJobs

/-- `is_empty`. -/
def isEmpty : Bool := sched.waitingJobs.isEmpty && sched.runningJobs.isEmpty

/-- `add_job`. -/
def addJob (j : JobRef) (record : PrimitiveJob) (curTime : ℕ) : EngineScheduler :=
  { sched with
    waitingJobs := sched.waitingJobs ++ [j]
    jobArrivalTime := Function.update sched.jobArrivalTime record.contextId (some curTime)
    taskArrivalTime :=
      match sched.taskArrivalTime record.taskId with
      | some _ => sched.taskArrivalTime
      | none => Function.update sched.taskArrivalTime record.taskId (some curTime) }

/-- `remove_job`. -/
def removeJob (record : PrimitiveJob) : Except PyError EngineScheduler :=
  match sched.jobArrivalTime record.contextId with
  | none => .error (.keyError (toString record.contextId))
  | some _ =>
      let sched := { sched with
        jobArrivalTime := Function.update sched.jobArrivalTime record.contextId none }
      if record.endFlag then
        match sched.taskArrivalTime record.taskId with
        | none => .error (.keyError (toString record.taskId))
        | some _ => .ok { sched with
            taskArrivalTime := Function.update sched.taskArrivalTime record.taskId none }
      else .ok sched

/-! ## Scheduling -/

/-- The admission loop of the default policy, over the waiting jobs: returns the running jobs
and those left waiting. -/
def admission (cfg : SchedulerConfig) (numTokens : JobRef → ℕ) :
    List JobRef → List JobRef → ℕ → ℕ → List JobRef × List JobRef
  | [], running, _, _ => (running, [])
  | j :: waiting, running, curNumJobs, curNumBatchedTokens =>
      if cfg.maxBatchSize < curNumJobs + 1 then (running, j :: waiting)
      else if cfg.maxNumBatchedTokens < curNumBatchedTokens + numTokens j then
        (running, j :: waiting)
      else
        admission cfg numTokens waiting (running ++ [j]) (curNumJobs + 1)
          (curNumBatchedTokens + numTokens j)

/-- The admission loop of `fifo_v1`, which also bounds the context lengths. -/
def admissionV1 (cfg : SchedulerConfig) (numTokens : JobRef → ℕ)
    (contextLen : JobRef → Except PyError ℕ) :
    List JobRef → List JobRef → ℕ → ℕ → ℕ → Except PyError (List JobRef × List JobRef)
  | [], running, _, _, _ => .ok (running, [])
  | j :: waiting, running, curNumJobs, curNumBatchedTokens, curTotalTokens =>
      match contextLen j with
      | .error e => .error e
      | .ok jobTotalTokens =>
          if cfg.maxBatchSize < curNumJobs + 1 then .ok (running, j :: waiting)
          else if cfg.maxNumBatchedTokens < curNumBatchedTokens + numTokens j then
            .ok (running, j :: waiting)
          else if cfg.maxTotalTokens < curTotalTokens + jobTotalTokens then
            .ok (running, j :: waiting)
          else
            admissionV1 cfg numTokens contextLen waiting (running ++ [j]) (curNumJobs + 1)
              (curNumBatchedTokens + numTokens j) (curTotalTokens + jobTotalTokens)

/-- `sum([job.context.get_context_len() for job in jobs])`. -/
def totalTokens (contextLen : JobRef → Except PyError ℕ) : List JobRef → Except PyError ℕ
  | [] => .ok 0
  | j :: js =>
      match contextLen j with
      | .error e => .error e
      | .ok n =>
          match totalTokens contextLen js with
          | .error e => .error e
          | .ok total => .ok (n + total)

/-- The sort keys of the running jobs; a missing entry of either table raises. -/
def arrivalKeys : List JobRef → Except PyError (List ((ℕ × ℕ) × JobRef))
  | [] => .ok []
  | j :: js =>
      match sched.taskArrivalTime (job j).taskId, sched.jobArrivalTime (job j).contextId with
      | none, _ => .error (.keyError (toString (job j).taskId))
      | some _, none => .error (.keyError (toString (job j).contextId))
      | some t, some t' =>
          match arrivalKeys js with
          | .error e => .error e
          | .ok keys => .ok (((t, t'), j) :: keys)

/-- Lexicographic order of two sort keys. -/
def keyLe (a b : (ℕ × ℕ) × JobRef) : Prop :=
  a.1.1 < b.1.1 ∨ (a.1.1 = b.1.1 ∧ a.1.2 ≤ b.1.2)

instance : DecidableRel keyLe := fun _ _ => inferInstanceAs (Decidable (_ ∨ _))

/-- `self.running_jobs.sort(...)`. -/
def sortByArrival (js : List JobRef) : Except PyError (List JobRef) :=
  match sched.arrivalKeys job js with
  | .error e => .error e
  | .ok keys => .ok ((keys.insertionSort keyLe).map Prod.snd)

/-- The preemption loop: a prefix of the sorted jobs keeps running, each later one is put at the
head of the waiting list in turn. -/
def keepWithin (maxTotalTokens : ℕ) (contextLen : JobRef → Except PyError ℕ) :
    List JobRef → List JobRef → ℕ → Bool → List JobRef →
      Except PyError (List JobRef × List JobRef)
  | [], newRunning, _, _, waiting => .ok (newRunning, waiting)
  | j :: js, newRunning, curTotalTokens, preempted, waiting =>
      if preempted then
        keepWithin maxTotalTokens contextLen js newRunning curTotalTokens true (j :: waiting)
      else
        match contextLen j with
        | .error e => .error e
        | .ok jobTokens =>
            if maxTotalTokens < curTotalTokens + jobTokens then
              keepWithin maxTotalTokens contextLen js newRunning curTotalTokens true
                (j :: waiting)
            else
              keepWithin maxTotalTokens contextLen js (newRunning ++ [j])
                (curTotalTokens + jobTokens) false waiting

/-- `schedule`: the batch to run, and the scheduler after it.  The `"tgi"` branch ends in
`assert False`. -/
def schedule : Except PyError (List JobRef × EngineScheduler) :=
  let numTokens := fun j => (job j).numTokens
  match sched.config.policy with
  | .tgi => .error (.assertionError "")
  | .fifoV1 =>
      match totalTokens contextLen sched.runningJobs with
      | .error e => .error e
      | .ok total =>
          match admissionV1 sched.config numTokens contextLen sched.waitingJobs sched.runningJobs
            sched.runningJobs.length sched.runningJobs.length total with
          | .error e => .error e
          | .ok (running, waiting) =>
              .ok (running, { sched with runningJobs := running, waitingJobs := waiting })
  | .fifo =>
      let (running, waiting) := admission sched.config numTokens sched.waitingJobs
        sched.runningJobs sched.runningJobs.length sched.runningJobs.length
      match sched.sortByArrival job running with
      | .error e => .error e
      | .ok running =>
          match keepWithin sched.config.maxTotalTokens contextLen running [] 0 false waiting with
          | .error e => .error e
          | .ok (newRunning, waiting) =>
              .ok (newRunning, { sched with runningJobs := newRunning, waitingJobs := waiting })

/-- The loop of `finish` over the running jobs. -/
def finishAux (job : JobRef → PrimitiveJob) :
    List JobRef → EngineScheduler → List JobRef → Except PyError EngineScheduler
  | [], sched, newRunning => .ok { sched with runningJobs := newRunning }
  | j :: js, sched, newRunning =>
      if (job j).finishEvent then
        match sched.removeJob (job j) with
        | .error e => .error e
        | .ok sched => finishAux job js sched newRunning
      else finishAux job js sched (newRunning ++ [j])

/-- `finish`: drop the finished jobs from the running list. -/
def finish : Except PyError EngineScheduler := finishAux job sched.runningJobs sched []

/-! ## Where the jobs of a batch come from -/

variable {sched job contextLen}

lemma admission_perm (cfg : SchedulerConfig) (numTokens : JobRef → ℕ) (waiting : List JobRef) :
    ∀ running n t, ((admission cfg numTokens waiting running n t).1 ++
      (admission cfg numTokens waiting running n t).2).Perm (running ++ waiting) := by
  induction waiting with
  | nil => intro running n t; simp [admission]
  | cons j waiting ih =>
      intro running n t
      rw [admission]
      split_ifs
      · exact List.Perm.refl _
      · exact List.Perm.refl _
      · exact (ih _ _ _).trans (by simp)

lemma admissionV1_spec (cfg : SchedulerConfig) (numTokens : JobRef → ℕ) (waiting : List JobRef) :
    ∀ {running n t c res}, admissionV1 cfg numTokens contextLen waiting running n t c = .ok res →
      (res.1 ++ res.2).Perm (running ++ waiting) ∧
      ∀ j ∈ res.1, j ∈ running ∨ ∃ len, contextLen j = .ok len := by
  induction waiting with
  | nil =>
      intro running n t c res h
      obtain rfl := Except.ok.inj h
      exact ⟨List.Perm.refl _, fun j hj => .inl hj⟩
  | cons j waiting ih =>
      intro running n t c res h
      rw [admissionV1] at h
      rcases hlen : contextLen j with e | len
      · rw [hlen] at h
        simp at h
      · rw [hlen] at h
        simp only at h
        split_ifs at h
        · obtain rfl := Except.ok.inj h
          exact ⟨List.Perm.refl _, fun j hj => .inl hj⟩
        · obtain rfl := Except.ok.inj h
          exact ⟨List.Perm.refl _, fun j hj => .inl hj⟩
        · obtain rfl := Except.ok.inj h
          exact ⟨List.Perm.refl _, fun j hj => .inl hj⟩
        · obtain ⟨hperm, hmem⟩ := ih h
          refine ⟨hperm.trans (by simp), fun x hx => ?_⟩
          rcases hmem x hx with hx' | hx'
          · rcases List.mem_append.mp hx' with hx'' | hx''
            · exact .inl hx''
            · exact .inr ⟨len, by rwa [List.mem_singleton.mp hx'']⟩
          · exact .inr hx'

lemma totalTokens_spec (js : List JobRef) :
    ∀ {total}, totalTokens contextLen js = .ok total → ∀ j ∈ js, ∃ len, contextLen j = .ok len := by
  induction js with
  | nil => intro _ _ j hj; simp at hj
  | cons j js ih =>
      intro total h
      rw [totalTokens] at h
      rcases hlen : contextLen j with e | len
      · rw [hlen] at h
        simp at h
      · rcases hrest : totalTokens contextLen js with e | rest
        · rw [hlen, hrest] at h
          simp at h
        · intro x hx
          rcases List.mem_cons.mp hx with rfl | hx
          · exact ⟨len, hlen⟩
          · exact ih hrest x hx

lemma arrivalKeys_map (js : List JobRef) :
    ∀ {keys}, sched.arrivalKeys job js = .ok keys → keys.map Prod.snd = js := by
  induction js with
  | nil =>
      intro keys h
      obtain rfl := Except.ok.inj h
      rfl
  | cons j js ih =>
      intro keys h
      rw [arrivalKeys] at h
      split at h
      · simp at h
      · simp at h
      · split at h
        · simp at h
        · rename_i hrest
          obtain rfl := Except.ok.inj h
          rw [List.map_cons, ih hrest]

lemma sortByArrival_perm {js sorted : List JobRef} (h : sched.sortByArrival job js = .ok sorted) :
    sorted.Perm js := by
  rw [sortByArrival] at h
  split at h
  · simp at h
  · rename_i keys hkeys
    obtain rfl := Except.ok.inj h
    rw [← arrivalKeys_map js hkeys]
    exact (List.perm_insertionSort keyLe keys).map Prod.snd

lemma keepWithin_spec (n : ℕ) (js : List JobRef) :
    ∀ {newRunning cur preempted waiting res},
      keepWithin n contextLen js newRunning cur preempted waiting = .ok res →
      (res.1 ++ res.2).Perm (newRunning ++ (js ++ waiting)) ∧
      ∀ j ∈ res.1, j ∈ newRunning ∨ ∃ len, contextLen j = .ok len := by
  induction js with
  | nil =>
      intro newRunning cur preempted waiting res h
      obtain rfl := Except.ok.inj h
      exact ⟨List.Perm.refl _, fun j hj => .inl hj⟩
  | cons j js ih =>
      intro newRunning cur preempted waiting res h
      have hback : (newRunning ++ (js ++ j :: waiting)).Perm
          (newRunning ++ (j :: js ++ waiting)) :=
        List.Perm.append_left _ List.perm_middle
      rw [keepWithin] at h
      split_ifs at h
      · obtain ⟨hperm, hmem⟩ := ih h
        exact ⟨hperm.trans hback, hmem⟩
      · rcases hlen : contextLen j with e | len
        · rw [hlen] at h
          simp at h
        · rw [hlen] at h
          simp only at h
          split_ifs at h
          · obtain ⟨hperm, hmem⟩ := ih h
            exact ⟨hperm.trans hback, hmem⟩
          · obtain ⟨hperm, hmem⟩ := ih h
            refine ⟨hperm.trans (by simp), fun x hx => ?_⟩
            rcases hmem x hx with hx' | hx'
            · rcases List.mem_append.mp hx' with hx'' | hx''
              · exact .inl hx''
              · exact .inr ⟨len, by rwa [List.mem_singleton.mp hx'']⟩
            · exact .inr hx'

/-- `schedule` moves jobs between its two lists, returns the running ones, and has computed the
context length of each of them. -/
lemma schedule_spec {batch : List JobRef} {sched' : EngineScheduler}
    (h : sched.schedule job contextLen = .ok (batch, sched')) :
    sched'.runningJobs = batch ∧ sched'.jobs.Perm sched.jobs ∧
      ∀ j ∈ batch, ∃ len, contextLen j = .ok len := by
  rw [schedule] at h
  split at h
  · simp at h
  · split at h
    · simp at h
    · rename_i total htotal
      split at h
      · simp at h
      · rename_i running waiting hadm
        obtain ⟨rfl, rfl⟩ := Prod.mk.inj (Except.ok.inj h)
        obtain ⟨hperm, hmem⟩ := admissionV1_spec _ _ _ hadm
        refine ⟨rfl, ?_, fun j hj => ?_⟩
        · exact List.perm_append_comm.trans (hperm.trans List.perm_append_comm)
        · exact (hmem j hj).elim (totalTokens_spec _ htotal j) id
  · dsimp only at h
    split at h
    · simp at h
    · rename_i sorted hsort
      split at h
      · simp at h
      · rename_i newRunning waiting hkeep
        obtain ⟨rfl, rfl⟩ := Prod.mk.inj (Except.ok.inj h)
        obtain ⟨hperm, hmem⟩ := keepWithin_spec _ _ hkeep
        refine ⟨rfl, ?_, fun j hj => (hmem j hj).resolve_left (by simp)⟩
        have hadm := admission_perm sched.config (fun j => (job j).numTokens) sched.waitingJobs
          sched.runningJobs sched.runningJobs.length sched.runningJobs.length
        exact List.perm_append_comm.trans (hperm.trans
          (((sortByArrival_perm hsort).append_right _).trans
            (hadm.trans List.perm_append_comm)))

/-- A removal only touches the tables of arrival times. -/
lemma removeJob_spec {record : PrimitiveJob} {sched' : EngineScheduler}
    (h : sched.removeJob record = .ok sched') :
    sched'.config = sched.config ∧ sched'.waitingJobs = sched.waitingJobs := by
  rw [removeJob] at h
  split at h
  · cases h
  · dsimp only at h
    split_ifs at h
    · split at h
      · cases h
      · obtain rfl := Except.ok.inj h
        exact ⟨rfl, rfl⟩
    · obtain rfl := Except.ok.inj h
      exact ⟨rfl, rfl⟩

lemma finishAux_spec {sched' : EngineScheduler} (js : List JobRef) :
    ∀ {sched : EngineScheduler} {newRunning : List JobRef},
      finishAux job js sched newRunning = .ok sched' →
      sched'.config = sched.config ∧ sched'.waitingJobs = sched.waitingJobs ∧
      sched'.runningJobs = newRunning ++ js.filter fun j => !(job j).finishEvent := by
  induction js with
  | nil =>
      intro sched newRunning h
      obtain rfl := Except.ok.inj h
      exact ⟨rfl, rfl, (List.append_nil _).symm⟩
  | cons j js ih =>
      intro sched newRunning h
      rw [finishAux] at h
      split_ifs at h with hfin
      · split at h
        · cases h
        · rename_i sched₁ hremove
          obtain ⟨hconfig₁, hwaiting₁⟩ := removeJob_spec hremove
          obtain ⟨hconfig, hwaiting, hrunning⟩ := ih h
          refine ⟨hconfig.trans hconfig₁, hwaiting.trans hwaiting₁, ?_⟩
          rw [hrunning, List.filter_cons_of_neg (by simp [hfin])]
      · obtain ⟨hconfig, hwaiting, hrunning⟩ := ih h
        refine ⟨hconfig, hwaiting, ?_⟩
        rw [hrunning, List.filter_cons_of_pos (by simp [hfin]), List.append_assoc,
          List.singleton_append]

/-- `finish` drops the running jobs that have finished. -/
lemma finish_spec {sched' : EngineScheduler} (h : sched.finish job = .ok sched') :
    sched'.config = sched.config ∧ sched'.waitingJobs = sched.waitingJobs ∧
      sched'.runningJobs = sched.runningJobs.filter fun j => !(job j).finishEvent := by
  obtain ⟨hconfig, hwaiting, hrunning⟩ := finishAux_spec _ h
  exact ⟨hconfig, hwaiting, hrunning.trans (List.nil_append _)⟩

/-- No job enters the queues by it. -/
lemma jobs_of_finish {sched' : EngineScheduler} (h : sched.finish job = .ok sched') {j : JobRef}
    (hj : j ∈ sched'.jobs) : j ∈ sched.jobs := by
  obtain ⟨-, hwaiting, hrunning⟩ := finish_spec h
  rw [jobs, List.mem_append, hwaiting, hrunning] at hj
  exact List.mem_append.mpr (hj.imp_right List.mem_of_mem_filter)

end EngineScheduler

end ParrotServe
