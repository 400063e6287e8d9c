import ParrotServe.Framework.TransitionSystem
import ParrotServe.Model.EngineScheduler

/-!
# Every job is accounted for

`EngineScheduler` under its default policy, driven by `add_job`, `schedule` and `finish` in any
order, while the jobs are executed: their records change, and so do the lengths of their
contexts, but a job that is present keeps its context, its task and its end flag.

`Proper` is what the callers promise: jobs present at the same time have distinct context ids,
and a job with the end flag is the last one of its task, so that no other job of the task stays
behind when it finishes.  In every such run the lists hold exactly the jobs that were added and
have not finished, the two tables of arrival times cover them, and no call raises
(`jobs_accounted`).
-/

namespace ParrotServe

/-- An `EngineScheduler` with its jobs.  History: the jobs that were added, and those that `finish`
removed. -/
structure SchedulerRun where
  sched : EngineScheduler
  job : JobRef → PrimitiveJob
  added : List JobRef
  removed : List JobRef

namespace SchedulerRun

/-- What can happen to the scheduler. -/
inductive Action
  /-- Jobs are created and executed. -/
  | jobs (job : JobRef → PrimitiveJob)
  | addJob (j : JobRef) (curTime : ℕ)
  | schedule (contextLen : JobRef → ℕ)
  | finish

/-- A new scheduler. -/
def start (config : SchedulerConfig) (job : JobRef → PrimitiveJob) : SchedulerRun where
  sched := { config }
  job
  added := []
  removed := []

variable (s : SchedulerRun)

/-- A job that is present keeps its context id, its task id and its end flag. -/
def KeepsIds (job job' : JobRef → PrimitiveJob) (j : JobRef) : Prop :=
  (job' j).contextId = (job j).contextId ∧ (job' j).taskId = (job j).taskId ∧
    (job' j).endFlag = (job j).endFlag

instance (job job' : JobRef → PrimitiveJob) (j : JobRef) : Decidable (KeepsIds job job' j) :=
  inferInstanceAs (Decidable (_ ∧ _ ∧ _))

/-- Execution does not change what a job is. -/
def Enabled : Action → Prop
  | .jobs job => ∀ j ∈ s.sched.jobs, KeepsIds s.job job j
  | _ => True

instance : ∀ a, Decidable (s.Enabled a)
  | .jobs job => inferInstanceAs (Decidable (∀ j ∈ s.sched.jobs, KeepsIds s.job job j))
  | .addJob _ _ | .schedule _ | .finish => inferInstanceAs (Decidable True)

/-- The running jobs whose `finish_event` is set. -/
def finished : List JobRef := s.sched.runningJobs.filter fun j => (s.job j).finishEvent

/-- The effect of an action. -/
def apply : Action → Except PyError SchedulerRun
  | .jobs job => .ok { s with job }
  | .addJob j curTime => .ok { s with
      sched := s.sched.addJob j (s.job j) curTime
      added := s.added ++ [j] }
  | .schedule contextLen =>
      match s.sched.schedule s.job fun j => .ok (contextLen j) with
      | .error e => .error e
      | .ok (_, sched) => .ok { s with sched }
  | .finish =>
      match s.sched.finish s.job with
      | .error e => .error e
      | .ok sched => .ok { s with sched, removed := s.removed ++ s.finished }

/-- Every order of these calls. -/
def system (config : SchedulerConfig) (job : JobRef → PrimitiveJob) :
    TransitionSystem SchedulerRun Action :=
  .ofExcept (start config job) Enabled apply

/-! ## What callers promise, and what they get -/

/-- No other job of the task of a finished job with the end flag stays: it has finished too, and
without the end flag. -/
def LastOfTask (j : JobRef) : Prop :=
  (s.job j).endFlag = true → ∀ j' ∈ s.sched.jobs, j' ≠ j → (s.job j').taskId = (s.job j).taskId →
    j' ∈ s.finished ∧ (s.job j').endFlag = false

instance (j : JobRef) : Decidable (s.LastOfTask j) :=
  inferInstanceAs (Decidable ((s.job j).endFlag = true → _))

/-- The context of a new job is not that of a present one, and a job with the end flag is the last
present job of its task. -/
def Proper : Action → Prop
  | .addJob j _ => ∀ j' ∈ s.sched.jobs, (s.job j').contextId ≠ (s.job j).contextId
  | .finish => ∀ j ∈ s.finished, s.LastOfTask j
  | _ => True

instance : ∀ a, Decidable (s.Proper a)
  | .addJob j _ => inferInstanceAs
      (Decidable (∀ j' ∈ s.sched.jobs, (s.job j').contextId ≠ (s.job j).contextId))
  | .finish => inferInstanceAs (Decidable (∀ j ∈ s.finished, s.LastOfTask j))
  | .jobs _ | .schedule _ => inferInstanceAs (Decidable True)

/-- The jobs that are present are those that were added and not removed, the tables of arrival
times cover them, and neither `schedule` nor `finish` raises. -/
structure Accounted (s : SchedulerRun) : Prop where
  jobs : (s.sched.jobs ++ s.removed).Perm s.added
  jobTimes : ∀ c, s.sched.jobArrivalTime c ≠ none ↔ ∃ j ∈ s.sched.jobs, (s.job j).contextId = c
  taskTimes : ∀ j ∈ s.sched.jobs, s.sched.taskArrivalTime (s.job j).taskId ≠ none
  schedules : ∀ contextLen : JobRef → ℕ,
    ∃ result, s.sched.schedule s.job (fun j => .ok (contextLen j)) = .ok result
  finishes : s.Proper .finish → ∃ sched, s.sched.finish s.job = .ok sched

end SchedulerRun

/-! ## Calls that do not raise -/

namespace EngineScheduler

variable {sched : EngineScheduler} {job : JobRef → PrimitiveJob}

/-- The sort finds its keys. -/
lemma sortByArrival_ok (js : List JobRef)
    (hjob : ∀ j ∈ js, sched.jobArrivalTime (job j).contextId ≠ none)
    (htask : ∀ j ∈ js, sched.taskArrivalTime (job j).taskId ≠ none) :
    ∃ sorted, sched.sortByArrival job js = .ok sorted := by
  have hkeys : ∃ keys, sched.arrivalKeys job js = .ok keys := by
    induction js with
    | nil => exact ⟨[], rfl⟩
    | cons j js ih =>
        obtain ⟨keys, hrest⟩ := ih (fun x hx => hjob x (List.mem_cons_of_mem _ hx))
          fun x hx => htask x (List.mem_cons_of_mem _ hx)
        obtain ⟨t, ht⟩ := Option.ne_none_iff_exists'.mp (htask j List.mem_cons_self)
        obtain ⟨t', ht'⟩ := Option.ne_none_iff_exists'.mp (hjob j List.mem_cons_self)
        exact ⟨((t, t'), j) :: keys, by simp only [arrivalKeys, ht, ht', hrest]⟩
  obtain ⟨keys, hkeys⟩ := hkeys
  refine ⟨(keys.insertionSort keyLe).map Prod.snd, ?_⟩
  simp only [sortByArrival, hkeys]

/-- The preemption loop does not raise when every job has a context. -/
lemma keepWithin_ok (n : ℕ) (contextLen : JobRef → ℕ) (js : List JobRef) :
    ∀ newRunning cur preempted waiting, ∃ result,
      keepWithin n (fun j => .ok (contextLen j)) js newRunning cur preempted waiting =
        .ok result := by
  induction js with
  | nil => exact fun _ _ _ _ => ⟨_, rfl⟩
  | cons j js ih =>
      intro newRunning cur preempted waiting
      simp only [keepWithin]
      split_ifs
      · exact ih _ _ _ _
      · exact ih _ _ _ _
      · exact ih _ _ _ _

/-- `schedule` does not raise when the tables cover the jobs, and leaves the tables. -/
lemma schedule_ok (hpolicy : sched.config.policy = .fifo) (contextLen : JobRef → ℕ)
    (hjob : ∀ j ∈ sched.jobs, sched.jobArrivalTime (job j).contextId ≠ none)
    (htask : ∀ j ∈ sched.jobs, sched.taskArrivalTime (job j).taskId ≠ none) :
    ∃ batch sched', sched.schedule job (fun j => .ok (contextLen j)) = .ok (batch, sched') ∧
      sched'.jobArrivalTime = sched.jobArrivalTime ∧
      sched'.taskArrivalTime = sched.taskArrivalTime ∧ sched'.config = sched.config := by
  set admitted := admission sched.config (fun j => (job j).numTokens) sched.waitingJobs
    sched.runningJobs sched.runningJobs.length sched.runningJobs.length with hadmitted
  have hmem : ∀ j ∈ admitted.1, j ∈ sched.jobs := by
    intro j hj
    have hperm := admission_perm sched.config (fun j => (job j).numTokens) sched.waitingJobs
      sched.runningJobs sched.runningJobs.length sched.runningJobs.length
    exact (List.perm_append_comm.mem_iff).mp
      (hperm.mem_iff.mp (List.mem_append_left _ hj))
  obtain ⟨sorted, hsorted⟩ := sortByArrival_ok admitted.1
    (fun j hj => hjob j (hmem j hj)) fun j hj => htask j (hmem j hj)
  obtain ⟨⟨running, waiting⟩, hkeep⟩ :=
    keepWithin_ok sched.config.maxTotalTokens contextLen sorted [] 0 false admitted.2
  refine ⟨running, { sched with runningJobs := running, waitingJobs := waiting }, ?_, rfl, rfl, rfl⟩
  simp only [schedule, hpolicy, ← hadmitted, hsorted, hkeep]

/-- Two finished jobs with the end flag are of different tasks. -/
def EndsApart (job : JobRef → PrimitiveJob) (j j' : JobRef) : Prop :=
  (job j).finishEvent = true → (job j).endFlag = true → (job j').finishEvent = true →
    (job j').endFlag = true → (job j).taskId ≠ (job j').taskId

/-- `remove_job` of a job that both tables know. -/
lemma removeJob_ok {record : PrimitiveJob} (hjob : sched.jobArrivalTime record.contextId ≠ none)
    (htask : record.endFlag = true → sched.taskArrivalTime record.taskId ≠ none) :
    ∃ sched', sched.removeJob record = .ok sched' ∧ sched'.waitingJobs = sched.waitingJobs ∧
      sched'.config = sched.config ∧
      (∀ c, sched'.jobArrivalTime c =
        if c = record.contextId then none else sched.jobArrivalTime c) ∧
      ∀ t, sched'.taskArrivalTime t =
        if record.endFlag = true ∧ t = record.taskId then none else sched.taskArrivalTime t := by
  obtain ⟨time, htime⟩ := Option.ne_none_iff_exists'.mp hjob
  cases hend : record.endFlag with
  | false =>
      refine ⟨{ sched with
        jobArrivalTime := Function.update sched.jobArrivalTime record.contextId none },
        ?_, rfl, rfl, fun c => Function.update_apply _ _ _ _, fun t => ?_⟩
      · simp only [removeJob, htime, hend, Bool.false_eq_true, if_false]
      · rw [if_neg]
        rintro ⟨hfalse, -⟩
        cases hfalse
  | true =>
      obtain ⟨time', htime'⟩ := Option.ne_none_iff_exists'.mp (htask hend)
      refine ⟨{ sched with
        jobArrivalTime := Function.update sched.jobArrivalTime record.contextId none
        taskArrivalTime := Function.update sched.taskArrivalTime record.taskId none },
        ?_, rfl, rfl, fun c => Function.update_apply _ _ _ _, fun t => ?_⟩
      · simp only [removeJob, htime, hend, htime', if_true]
      · simp only [Function.update_apply, true_and]

/-- The loop of `finish`, by induction on the running jobs that are left: no two of them share a
context, and no two that end share a task, so what one removal takes the others do not need. -/
lemma finishAux_ok (js : List JobRef) :
    ∀ (sched : EngineScheduler) (newRunning : List JobRef),
      (js.map fun j => (job j).contextId).Nodup → js.Pairwise (EndsApart job) →
      (∀ j ∈ js, sched.jobArrivalTime (job j).contextId ≠ none) →
      (∀ j ∈ js, (job j).finishEvent = true → (job j).endFlag = true →
        sched.taskArrivalTime (job j).taskId ≠ none) →
      ∃ sched', finishAux job js sched newRunning = .ok sched' ∧
        sched'.waitingJobs = sched.waitingJobs ∧ sched'.config = sched.config ∧
        sched'.runningJobs = newRunning ++ js.filter (fun j => !(job j).finishEvent) ∧
        (∀ c, sched'.jobArrivalTime c =
          if ∃ j ∈ js, (job j).finishEvent = true ∧ (job j).contextId = c then none
          else sched.jobArrivalTime c) ∧
        ∀ t, sched'.taskArrivalTime t =
          if ∃ j ∈ js, (job j).finishEvent = true ∧ (job j).endFlag = true ∧ (job j).taskId = t
          then none else sched.taskArrivalTime t := by
  induction js with
  | nil =>
      intro sched newRunning _ _ _ _
      exact ⟨_, rfl, rfl, rfl, by simp, fun c => by simp, fun t => by simp⟩
  | cons j js ih =>
      intro sched newRunning hnodup hapart hjob htask
      rw [List.map_cons, List.nodup_cons] at hnodup
      rw [List.pairwise_cons] at hapart
      cases hfin : (job j).finishEvent with
      | false =>
          obtain ⟨sched', hok, hw, hc, hr, hj, ht⟩ := ih sched (newRunning ++ [j]) hnodup.2 hapart.2
            (fun x hx => hjob x (List.mem_cons_of_mem _ hx))
            fun x hx => htask x (List.mem_cons_of_mem _ hx)
          refine ⟨sched', ?_, hw, hc, ?_, fun c => ?_, fun t => ?_⟩
          · simp only [finishAux, hfin, Bool.false_eq_true, if_false, hok]
          · rw [hr, List.filter_cons, hfin]
            simp
          · rw [hj]
            simp [hfin]
          · rw [ht]
            simp [hfin]
      | true =>
          obtain ⟨sched₁, hremove, hw₁, hc₁, hj₁, ht₁⟩ :=
            removeJob_ok (hjob j List.mem_cons_self) (htask j List.mem_cons_self hfin)
          have hjob₁ : ∀ x ∈ js, sched₁.jobArrivalTime (job x).contextId ≠ none := by
            intro x hx
            rw [hj₁, if_neg]
            · exact hjob x (List.mem_cons_of_mem _ hx)
            · exact fun heq => hnodup.1 (heq ▸ List.mem_map_of_mem hx)
          have htask₁ : ∀ x ∈ js, (job x).finishEvent = true → (job x).endFlag = true →
              sched₁.taskArrivalTime (job x).taskId ≠ none := by
            intro x hx hfinx hendx
            rw [ht₁, if_neg]
            · exact htask x (List.mem_cons_of_mem _ hx) hfinx hendx
            · rintro ⟨hend, heq⟩
              exact hapart.1 x hx hfin hend hfinx hendx heq.symm
          obtain ⟨sched', hok, hw, hc, hr, hj, ht⟩ :=
            ih sched₁ newRunning hnodup.2 hapart.2 hjob₁ htask₁
          refine ⟨sched', ?_, hw.trans hw₁, hc.trans hc₁, ?_, fun c => ?_, fun t => ?_⟩
          · simp only [finishAux, hfin, if_true, hremove, hok]
          · rw [hr, List.filter_cons, hfin]
            simp
          · rw [hj, hj₁]
            by_cases heq : c = (job j).contextId
            · subst heq
              simp [hfin]
            · simp [hfin, Ne.symm heq, heq]
          · rw [ht, ht₁]
            by_cases heq : (job j).endFlag = true ∧ t = (job j).taskId
            · obtain ⟨hend, rfl⟩ := heq
              simp [hfin, hend]
            · have hne : ¬ ((job j).endFlag = true ∧ (job j).taskId = t) := by
                rintro ⟨hend, rfl⟩
                exact heq ⟨hend, rfl⟩
              simp [hfin, heq, hne]

end EngineScheduler

namespace SchedulerRun

open EngineScheduler TransitionSystem

variable {s s' : SchedulerRun}

/-! ## The invariant -/

/-- The lists, the history and the tables. -/
structure AccountingInv (s : SchedulerRun) : Prop where
  policy : s.sched.config.policy = .fifo
  jobs : (s.sched.jobs ++ s.removed).Perm s.added
  apart : (s.sched.jobs.map fun j => (s.job j).contextId).Nodup
  jobTimes : ∀ c, s.sched.jobArrivalTime c ≠ none ↔ ∃ j ∈ s.sched.jobs, (s.job j).contextId = c
  taskTimes : ∀ j ∈ s.sched.jobs, s.sched.taskArrivalTime (s.job j).taskId ≠ none

lemma AccountingInv.jobTime (h : s.AccountingInv) {j : JobRef} (hj : j ∈ s.sched.jobs) :
    s.sched.jobArrivalTime (s.job j).contextId ≠ none :=
  (h.jobTimes _).mpr ⟨j, hj, rfl⟩

/-- Jobs that are present are different objects. -/
lemma AccountingInv.nodup (h : s.AccountingInv) : s.sched.jobs.Nodup := h.apart.of_map _

lemma addJob_step (h : s.AccountingInv) {j : JobRef} {curTime : ℕ}
    (hproper : s.Proper (.addJob j curTime)) :
    AccountingInv { s with
      sched := s.sched.addJob j (s.job j) curTime
      added := s.added ++ [j] } := by
  have hjobs : (s.sched.addJob j (s.job j) curTime).jobs.Perm (j :: s.sched.jobs) := by
    simp only [EngineScheduler.jobs, addJob, List.append_assoc]
    exact List.perm_middle
  refine ⟨h.policy, ?_, ?_, fun c => ?_, fun x hx => ?_⟩
  · refine ((hjobs.append_right _).trans ?_).trans List.perm_append_comm
    exact (h.jobs.cons j)
  · refine (hjobs.map _).nodup_iff.mpr (List.nodup_cons.mpr ⟨?_, h.apart⟩)
    intro hmem
    obtain ⟨x, hx, heq⟩ := List.mem_map.mp hmem
    exact hproper x hx heq
  · dsimp only
    simp only [hjobs.mem_iff, List.mem_cons]
    simp only [addJob, Function.update_apply]
    split_ifs with heq
    · simp [heq]
    · rw [h.jobTimes]
      constructor
      · rintro ⟨x, hx, hc⟩
        exact ⟨x, .inr hx, hc⟩
      · rintro ⟨x, rfl | hx, hc⟩
        · exact absurd hc.symm heq
        · exact ⟨x, hx, hc⟩
  · dsimp only at hx ⊢
    rw [hjobs.mem_iff, List.mem_cons] at hx
    simp only [addJob]
    cases htask : s.sched.taskArrivalTime (s.job j).taskId with
    | some time =>
        rcases hx with rfl | hx
        · simp [htask]
        · exact h.taskTimes x hx
    | none =>
        rcases hx with rfl | hx
        · simp
        · simp only [Function.update_apply]
          split_ifs
          · simp
          · exact h.taskTimes x hx

/-- Jobs move between the two lists, and the tables stay. -/
lemma AccountingInv.moves (h : s.AccountingInv) {sched : EngineScheduler}
    (hperm : sched.jobs.Perm s.sched.jobs) (hconfig : sched.config = s.sched.config)
    (hjobTimes : sched.jobArrivalTime = s.sched.jobArrivalTime)
    (htaskTimes : sched.taskArrivalTime = s.sched.taskArrivalTime) :
    AccountingInv { s with sched } := by
  refine ⟨hconfig ▸ h.policy, (hperm.append_right _).trans h.jobs,
    (hperm.map _).nodup_iff.mpr h.apart, fun c => ?_, fun j hj => ?_⟩
  · simp only [hjobTimes, hperm.mem_iff]
    exact h.jobTimes c
  · simp only [htaskTimes]
    exact h.taskTimes j (hperm.mem_iff.mp hj)

lemma schedule_step (h : s.AccountingInv) (contextLen : JobRef → ℕ) :
    ∃ batch sched, s.sched.schedule s.job (fun j => .ok (contextLen j)) = .ok (batch, sched) ∧
      AccountingInv { s with sched } := by
  obtain ⟨batch, sched, hok, hjobTimes, htaskTimes, hconfig⟩ :=
    schedule_ok h.policy contextLen (fun j hj => h.jobTime hj) h.taskTimes
  exact ⟨batch, sched, hok, h.moves (schedule_spec hok).2.1 hconfig hjobTimes htaskTimes⟩

/-- What `finish` keeps and what it drops are the jobs there were. -/
lemma finished_perm (s : SchedulerRun) :
    (s.sched.waitingJobs ++ s.sched.runningJobs.filter (fun j => !(s.job j).finishEvent) ++
      s.finished).Perm s.sched.jobs := by
  rw [List.append_assoc]
  refine List.Perm.append_left _ ?_
  exact List.perm_append_comm.trans (List.filter_append_perm _ _)

lemma finish_step (h : s.AccountingInv) (hproper : s.Proper .finish) :
    ∃ sched, s.sched.finish s.job = .ok sched ∧
      AccountingInv { s with sched, removed := s.removed ++ s.finished } := by
  have hnodup := h.nodup
  have hrunning : s.sched.runningJobs.Sublist s.sched.jobs := List.sublist_append_right _ _
  have hends : s.sched.runningJobs.Pairwise (EndsApart s.job) := by
    refine (hnodup.sublist hrunning).imp_of_mem ?_
    intro j j' hj hj' hne hfin hend hfin' hend' htask
    have hlast := hproper j (List.mem_filter.mpr ⟨hj, hfin⟩) hend j' (hrunning.subset hj')
      (Ne.symm hne) htask.symm
    rw [hend'] at hlast
    cases hlast.2
  obtain ⟨sched, hok, hwaiting, hconfig, hkept, hjobTimes, htaskTimes⟩ :=
    finishAux_ok s.sched.runningJobs s.sched [] (h.apart.sublist (hrunning.map _)) hends
      (fun j hj => h.jobTime (hrunning.subset hj))
      fun j hj _ _ => h.taskTimes j (hrunning.subset hj)
  have hjobs : sched.jobs = s.sched.waitingJobs ++
      s.sched.runningJobs.filter (fun j => !(s.job j).finishEvent) := by
    rw [EngineScheduler.jobs, hwaiting, hkept, List.nil_append]
  have hperm : (sched.jobs ++ s.finished).Perm s.sched.jobs := hjobs ▸ s.finished_perm
  have hdisjoint := List.nodup_append.mp (hperm.nodup_iff.mpr hnodup)
  have hstays : ∀ j ∈ sched.jobs, j ∈ s.sched.jobs ∧ j ∉ s.finished := fun j hj =>
    ⟨hperm.subset (List.mem_append_left _ hj), fun hfin => hdisjoint.2.2 j hj j hfin rfl⟩
  have hkeeps : ∀ j ∈ s.sched.jobs, j ∉ s.finished → j ∈ sched.jobs := fun j hj hnot =>
    (List.mem_append.mp (hperm.symm.subset hj)).resolve_right hnot
  refine ⟨sched, hok, hconfig ▸ h.policy, ?_, ?_, fun c => ?_, fun j hj => ?_⟩
  · have hswap : (sched.jobs ++ (s.removed ++ s.finished)).Perm
        (sched.jobs ++ (s.finished ++ s.removed)) := List.perm_append_comm.append_left _
    have hback : (sched.jobs ++ (s.finished ++ s.removed)).Perm (s.sched.jobs ++ s.removed) := by
      rw [← List.append_assoc]
      exact hperm.append_right _
    exact (hswap.trans hback).trans h.jobs
  · exact ((hperm.map _).nodup_iff.mpr h.apart).sublist ((List.sublist_append_left _ _).map _)
  · dsimp only
    rw [hjobTimes]
    split_ifs with hdropped
    · -- the only job of this context has finished
      obtain ⟨j, hj, hfin, rfl⟩ := hdropped
      refine iff_of_false (fun hne => hne rfl) ?_
      rintro ⟨x, hx, hctx⟩
      obtain ⟨hmem, hnot⟩ := hstays x hx
      obtain rfl := List.inj_on_of_nodup_map h.apart hmem (hrunning.subset hj) hctx
      exact hnot (List.mem_filter.mpr ⟨hj, hfin⟩)
    · rw [h.jobTimes]
      constructor
      · rintro ⟨x, hx, hctx⟩
        refine ⟨x, hkeeps x hx fun hfin => hdropped ?_, hctx⟩
        obtain ⟨hrun, hset⟩ := List.mem_filter.mp hfin
        exact ⟨x, hrun, hset, hctx⟩
      · rintro ⟨x, hx, hctx⟩
        exact ⟨x, (hstays x hx).1, hctx⟩
  · obtain ⟨hmem, hnot⟩ := hstays j hj
    dsimp only
    rw [htaskTimes, if_neg]
    · exact h.taskTimes j hmem
    · -- a job that ended its task leaves no other job of it behind
      rintro ⟨x, hx, hfin, hend, htask⟩
      have hxfin : x ∈ s.finished := List.mem_filter.mpr ⟨hx, hfin⟩
      have hne : j ≠ x := by
        rintro rfl
        exact hnot hxfin
      exact hnot (hproper x hxfin hend j hmem hne htask.symm).1

lemma jobs_step (h : s.AccountingInv) {job : JobRef → PrimitiveJob}
    (hkeeps : ∀ j ∈ s.sched.jobs, KeepsIds s.job job j) : AccountingInv { s with job } := by
  have hcontexts : (s.sched.jobs.map fun j => (job j).contextId) =
      s.sched.jobs.map fun j => (s.job j).contextId :=
    List.map_congr_left fun j hj => (hkeeps j hj).1
  refine ⟨h.policy, h.jobs, hcontexts ▸ h.apart, fun c => ?_, fun j hj => ?_⟩
  · rw [h.jobTimes]
    constructor
    · rintro ⟨j, hj, hc⟩
      exact ⟨j, hj, (hkeeps j hj).1.trans hc⟩
    · rintro ⟨j, hj, hc⟩
      exact ⟨j, hj, (hkeeps j hj).1.symm.trans hc⟩
  · have htask := (hkeeps j hj).2.1
    dsimp only
    rw [htask]
    exact h.taskTimes j hj

/-- Every proper run keeps the accounts. -/
theorem accounting_invariant {config : SchedulerConfig} (hpolicy : config.policy = .fifo)
    (job : JobRef → PrimitiveJob) :
    (system config job).IsInvariantUnder Proper AccountingInv where
  init := by
    rintro s rfl
    exact ⟨hpolicy, List.Perm.refl _, List.nodup_nil, by simp [start, EngineScheduler.jobs],
      by simp [start, EngineScheduler.jobs]⟩
  step := by
    rintro s a s' h hproper ⟨hen, hok⟩
    cases a with
    | jobs job =>
        obtain rfl := Except.ok.inj hok
        exact jobs_step h hen
    | addJob j curTime =>
        obtain rfl := Except.ok.inj hok
        exact addJob_step h hproper
    | schedule contextLen =>
        obtain ⟨batch, sched, hsched, h'⟩ := schedule_step h contextLen
        simp only [apply, hsched] at hok
        obtain rfl := Except.ok.inj hok
        exact h'
    | finish =>
        obtain ⟨sched, hfinish, h'⟩ := finish_step h hproper
        simp only [apply, hfinish] at hok
        obtain rfl := Except.ok.inj hok
        exact h'

/-- In every proper run no job is lost or duplicated, and no table misses a job. -/
theorem jobs_accounted {config : SchedulerConfig} (hpolicy : config.policy = .fifo)
    (job : JobRef → PrimitiveJob) (hs : (system config job).ReachableUnder Proper s) :
    s.Accounted := by
  have h := (accounting_invariant hpolicy job).holds hs
  refine ⟨h.jobs, h.jobTimes, h.taskTimes, fun contextLen => ?_, fun hproper => ?_⟩
  · obtain ⟨batch, sched, hok, -⟩ := schedule_step h contextLen
    exact ⟨_, hok⟩
  · obtain ⟨sched, hok, -⟩ := finish_step h hproper
    exact ⟨sched, hok⟩

/-- Each job has a task and a context of its own and ends its task; some have finished. -/
def ownTasks (done : List JobRef) (j : JobRef) : PrimitiveJob where
  sessionId := 0
  taskId := j
  contextId := j
  parentContextId := none
  endFlag := true
  kind := .fill (some [j])
  finishEvent := decide (j ∈ done)

theorem jobs_accounted_two : ∃ s : SchedulerRun, (s.removed = [0] ∧ s.sched.jobs = [1]) ∧
    s.Accounted := by
  have hrun : RunsTo Enabled Proper apply (fun s => s.removed = [0] ∧ s.sched.jobs = [1])
      (start { maxBatchSize := 2, maxNumBatchedTokens := 2, maxTotalTokens := 2 } (ownTasks []))
      [.addJob 0 0, .addJob 1 1, .schedule fun _ => 1, .jobs (ownTasks [0]), .finish] := by
    decide +kernel
  obtain ⟨s, hs, hdone⟩ := RunsTo.reachable _ (.init rfl) hrun
  exact ⟨s, hdone, jobs_accounted rfl (ownTasks []) hs⟩

end SchedulerRun

end ParrotServe
