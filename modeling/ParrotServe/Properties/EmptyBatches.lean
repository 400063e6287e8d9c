import ParrotServe.Properties.Batches
import ParrotServe.Properties.EngineTree

/-!
# Iterations without a batch

`engine_iter` asks whether the scheduler holds a job at all, then runs whatever `schedule` returns.
But a job that waits need not be admitted, and an admitted one need not survive the preemption: a
Fill with more than `max_num_batched_tokens` tokens blocks the head of the queue, and a first
context with more than `max_total_tokens` positions is preempted even when it is the only one.
`Schedulable` says when neither happens and nothing raises on the way; in every reachable state with
a job it is exactly when `schedule` returns one (`batch_nonempty_iff`).

The lookups of `schedule` can only raise after a request that did not bind its context, or that
reused the id of a present context or of an ended task.  In runs without such requests the two
limits are all there is to it (`served_schedulable_iff`); the accounts that this rests on are those
of the scheduler alone, `SchedulerRun.AccountingInv`.
-/

namespace ParrotServe

namespace EngineScheduler

variable {sched : EngineScheduler} {job : JobRef → PrimitiveJob}
  {contextLen : JobRef → Except PyError ℕ}

/-! ## Each of the three steps of `schedule` -/

lemma mem_jobs_of_admitted {j : JobRef} (hj : j ∈ (sched.admitted job).1) : j ∈ sched.jobs := by
  have hperm := admission_perm sched.config (fun j => (job j).numTokens) sched.waitingJobs
    sched.runningJobs sched.runningJobs.length sched.runningJobs.length
  exact List.perm_append_comm.mem_iff.mp (hperm.mem_iff.mp (List.mem_append_left _ hj))

/-- A job runs or is admitted exactly when one runs already or the first waiting one fits. -/
lemma admitted_ne_nil_iff (hsize : 0 < sched.config.maxBatchSize)
    (hjobs : sched.jobs ≠ []) :
    (sched.admitted job).1 ≠ [] ↔ sched.runningJobs ≠ [] ∨
      ∃ j rest, sched.waitingJobs = j :: rest ∧
        (job j).numTokens ≤ sched.config.maxNumBatchedTokens := by
  obtain ⟨new, rest, hsplit, heq, -⟩ := admission_eq sched.config (fun j => (job j).numTokens)
    sched.waitingJobs sched.runningJobs sched.runningJobs.length sched.runningJobs.length
  have hadmitted : (sched.admitted job).1 = sched.runningJobs ++ new := congrArg Prod.fst heq
  by_cases hrunning : sched.runningJobs = []
  · cases hwaiting : sched.waitingJobs with
    | nil =>
        refine absurd ?_ hjobs
        rw [jobs, hwaiting, hrunning, List.append_nil]
    | cons j waiting =>
        rw [admitted, hwaiting, hrunning, List.length_nil, admission, if_neg (by omega)]
        split_ifs with htokens
        · refine iff_of_false (fun hne => hne rfl) ?_
          rintro (hne | ⟨j', rest', hcons, hle⟩)
          · exact hne rfl
          · obtain ⟨rfl, -⟩ := List.cons.inj hcons
            omega
        · refine iff_of_true ?_ (.inr ⟨j, waiting, rfl, by omega⟩)
          obtain ⟨new', rest', -, heq', -⟩ := admission_eq sched.config
            (fun j => (job j).numTokens) waiting [j] (0 + 1) (0 + (job j).numTokens)
          rw [List.nil_append, heq']
          exact List.cons_ne_nil _ _
  · refine iff_of_true ?_ (.inl hrunning)
    rw [hadmitted]
    exact fun hnil => hrunning (List.append_eq_nil_iff.mp hnil).1

/-- The sort finds a key for every job, or raises. -/
lemma sortByArrival_ok_iff (js : List JobRef) :
    (∃ sorted, sched.sortByArrival job js = .ok sorted) ↔
      ∀ j ∈ js, sched.jobArrivalTime (job j).contextId ≠ none ∧
        sched.taskArrivalTime (job j).taskId ≠ none := by
  constructor
  · rintro ⟨sorted, h⟩
    rw [sortByArrival] at h
    split at h
    · cases h
    · rename_i keys hkeys
      clear h sorted
      induction js generalizing keys with
      | nil =>
          intro j hj
          cases hj
      | cons j js ih =>
          rw [arrivalKeys] at hkeys
          split at hkeys
          · cases hkeys
          · cases hkeys
          · rename_i t t' htask hjob
            split at hkeys
            · cases hkeys
            · rename_i rest hrest
              intro x hx
              rcases List.mem_cons.mp hx with rfl | hx
              · rw [htask, hjob]
                exact ⟨Option.some_ne_none _, Option.some_ne_none _⟩
              · exact ih rest hrest x hx
  · exact fun h => sortByArrival_ok js (fun j hj => (h j hj).1) fun j hj => (h j hj).2

/-- The context of every job that the preemption loop comes to can be measured.  From a total of
`cur` it comes to a job when the contexts of those before it are within the limit. -/
def Measured (n : ℕ) (contextLen : JobRef → Except PyError ℕ) (cur : ℕ) (js : List JobRef) : Prop :=
  ∀ pre j post total, js = pre ++ j :: post → totalTokens contextLen pre = .ok total →
    cur + total ≤ n → ∃ len, contextLen j = .ok len

lemma measured_cons {n cur : ℕ} {j : JobRef} {js : List JobRef} (hcur : cur ≤ n) :
    Measured n contextLen cur (j :: js) ↔
      ∃ len, contextLen j = .ok len ∧ (cur + len ≤ n → Measured n contextLen (cur + len) js) := by
  constructor
  · intro h
    obtain ⟨len, hlen⟩ := h [] j js 0 rfl rfl hcur
    refine ⟨len, hlen, fun _ pre j' post total hsplit htotal hle => ?_⟩
    refine h (j :: pre) j' post (len + total) ?_ ?_ (by omega)
    · rw [hsplit]
      rfl
    · rw [totalTokens, hlen, htotal]
  · rintro ⟨len, hlen, hrest⟩ pre j' post total hsplit htotal hle
    cases pre with
    | nil =>
        obtain ⟨rfl, -⟩ := List.cons.inj hsplit
        exact ⟨len, hlen⟩
    | cons x pre =>
        obtain ⟨rfl, htail⟩ := List.cons.inj hsplit
        rw [totalTokens, hlen] at htotal
        dsimp only at htotal
        split at htotal
        · cases htotal
        · rename_i total' htotal'
          obtain rfl := Except.ok.inj htotal
          exact hrest (by omega) pre j' post total' htail htotal' (by omega)

lemma keepWithin_ok_iff (n : ℕ) (js : List JobRef) : ∀ {newRunning cur waiting}, cur ≤ n →
    ((∃ result, keepWithin n contextLen js newRunning cur false waiting = .ok result) ↔
      Measured n contextLen cur js) := by
  induction js with
  | nil =>
      intro newRunning cur waiting _
      refine iff_of_true ⟨_, rfl⟩ fun pre j post total hsplit => ?_
      exact absurd hsplit.symm (by simp)
  | cons j js ih =>
      intro newRunning cur waiting hcur
      rw [keepWithin, if_neg Bool.false_ne_true, measured_cons hcur]
      cases hlen : contextLen j with
      | error e =>
          refine iff_of_false ?_ ?_
          · rintro ⟨result, h⟩
            cases h
          · rintro ⟨len, h, -⟩
            cases h
      | ok len =>
          dsimp only
          split_ifs with hover
          · rw [keepWithin_preempted]
            exact iff_of_true ⟨_, rfl⟩ ⟨len, rfl, fun hle => absurd hle (Nat.not_le_of_lt hover)⟩
          · have hle : cur + len ≤ n := Nat.le_of_not_lt hover
            rw [ih hle]
            constructor
            · exact fun h => ⟨len, rfl, fun _ => h⟩
            · rintro ⟨len', heq, h⟩
              obtain rfl := Except.ok.inj heq
              exact h hle

/-! ## When `schedule` returns a job -/

/-- The oldest of the jobs that run or are admitted fits, and nothing raises on the way to it and
behind it. -/
structure Schedulable (sched : EngineScheduler) (job : JobRef → PrimitiveJob)
    (contextLen : JobRef → Except PyError ℕ) : Prop where
  /-- Nothing is admitted behind a first waiting job that has too many tokens. -/
  admits : sched.runningJobs ≠ [] ∨ ∃ j rest, sched.waitingJobs = j :: rest ∧
    (job j).numTokens ≤ sched.config.maxNumBatchedTokens
  timed : ∀ j ∈ (sched.admitted job).1, sched.jobArrivalTime (job j).contextId ≠ none ∧
    sched.taskArrivalTime (job j).taskId ≠ none
  measured : ∀ sorted, sched.sortByArrival job (sched.admitted job).1 = .ok sorted →
    Measured sched.config.maxTotalTokens contextLen 0 sorted
  oldest : ∀ j rest len, sched.sortByArrival job (sched.admitted job).1 = .ok (j :: rest) →
    contextLen j = .ok len → len ≤ sched.config.maxTotalTokens

/-- After the sort, `schedule` is the preemption loop. -/
lemma schedule_sorted (hpolicy : sched.config.policy = .fifo) {sorted : List JobRef}
    (hsorted : sched.sortByArrival job (sched.admitted job).1 = .ok sorted) :
    (∃ result, sched.schedule job contextLen = .ok result) ↔
      ∃ result, keepWithin sched.config.maxTotalTokens contextLen sorted [] 0 false
        (sched.admitted job).2 = .ok result := by
  rw [admitted] at hsorted ⊢
  simp only [schedule, hpolicy, hsorted]
  cases keepWithin sched.config.maxTotalTokens contextLen sorted [] 0 false
    (admission sched.config (fun j => (job j).numTokens) sched.waitingJobs sched.runningJobs
      sched.runningJobs.length sched.runningJobs.length).2 with
  | error e => exact iff_of_false (by rintro ⟨_, ⟨⟩⟩) (by rintro ⟨_, ⟨⟩⟩)
  | ok result => exact iff_of_true ⟨_, rfl⟩ ⟨_, rfl⟩

/-- `schedule` returns a job exactly when the state is schedulable. -/
lemma schedule_returns_iff (hpolicy : sched.config.policy = .fifo)
    (hsize : 0 < sched.config.maxBatchSize) (hjobs : sched.jobs ≠ []) :
    (∃ batch sched', sched.schedule job contextLen = .ok (batch, sched') ∧ batch ≠ []) ↔
      Schedulable sched job contextLen := by
  constructor
  · rintro ⟨batch, sched', hok, hne⟩
    obtain ⟨preempted, total, hsort, -, htotal, hle, -⟩ := schedule_cases hpolicy hok
    have hperm := sortByArrival_perm hsort
    refine ⟨?_, (sortByArrival_ok_iff _).mp ⟨_, hsort⟩, fun sorted hsorted => ?_,
      fun j rest len hsorted hlen => ?_⟩
    · refine (admitted_ne_nil_iff hsize hjobs).mp fun hnil => hne ?_
      rw [hnil, List.perm_nil] at hperm
      exact (List.append_eq_nil_iff.mp hperm).1
    · exact (keepWithin_ok_iff _ sorted (Nat.zero_le _)).mp
        ((schedule_sorted hpolicy hsorted).mp ⟨_, hok⟩)
    · obtain ⟨x, batch, rfl⟩ := List.exists_cons_of_ne_nil hne
      rw [hsort] at hsorted
      obtain ⟨rfl, -⟩ := List.cons.inj (Except.ok.inj hsorted)
      rw [totalTokens, hlen] at htotal
      dsimp only at htotal
      split at htotal
      · cases htotal
      · obtain rfl := Except.ok.inj htotal
        omega
  · rintro ⟨hadmits, htimed, hmeasured, holdest⟩
    obtain ⟨sorted, hsorted⟩ := (sortByArrival_ok_iff _).mpr htimed
    obtain ⟨⟨batch, sched'⟩, hok⟩ := (schedule_sorted hpolicy hsorted).mpr
      ((keepWithin_ok_iff _ sorted (Nat.zero_le _)).mpr (hmeasured sorted hsorted))
    refine ⟨batch, sched', hok, ?_⟩
    rintro rfl
    obtain ⟨preempted, total, hsort, -, htotal, -, hfirst⟩ := schedule_cases hpolicy hok
    rw [List.nil_append] at hsort
    obtain rfl := Except.ok.inj htotal
    have hadmitted : (sched.admitted job).1 ≠ [] := (admitted_ne_nil_iff hsize hjobs).mpr hadmits
    cases preempted with
    | nil => exact hadmitted (List.nil_perm.mp (sortByArrival_perm hsort))
    | cons j rest =>
        obtain ⟨len, hlen, hlt⟩ := hfirst j rest rfl
        have hle := holdest j rest len hsort hlen
        omega

end EngineScheduler

namespace BuiltinEngine

open EngineScheduler SchedulerRun TransitionSystem

variable {s s' : BuiltinEngine}

/-! ## What an iteration keeps of the jobs -/

/-- The scheduler, the identities of the jobs, and that a job has a context. -/
structure KeepsJobs (s s' : BuiltinEngine) : Prop where
  scheduler : s'.scheduler = s.scheduler
  nextJob : s'.nextJob = s.nextJob
  ids : ∀ j, KeepsIds s.job s'.job j
  bound : ∀ j, (s.job j).context ≠ none → (s'.job j).context ≠ none

lemma KeepsJobs.refl (s : BuiltinEngine) : KeepsJobs s s :=
  ⟨rfl, rfl, fun _ => ⟨rfl, rfl, rfl⟩, fun _ h => h⟩

lemma KeepsJobs.trans {s'' : BuiltinEngine} (h : KeepsJobs s s') (h' : KeepsJobs s' s'') :
    KeepsJobs s s'' where
  scheduler := h'.scheduler.trans h.scheduler
  nextJob := h'.nextJob.trans h.nextJob
  ids j := ⟨(h'.ids j).1.trans (h.ids j).1, (h'.ids j).2.1.trans (h.ids j).2.1,
    (h'.ids j).2.2.trans (h.ids j).2.2⟩
  bound j hj := h'.bound j (h.bound j hj)

/-- Only one record changes, and keeps its identity. -/
lemma KeepsJobs.of_record {j : JobRef} {record : PrimitiveJob}
    (hscheduler : s'.scheduler = s.scheduler) (hnext : s'.nextJob = s.nextJob)
    (hjob : s'.job = Function.update s.job j record)
    (hids : record.contextId = (s.job j).contextId ∧ record.taskId = (s.job j).taskId ∧
      record.endFlag = (s.job j).endFlag)
    (hbound : (s.job j).context ≠ none → record.context ≠ none) : KeepsJobs s s' := by
  refine ⟨hscheduler, hnext, fun j' => ?_, fun j' hj' => ?_⟩
  · rw [KeepsIds, hjob]
    by_cases heq : j' = j
    · obtain rfl := heq
      rw [Function.update_self]
      exact hids
    · rw [Function.update_of_ne heq]
      exact ⟨rfl, rfl, rfl⟩
  · rw [hjob]
    by_cases heq : j' = j
    · obtain rfl := heq
      rw [Function.update_self]
      exact hbound hj'
    · rwa [Function.update_of_ne heq]

/-- Nothing about the jobs changes. -/
lemma KeepsJobs.of_eq (hscheduler : s'.scheduler = s.scheduler) (hnext : s'.nextJob = s.nextJob)
    (hjob : s'.job = s.job) : KeepsJobs s s' :=
  ⟨hscheduler, hnext, fun j => by rw [KeepsIds, hjob]; exact ⟨rfl, rfl, rfl⟩,
    fun j hj => by rwa [hjob]⟩

lemma BindOutcome.keeps {j : JobRef} (ho : BindOutcome s j s') : KeepsJobs s s' := by
  cases ho with
  | unknownParent => exact .refl s
  | existing _ => exact .of_record rfl rfl rfl ⟨rfl, rfl, rfl⟩ fun _ => Option.some_ne_none _
  | root _ _ => exact .of_record rfl rfl rfl ⟨rfl, rfl, rfl⟩ fun _ => Option.some_ne_none _
  | failed _ _ _ _ => exact .of_eq rfl rfl rfl
  | forked _ _ _ _ => exact .of_record rfl rfl rfl ⟨rfl, rfl, rfl⟩ fun _ => Option.some_ne_none _

lemma putToken_keeps {j : JobRef} {t : ℕ} (h : s.putToken j t = .ok s') : KeepsJobs s s' := by
  rw [putToken] at h
  dsimp only at h
  split at h
  · cases h
  · obtain rfl := Except.ok.inj h
    exact .of_record rfl rfl rfl ⟨rfl, rfl, rfl⟩ id

lemma allocateJob_keeps {j : JobRef} {r : CtxRef} {sample : Bool}
    (h : s.allocateJob j r = .ok (sample, s')) : KeepsJobs s s' := by
  rw [allocateJob] at h
  split at h
  · cases h
  · dsimp only at h
    split at h
    · cases h
    · obtain ⟨-, rfl⟩ := Prod.mk.inj (Except.ok.inj h)
      exact .of_eq rfl rfl rfl
  · split at h
    · cases h
    · split at h
      · cases h
      · obtain ⟨-, rfl⟩ := Prod.mk.inj (Except.ok.inj h)
        exact .of_eq rfl rfl rfl
      · obtain ⟨-, rfl⟩ := Prod.mk.inj (Except.ok.inj h)
        exact .of_eq rfl rfl rfl

lemma prepareJob_keeps {j : JobRef} {sample : Bool} (h : s.prepareJob j = .ok (sample, s')) :
    KeepsJobs s s' := by
  rw [prepareJob] at h
  split at h
  · exact allocateJob_keeps h
  · have hbind := (bindJobContext_outcome s j).keeps
    split at h
    · cases h
    · rename_i s₁ heq
      rw [heq] at hbind
      split at h
      · cases h
      · exact hbind.trans (allocateJob_keeps h)

lemma prepareJobs_keeps (js : List JobRef) : ∀ {s : BuiltinEngine} {first : List JobRef},
    s.prepareJobs js = .ok (first, s') → KeepsJobs s s' := by
  induction js with
  | nil =>
      intro s first h
      obtain ⟨-, rfl⟩ := Prod.mk.inj (Except.ok.inj h)
      exact .refl _
  | cons j js ih =>
      intro s first h
      rw [prepareJobs] at h
      split at h
      · cases h
      · rename_i hj
        split at h
        · cases h
        · rename_i hjs
          obtain ⟨-, rfl⟩ := Prod.mk.inj (Except.ok.inj h)
          exact (prepareJob_keeps hj).trans (ih hjs)

lemma forward_keeps {st : IterationState} {ids : List ℕ} (h : s.forward st ids = .ok s') :
    KeepsJobs s s' := by
  obtain ⟨-, rfl⟩ := forward_ok_iff.mp h
  exact .of_eq rfl rfl rfl

lemma keepsJobs_kept : KeptByUpdates (fun _ => True) KeepsJobs where
  refl := KeepsJobs.refl
  trans := KeepsJobs.trans
  putToken _ h := putToken_keeps h
  fill _ _ _ := .of_record rfl rfl rfl ⟨rfl, rfl, rfl⟩ id
  finish _ := .of_record rfl rfl rfl ⟨rfl, rfl, rfl⟩ id

lemma runIter_keeps {o : ModelOutput} {batch : List JobRef} (h : s.runIter o batch = .ok s') :
    KeepsJobs s s' := by
  obtain ⟨jobs, s₃, hfwd, hup⟩ := runIter_cases h
  obtain ⟨-, first, s₁, hprep, s₂, hfirst, ids, -, hforward⟩ := runIterForward_cases hfwd
  have hsampled := keepsJobs_kept.firstSampling _ (fun _ _ => trivial) hfirst
  have hupdated := keepsJobs_kept.updateJobs _ (fun _ _ => trivial) hup
  exact (((prepareJobs_keeps _ hprep).trans hsampled).trans (forward_keeps hforward)).trans hupdated

/-! ## Every reachable state -/

/-- `schedule` returns a batch with a job in it. -/
def ReturnsBatch (s : BuiltinEngine) : Prop :=
  ∃ batch s', s.scheduleBatch = .ok (batch, s') ∧ batch ≠ []

lemma returnsBatch_iff : s.ReturnsBatch ↔ ∃ batch sched',
    s.scheduler.schedule s.job s.jobContextLen = .ok (batch, sched') ∧ batch ≠ [] := by
  rw [ReturnsBatch, scheduleBatch]
  cases s.scheduler.schedule s.job s.jobContextLen with
  | error e =>
      refine iff_of_false ?_ ?_
      · rintro ⟨batch, s', h, -⟩
        cases h
      · rintro ⟨batch, sched', h, -⟩
        cases h
  | ok result =>
      constructor
      · rintro ⟨batch, s', h, hne⟩
        obtain ⟨rfl, -⟩ := Prod.mk.inj (Except.ok.inj h)
        exact ⟨_, _, rfl, hne⟩
      · rintro ⟨batch, sched', h, hne⟩
        obtain rfl := Except.ok.inj h
        exact ⟨_, _, rfl, hne⟩

/-- What an iteration that ran does to the scheduler. -/
lemma engineIter_scheduler {o : ModelOutput} (h : s.engineIter o = .ok s') :
    s' = s ∨ ∃ batch sched s₂ sched₂, s.scheduler.schedule s.job s.jobContextLen =
        .ok (batch, sched) ∧ KeepsJobs { s with scheduler := sched } s₂ ∧
      s₂.scheduler.finish s₂.job = .ok sched₂ ∧ s' = { s₂ with scheduler := sched₂ } := by
  rw [engineIter] at h
  split_ifs at h
  · exact .inl (Except.ok.inj h).symm
  · right
    split at h
    · cases h
    · rename_i batch s₁ hbatch
      rw [scheduleBatch] at hbatch
      split at hbatch
      · cases hbatch
      · rename_i batch' sched hsched
        obtain ⟨rfl, rfl⟩ := Prod.mk.inj (Except.ok.inj hbatch)
        split at h
        · cases h
        · rename_i s₂ hrun
          split at h
          · cases h
          · rename_i sched₂ hfinish
            exact ⟨_, sched, s₂, sched₂, hsched, runIter_keeps hrun, hfinish,
              (Except.ok.inj h).symm⟩

/-- `free_context` leaves the jobs and the scheduler. -/
lemma freeContext_keeps (contextId : ℕ) : KeepsJobs s (s.freeContext contextId).2 := by
  rw [freeContext]
  split_ifs
  · exact .refl s
  · rw [managerFreeContext]
    split
    · exact .refl s
    · dsimp only
      split
      · exact .of_eq rfl rfl rfl
      · exact .of_eq rfl rfl rfl

/-- The default policy and the limits stay. -/
lemma apply_config (hpolicy : s.scheduler.config.policy = .fifo) (a : Action) :
    (s.apply a).scheduler.config = s.scheduler.config := by
  have hadd : ∀ record t, (s.addJob record t).2.scheduler.config = s.scheduler.config := by
    intro record t
    rw [addJob, (bindJobContext_outcome _ _).keeps.scheduler]
    rfl
  cases a with
  | fill sid tid cid pid flag ts t => exact hadd _ t
  | generate sid tid cid pid flag cfg t => exact hadd _ t
  | freeContext cid => exact congrArg _ (freeContext_keeps cid).scheduler
  | engineIter o =>
      simp only [apply]
      split
      · rename_i s' hiter
        rcases engineIter_scheduler hiter with rfl | ⟨batch, sched, s₂, sched₂, hsched, hkeeps,
          hfinish, rfl⟩
        · rfl
        · obtain ⟨preempted, total, -, rfl, -⟩ := schedule_cases hpolicy hsched
          rw [(finish_spec hfinish).1, hkeeps.scheduler]
      · rfl

/-- **When the engine runs an empty batch.**  In every reachable state with a job, `schedule`
returns a job exactly when the state is schedulable. -/
theorem batch_nonempty_iff {attnFunc : AttnFunc} {blockSize n : ℕ} {config : SchedulerConfig}
    (hpolicy : config.policy = .fifo) (hsize : 0 < config.maxBatchSize)
    (hs : (system attnFunc blockSize n config).Reachable s) (hjobs : s.scheduler.isEmpty = false) :
    s.ReturnsBatch ↔ Schedulable s.scheduler s.job s.jobContextLen := by
  have hconfig : (system attnFunc blockSize n config).IsInvariantUnder (fun _ _ => True)
      fun s => s.scheduler.config = config := by
    refine ⟨?_, ?_⟩
    · rintro s rfl
      rfl
    · rintro s a s' hinv - ⟨-, rfl⟩
      rw [apply_config (by rw [hinv]; exact hpolicy), hinv]
  have heq := hconfig.holds hs
  rw [returnsBatch_iff]
  refine schedule_returns_iff (by rw [heq]; exact hpolicy) (by rw [heq]; exact hsize) fun hnil => ?_
  obtain ⟨hwaiting, hrunning⟩ := List.append_eq_nil_iff.mp hnil
  rw [isEmpty, hwaiting, hrunning] at hjobs
  cases hjobs

/-- Room for two jobs, three input tokens and eight positions. -/
def narrowConfig : SchedulerConfig where
  maxBatchSize := 2
  maxNumBatchedTokens := 3
  maxTotalTokens := 8

/-- An engine that was sent one Fill. -/
def sentFill (tokenIds : List ℕ) : BuiltinEngine :=
  (start .xFormersFillSharedPromptsGenerate 1 8 narrowConfig).apply
    (.fill 0 0 0 none false tokenIds 0)

lemma sentFill_reachable (tokenIds : List ℕ) :
    (system .xFormersFillSharedPromptsGenerate 1 8 narrowConfig).Reachable (sentFill tokenIds) :=
  .step (.init rfl) trivial ⟨rfl, rfl⟩

theorem batch_nonempty_three : (sentFill [5, 6, 7]).ReturnsBatch ↔
    Schedulable (sentFill [5, 6, 7]).scheduler (sentFill [5, 6, 7]).job
      (sentFill [5, 6, 7]).jobContextLen :=
  batch_nonempty_iff rfl (by decide) (sentFill_reachable _) rfl

/-- A Fill with one token more is never admitted, and the iteration gets no job. -/
theorem batch_empty_four : ∃ s,
    (system .xFormersFillSharedPromptsGenerate 1 8 narrowConfig).Reachable s ∧
      s.scheduler.isEmpty = false ∧ ¬ s.ReturnsBatch := by
  refine ⟨_, sentFill_reachable [5, 6, 7, 8], rfl, ?_⟩
  rintro ⟨batch, s', h, hne⟩
  have hempty : ((sentFill [5, 6, 7, 8]).scheduleBatch.toOption.map Prod.fst) = some [] := by
    decide +kernel
  rw [h] at hempty
  exact hne (Option.some.inj hempty)

/-! ## Runs of requests that are served -/

/-- The request binds its context, which no present job is for, and if it ends its task or a
present job does, they are of different tasks. -/
def ServedRequest (s : BuiltinEngine) (record : PrimitiveJob) (curTime : ℕ) : Prop :=
  (s.addJob record curTime).1 = .ok () ∧
    ∀ j ∈ s.scheduler.jobs, (s.job j).contextId ≠ record.contextId ∧
      ((s.job j).taskId = record.taskId → (s.job j).endFlag = false ∧ record.endFlag = false)

/-- What the callers of an engine do. -/
def Served (s : BuiltinEngine) : Action → Prop
  | .fill sid tid cid pid flag tokenIds t =>
      s.ServedRequest (fillJob sid tid cid pid flag tokenIds) t
  | .generate sid tid cid pid flag cfg t =>
      s.ServedRequest (generateJob sid tid cid pid flag cfg) t
  | _ => True

/-- What the scheduler needs: its accounts are kept, every job has a context, and a job that ends
its task is the only one of it. -/
structure ServedInv (s : BuiltinEngine) : Prop where
  accounts : ∃ added removed, AccountingInv ⟨s.scheduler, s.job, added, removed⟩
  bound : ∀ j ∈ s.scheduler.jobs, (s.job j).context ≠ none
  older : ∀ j ∈ s.scheduler.jobs, j < s.nextJob
  alone : ∀ j ∈ s.scheduler.jobs, ∀ j' ∈ s.scheduler.jobs, j' ≠ j →
    (s.job j').taskId = (s.job j).taskId → (s.job j).endFlag = false

/-- Changes of the records between two calls of the scheduler. -/
lemma ServedInv.keeps (h : ServedInv s) (hk : KeepsJobs s s') : ServedInv s' := by
  obtain ⟨added, removed, haccounts⟩ := h.accounts
  have hscheduler := hk.scheduler
  refine ⟨⟨added, removed, ?_⟩, fun j hj => ?_, fun j hj => ?_, fun j hj j' hj' hne htask => ?_⟩
  · rw [hscheduler]
    exact SchedulerRun.jobs_step haccounts fun j _ => hk.ids j
  · rw [hscheduler] at hj
    exact hk.bound j (h.bound j hj)
  · rw [hscheduler] at hj
    rw [hk.nextJob]
    exact h.older j hj
  · rw [hscheduler] at hj hj'
    rw [(hk.ids j').2.1, (hk.ids j).2.1] at htask
    rw [(hk.ids j).2.2]
    exact h.alone j hj j' hj' hne htask

/-- A binding that succeeds gives the job a context. -/
lemma bindJobContext_bound {j : JobRef} (hok : (s.bindJobContext j).1 = .ok ()) :
    ((s.bindJobContext j).2.job j).context ≠ none := by
  have hbound : ∀ (s₁ : BuiltinEngine) (record : PrimitiveJob) (r : CtxRef),
      ((s₁.setJob j { record with context := some r }).job j).context ≠ none := by
    intro s₁ record r
    rw [setJob_job, if_pos rfl]
    exact Option.some_ne_none r
  rw [bindJobContext] at hok ⊢
  dsimp only at hok ⊢
  split at hok
  · exact hbound _ _ _
  · split at hok
    · exact hbound _ _ _
    · split at hok
      · cases hok
      · split at hok
        · cases hok
        · exact hbound _ _ _

lemma ServedInv.addJob (h : ServedInv s) {record : PrimitiveJob} {curTime : ℕ}
    (hg : s.ServedRequest record curTime) : ServedInv (s.addJob record curTime).2 := by
  obtain ⟨hok, hapart⟩ := hg
  obtain ⟨added, removed, haccounts⟩ := h.accounts
  have hkeeps := (bindJobContext_outcome (s.queueJob record curTime) s.nextJob).keeps
  set s' := (s.addJob record curTime).2 with hs'
  have hscheduler : s'.scheduler = s.scheduler.addJob s.nextJob record curTime := hkeeps.scheduler
  have hnext : s'.nextJob = s.nextJob + 1 := hkeeps.nextJob
  have hmem : ∀ j, j ∈ s'.scheduler.jobs → j = s.nextJob ∨ j ∈ s.scheduler.jobs := by
    intro j hj
    rw [hscheduler, EngineScheduler.jobs, EngineScheduler.addJob] at hj
    simp only [List.mem_append, List.mem_singleton] at hj
    rw [EngineScheduler.jobs, List.mem_append]
    tauto
  have hself : (s.queueJob record curTime).job s.nextJob = record := Function.update_self ..
  have hother : ∀ j ∈ s.scheduler.jobs, (s.queueJob record curTime).job j = s.job j := fun j hj =>
    Function.update_of_ne (Nat.ne_of_lt (h.older j hj)) _ _
  have hids : ∀ j ∈ s.scheduler.jobs, KeepsIds s.job s'.job j := by
    intro j hj
    have hkept := hkeeps.ids j
    rwa [KeepsIds, hother j hj] at hkept
  have hnew : (s'.job s.nextJob).contextId = record.contextId ∧
      (s'.job s.nextJob).taskId = record.taskId ∧
      (s'.job s.nextJob).endFlag = record.endFlag := by
    have hkept := hkeeps.ids s.nextJob
    rwa [KeepsIds, hself] at hkept
  refine ⟨⟨added ++ [s.nextJob], removed, ?_⟩, fun j hj => ?_, fun j hj => ?_,
    fun j hj j' hj' hne htask => ?_⟩
  · -- the record is stored, then queued, then bound
    have hstored : AccountingInv ⟨s.scheduler, (s.queueJob record curTime).job, added, removed⟩ :=
      SchedulerRun.jobs_step haccounts fun j hj => by
        rw [KeepsIds, hother j hj]
        exact ⟨rfl, rfl, rfl⟩
    have hproper : SchedulerRun.Proper
        ⟨s.scheduler, (s.queueJob record curTime).job, added, removed⟩
        (.addJob s.nextJob curTime) := by
      intro j hj
      dsimp only at hj ⊢
      rw [hother j hj, hself]
      exact (hapart j hj).1
    have hqueued := SchedulerRun.addJob_step hstored hproper
    dsimp only at hqueued
    rw [hself] at hqueued
    rw [hscheduler]
    exact SchedulerRun.jobs_step hqueued fun j _ => hkeeps.ids j
  · rcases hmem j hj with rfl | hj
    · exact bindJobContext_bound hok
    · refine hkeeps.bound j ?_
      rw [hother j hj]
      exact h.bound j hj
  · rw [hnext]
    rcases hmem j hj with rfl | hj
    · exact Nat.lt_succ_self _
    · exact Nat.lt_succ_of_lt (h.older j hj)
  · rcases hmem j hj with rfl | hj
    · rcases hmem j' hj' with rfl | hj'
      · exact absurd rfl hne
      · rw [(hids j' hj').2.1, hnew.2.1] at htask
        rw [hnew.2.2]
        exact ((hapart j' hj').2 htask).2
    · rw [(hids j hj).2.2]
      rcases hmem j' hj' with rfl | hj'
      · rw [hnew.2.1, (hids j hj).2.1] at htask
        exact ((hapart j hj).2 htask.symm).1
      · rw [(hids j' hj').2.1, (hids j hj).2.1] at htask
        exact h.alone j hj j' hj' hne htask

lemma ServedInv.schedule (h : ServedInv s) (hpolicy : s.scheduler.config.policy = .fifo)
    {batch : List JobRef} {sched : EngineScheduler}
    (hok : s.scheduler.schedule s.job s.jobContextLen = .ok (batch, sched)) :
    ServedInv { s with scheduler := sched } := by
  obtain ⟨added, removed, haccounts⟩ := h.accounts
  obtain ⟨-, hperm, -⟩ := schedule_spec hok
  have hmem : ∀ j, j ∈ sched.jobs → j ∈ s.scheduler.jobs := fun j hj => hperm.mem_iff.mp hj
  obtain ⟨preempted, total, -, rfl, -⟩ := schedule_cases hpolicy hok
  exact ⟨⟨added, removed, haccounts.moves hperm rfl rfl rfl⟩, fun j hj => h.bound j (hmem j hj),
    fun j hj => h.older j (hmem j hj), fun j hj j' hj' => h.alone j (hmem j hj) j' (hmem j' hj')⟩

lemma ServedInv.finish (h : ServedInv s) {sched : EngineScheduler}
    (hok : s.scheduler.finish s.job = .ok sched) : ServedInv { s with scheduler := sched } := by
  obtain ⟨added, removed, haccounts⟩ := h.accounts
  have hproper : SchedulerRun.Proper ⟨s.scheduler, s.job, added, removed⟩ .finish := by
    intro j hj hend j' hj' hne htask
    have hrun : j ∈ s.scheduler.jobs := List.mem_append_right _ (List.mem_of_mem_filter hj)
    rw [h.alone j hrun j' hj' hne htask] at hend
    cases hend
  obtain ⟨sched', hok', haccounts'⟩ := SchedulerRun.finish_step haccounts hproper
  obtain rfl : sched' = sched := Except.ok.inj (hok'.symm.trans hok)
  have hmem : ∀ j, j ∈ sched'.jobs → j ∈ s.scheduler.jobs := fun _ => jobs_of_finish hok
  exact ⟨⟨added, _, haccounts'⟩, fun j hj => h.bound j (hmem j hj),
    fun j hj => h.older j (hmem j hj), fun j hj j' hj' => h.alone j (hmem j hj) j' (hmem j' hj')⟩

/-- Every run of served requests. -/
lemma served_invariant {attnFunc : AttnFunc} {blockSize n : ℕ} {config : SchedulerConfig}
    (hpolicy : config.policy = .fifo) :
    (system attnFunc blockSize n config).IsInvariantUnder Served
      fun s => s.scheduler.config = config ∧ ServedInv s where
  init := by
    rintro s rfl
    have hnone : ∀ j, j ∉ (start attnFunc blockSize n config).scheduler.jobs := by
      simp [start, EngineScheduler.jobs]
    have haccounts := (accounting_invariant hpolicy
      (start attnFunc blockSize n config).job).init _ rfl
    exact ⟨rfl, ⟨⟨[], [], haccounts⟩, fun j hj => (hnone j hj).elim, fun j hj => (hnone j hj).elim,
      fun j hj => (hnone j hj).elim⟩⟩
  step := by
    rintro s a s' ⟨hconfig, h⟩ hg ⟨-, rfl⟩
    have hfifo : s.scheduler.config.policy = .fifo := by rw [hconfig]; exact hpolicy
    refine ⟨(apply_config hfifo a).trans hconfig, ?_⟩
    cases a with
    | fill sid tid cid pid flag ts t => exact h.addJob hg
    | generate sid tid cid pid flag cfg t => exact h.addJob hg
    | freeContext cid => exact h.keeps (freeContext_keeps cid)
    | engineIter o =>
        simp only [apply]
        split
        · rename_i s' hiter
          rcases engineIter_scheduler hiter with rfl | ⟨batch, sched, s₂, sched₂, hsched, hkeeps,
            hfinish, rfl⟩
          · exact h
          · exact ((h.schedule hfifo hsched).keeps hkeeps).finish hfinish
        · exact h.keeps (.of_eq rfl rfl rfl)

/-- In a run of served requests nothing raises, so what is left are the two limits: the first
waiting job has too many tokens, or the oldest of the jobs that run or are admitted has too long a
context. -/
theorem served_schedulable_iff {attnFunc : AttnFunc} {blockSize n : ℕ} {config : SchedulerConfig}
    (hpolicy : config.policy = .fifo)
    (hs : (system attnFunc blockSize n config).ReachableUnder Served s) :
    Schedulable s.scheduler s.job s.jobContextLen ↔
      (s.scheduler.runningJobs ≠ [] ∨ ∃ j rest, s.scheduler.waitingJobs = j :: rest ∧
        (s.job j).numTokens ≤ config.maxNumBatchedTokens) ∧
      ∀ j rest len, s.scheduler.sortByArrival s.job (s.scheduler.admitted s.job).1 =
        .ok (j :: rest) → s.jobContextLen j = .ok len → len ≤ config.maxTotalTokens := by
  obtain ⟨rfl, h⟩ := (served_invariant hpolicy).holds hs
  obtain ⟨added, removed, haccounts⟩ := h.accounts
  have hmem : ∀ j ∈ (s.scheduler.admitted s.job).1, j ∈ s.scheduler.jobs := fun _ =>
    mem_jobs_of_admitted
  constructor
  · exact fun hsched => ⟨hsched.admits, hsched.oldest⟩
  · rintro ⟨hadmits, holdest⟩
    refine ⟨hadmits, fun j hj => ⟨haccounts.jobTime (hmem j hj), haccounts.taskTimes j (hmem j hj)⟩,
      ?_, holdest⟩
    rintro sorted hsorted pre j post total rfl - -
    have hj : j ∈ (s.scheduler.admitted s.job).1 :=
      (sortByArrival_perm hsorted).subset (List.mem_append_right _ List.mem_cons_self)
    obtain ⟨r, hr⟩ := Option.ne_none_iff_exists'.mp (h.bound j (hmem j hj))
    exact ⟨s.mem.getContextLen r, by rw [jobContextLen, hr]⟩

end BuiltinEngine

end ParrotServe
