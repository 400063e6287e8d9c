import ParrotServe.Properties.SchedulerAccounting
import Mathlib.Algebra.Order.BigOperators.Group.List

/-!
# The batches of the engine scheduler

One call of `schedule` under the default policy admits an initial segment of the waiting jobs,
sorts what runs by arrival, and keeps the initial segment of it that `max_total_tokens` has room
for (`schedule_cases`).  The jobs behind that segment go back to the waiting list, each in front of
the ones before it: the preempted jobs come out in reverse.  So they keep their order exactly when
they all arrived at the same time (`preempts_in_order_iff`).

The limits on a batch need more than one call.  The token budget starts from the *number* of the
running jobs, which is their tokens only if they are all Generates.  That is an invariant of runs in
which every batch is executed before the next call, because a Fill finishes in the iteration it
runs in (`batch_within_limits`).
-/

namespace ParrotServe

namespace EngineScheduler

variable {sched sched' : EngineScheduler} {job : JobRef → PrimitiveJob}
  {contextLen : JobRef → Except PyError ℕ} {batch : List JobRef}

/-! ## Admission -/

/-- What the admission loop of `schedule` leaves running, and what it leaves waiting. -/
def admitted (sched : EngineScheduler) (job : JobRef → PrimitiveJob) :
    List JobRef × List JobRef :=
  admission sched.config (fun j => (job j).numTokens) sched.waitingJobs sched.runningJobs
    sched.runningJobs.length sched.runningJobs.length

/-- The input tokens of some jobs. -/
def batchedTokens (job : JobRef → PrimitiveJob) (js : List JobRef) : ℕ :=
  (js.map fun j => (job j).numTokens).sum

/-- The loop admits an initial segment of the waiting jobs, within the limits that its two counters
were within. -/
lemma admission_eq (cfg : SchedulerConfig) (numTokens : JobRef → ℕ) (waiting : List JobRef) :
    ∀ running n t, ∃ new rest, waiting = new ++ rest ∧
      admission cfg numTokens waiting running n t = (running ++ new, rest) ∧
      (n ≤ cfg.maxBatchSize → n + new.length ≤ cfg.maxBatchSize) ∧
      (t ≤ cfg.maxNumBatchedTokens → t + (new.map numTokens).sum ≤ cfg.maxNumBatchedTokens) := by
  induction waiting with
  | nil =>
      intro running n t
      exact ⟨[], [], rfl, by rw [admission, List.append_nil], id, id⟩
  | cons j waiting ih =>
      intro running n t
      rw [admission]
      split_ifs with hsize htokens
      · exact ⟨[], j :: waiting, rfl, by rw [List.append_nil], id, id⟩
      · exact ⟨[], j :: waiting, rfl, by rw [List.append_nil], id, id⟩
      · obtain ⟨new, rest, rfl, heq, hn, ht⟩ := ih (running ++ [j]) (n + 1) (t + numTokens j)
        refine ⟨j :: new, rest, rfl, by rw [heq, List.append_assoc]; rfl, fun _ => ?_, fun _ => ?_⟩
        · have hlen := hn (Nat.le_of_not_lt hsize)
          rw [List.length_cons]
          omega
        · have hsum := ht (Nat.le_of_not_lt htokens)
          rw [List.map_cons, List.sum_cons]
          omega

/-! ## Arrival order -/

/-- The sort key of a job: the arrival of its task, then its own. -/
def arrival (sched : EngineScheduler) (job : JobRef → PrimitiveJob) (j : JobRef) : ℕ × ℕ :=
  ((sched.taskArrivalTime (job j).taskId).getD 0, (sched.jobArrivalTime (job j).contextId).getD 0)

/-- `j` arrived before `j'` or with it. -/
def ArrivedBy (sched : EngineScheduler) (job : JobRef → PrimitiveJob) (j j' : JobRef) : Prop :=
  (sched.arrival job j).1 < (sched.arrival job j').1 ∨
    ((sched.arrival job j).1 = (sched.arrival job j').1 ∧
      (sched.arrival job j).2 ≤ (sched.arrival job j').2)

instance : DecidableRel (ArrivedBy sched job) := fun _ _ => inferInstanceAs (Decidable (_ ∨ _))

instance : Std.Total keyLe where
  total a b := by
    unfold keyLe
    omega

instance : IsTrans _ keyLe where
  trans a b c hab hbc := by
    unfold keyLe at *
    omega

/-- The keys are looked up in the tables. -/
lemma arrivalKeys_eq (js : List JobRef) : ∀ {keys}, sched.arrivalKeys job js = .ok keys →
    keys = js.map fun j => (sched.arrival job j, j) := by
  induction js with
  | nil =>
      intro keys h
      obtain rfl := Except.ok.inj h
      rfl
  | cons j js ih =>
      intro keys h
      rw [arrivalKeys] at h
      split at h
      · cases h
      · cases h
      · rename_i t t' htask hjob
        split at h
        · cases h
        · rename_i rest hrest
          obtain rfl := Except.ok.inj h
          rw [List.map_cons, ← ih hrest, arrival, htask, hjob]
          rfl

/-- `sort` puts the jobs in the order of their arrival. -/
lemma sortByArrival_sorted {js sorted : List JobRef}
    (h : sched.sortByArrival job js = .ok sorted) : sorted.Pairwise (ArrivedBy sched job) := by
  rw [sortByArrival] at h
  split at h
  · cases h
  · rename_i keys hkeys
    obtain rfl := Except.ok.inj h
    rw [List.pairwise_map]
    refine (List.pairwise_insertionSort keyLe keys).imp_of_mem fun {a b} ha hb hle => ?_
    have hkey : ∀ x ∈ keys.insertionSort keyLe, x.1 = sched.arrival job x.2 := by
      intro x hx
      rw [List.mem_insertionSort, arrivalKeys_eq js hkeys] at hx
      obtain ⟨j, -, rfl⟩ := List.mem_map.mp hx
      rfl
    rw [ArrivedBy, ← hkey a ha, ← hkey b hb]
    exact hle

/-! ## Preemption -/

/-- Behind the first preempted job every job is preempted, to the head of the list. -/
lemma keepWithin_preempted (n : ℕ) (js : List JobRef) : ∀ newRunning cur waiting,
    keepWithin n contextLen js newRunning cur true waiting =
      .ok (newRunning, js.reverse ++ waiting) := by
  induction js with
  | nil => exact fun _ _ _ => rfl
  | cons j js ih =>
      intro newRunning cur waiting
      rw [keepWithin, if_pos rfl, ih, List.reverse_cons, List.append_assoc]
      rfl

/-- The loop keeps an initial segment within the limit; the first job behind it would exceed the
limit, and what is behind it goes to the head of the waiting list in reverse. -/
lemma keepWithin_eq (n : ℕ) (js : List JobRef) : ∀ {newRunning cur waiting res}, cur ≤ n →
    keepWithin n contextLen js newRunning cur false waiting = .ok res →
    ∃ kept preempted total, js = kept ++ preempted ∧
      res = (newRunning ++ kept, preempted.reverse ++ waiting) ∧
      totalTokens contextLen kept = .ok total ∧ cur + total ≤ n ∧
      ∀ j rest, preempted = j :: rest → ∃ len, contextLen j = .ok len ∧ n < cur + total + len := by
  induction js with
  | nil =>
      intro newRunning cur waiting res hcur h
      obtain rfl := Except.ok.inj h
      exact ⟨[], [], 0, rfl, by rw [List.append_nil]; rfl, rfl, hcur, fun j rest h => by cases h⟩
  | cons j js ih =>
      intro newRunning cur waiting res hcur h
      rw [keepWithin, if_neg Bool.false_ne_true] at h
      cases hlen : contextLen j with
      | error e =>
          rw [hlen] at h
          cases h
      | ok len =>
          rw [hlen] at h
          dsimp only at h
          split_ifs at h with hover
          · rw [keepWithin_preempted] at h
            obtain rfl := Except.ok.inj h
            refine ⟨[], j :: js, 0, rfl, ?_, rfl, hcur, ?_⟩
            · rw [List.append_nil, List.reverse_cons, List.append_assoc]
              rfl
            · rintro _ _ ⟨⟩
              exact ⟨len, hlen, hover⟩
          · obtain ⟨kept, preempted, total, rfl, rfl, htotal, hle, hfirst⟩ :=
              ih (Nat.le_of_not_lt hover) h
            refine ⟨j :: kept, preempted, len + total, rfl, ?_, ?_, by omega, ?_⟩
            · rw [List.append_assoc]
              rfl
            · rw [totalTokens, hlen, htotal]
            · intro j' rest hcons
              obtain ⟨len', hlen', hlt⟩ := hfirst j' rest hcons
              exact ⟨len', hlen', by omega⟩

/-- **One call of `schedule`** under the default policy. -/
lemma schedule_cases (hpolicy : sched.config.policy = .fifo)
    (hok : sched.schedule job contextLen = .ok (batch, sched')) :
    ∃ preempted total, sched.sortByArrival job (sched.admitted job).1 = .ok (batch ++ preempted) ∧
      sched' = { sched with
        runningJobs := batch
        waitingJobs := preempted.reverse ++ (sched.admitted job).2 } ∧
      totalTokens contextLen batch = .ok total ∧ total ≤ sched.config.maxTotalTokens ∧
      ∀ j rest, preempted = j :: rest →
        ∃ len, contextLen j = .ok len ∧ sched.config.maxTotalTokens < total + len := by
  simp only [schedule, hpolicy] at hok
  rw [admitted]
  split at hok
  · cases hok
  · rename_i sorted hsorted
    split at hok
    · cases hok
    · rename_i running waiting hkeep
      obtain ⟨kept, preempted, total, rfl, heq, htotal, hle, hfirst⟩ :=
        keepWithin_eq _ sorted (Nat.zero_le _) hkeep
      obtain ⟨rfl, rfl⟩ := Prod.mk.inj heq
      obtain ⟨rfl, rfl⟩ := Prod.mk.inj (Except.ok.inj hok)
      simp only [Nat.zero_add] at hle hfirst
      exact ⟨preempted, total, hsorted, rfl, htotal, hle, hfirst⟩

/-! ## The order of preempted jobs -/

lemma ArrivedBy.refl (j : JobRef) : ArrivedBy sched job j j := .inr ⟨rfl, le_rfl⟩

lemma ArrivedBy.trans {a b c : JobRef} (hab : ArrivedBy sched job a b)
    (hbc : ArrivedBy sched job b c) : ArrivedBy sched job a c := by
  unfold ArrivedBy at *
  omega

lemma totalTokens_append_ok {js js' : List JobRef} {n n' : ℕ}
    (h : totalTokens contextLen js = .ok n) (h' : totalTokens contextLen js' = .ok n') :
    totalTokens contextLen (js ++ js') = .ok (n + n') := by
  induction js generalizing n with
  | nil =>
      obtain rfl := Except.ok.inj h
      rw [List.nil_append, h', Nat.zero_add]
  | cons j js ih =>
      rw [totalTokens] at h
      rw [List.cons_append, totalTokens]
      split at h
      · cases h
      · split at h
        · cases h
        · rename_i total htotal
          obtain rfl := Except.ok.inj h
          simp only [ih htotal, Nat.add_assoc]

/-- The lengths of a part are part of the total. -/
lemma totalTokens_append {js js' : List JobRef} {total : ℕ}
    (h : totalTokens contextLen (js ++ js') = .ok total) :
    ∃ n n', totalTokens contextLen js = .ok n ∧ totalTokens contextLen js' = .ok n' ∧
      total = n + n' := by
  induction js generalizing total with
  | nil => exact ⟨0, total, rfl, h, (Nat.zero_add _).symm⟩
  | cons j js ih =>
      rw [List.cons_append, totalTokens] at h
      split at h
      · cases h
      · rename_i len hlen
        split at h
        · cases h
        · rename_i rest hrest
          obtain rfl := Except.ok.inj h
          obtain ⟨n, n', hn, hn', rfl⟩ := ih hrest
          exact ⟨len + n, n', by rw [totalTokens, hlen, hn], hn', (Nat.add_assoc _ _ _).symm⟩

/-- The jobs of the call that do not run stand in front of those that were not admitted, in the
order of their arrival. -/
def PreemptsInOrder (sched : EngineScheduler) (job : JobRef → PrimitiveJob) (batch : List JobRef)
    (sched' : EngineScheduler) : Prop :=
  ∃ preempted, sched'.waitingJobs = preempted ++ (sched.admitted job).2 ∧
    (batch ++ preempted).Perm (sched.admitted job).1 ∧ preempted.Pairwise (ArrivedBy sched job)

/-- Jobs that the contexts of the jobs up to them push past `max_total_tokens` arrived together. -/
def PastLimitTogether (sched : EngineScheduler) (job : JobRef → PrimitiveJob)
    (contextLen : JobRef → Except PyError ℕ) : Prop :=
  ∀ pre j post total, sched.sortByArrival job (sched.admitted job).1 = .ok (pre ++ j :: post) →
    totalTokens contextLen (pre ++ [j]) = .ok total → sched.config.maxTotalTokens < total →
    ∀ j' ∈ post, ArrivedBy sched job j' j

/-- **Preempted jobs keep their order exactly when they arrived together**, in particular when
there is at most one of them: the others come out in reverse. -/
theorem preempts_in_order_iff (hpolicy : sched.config.policy = .fifo)
    (hok : sched.schedule job contextLen = .ok (batch, sched')) :
    PreemptsInOrder sched job batch sched' ↔ PastLimitTogether sched job contextLen := by
  obtain ⟨preempted, total, hsort, rfl, htotal, hle, hfirst⟩ := schedule_cases hpolicy hok
  have hsorted : (batch ++ preempted).Pairwise (ArrivedBy sched job) := sortByArrival_sorted hsort
  constructor
  · rintro ⟨front, hfront, -, hordered⟩ pre j post n hsplit hn hlt j' hj'
    obtain rfl := List.append_cancel_right hfront
    rw [List.pairwise_reverse] at hordered
    have heq : batch ++ preempted = pre ++ j :: post :=
      Except.ok.inj (hsort.symm.trans hsplit)
    rcases List.append_eq_append_iff.mp heq with ⟨mid, rfl, hmid⟩ | ⟨mid, rfl, hmid⟩
    · -- the job is preempted, and so are those behind it
      rw [hmid] at hordered
      exact List.rel_of_pairwise_cons (List.pairwise_append.mp hordered).2.1 hj'
    · cases mid with
      | nil =>
          rw [List.nil_append] at hmid
          rw [← hmid] at hordered
          exact List.rel_of_pairwise_cons hordered hj'
      | cons x mid =>
          -- the job runs, so what runs would exceed the limit
          rw [List.cons_append, List.cons.injEq] at hmid
          obtain ⟨rfl, -⟩ := hmid
          have hsum : totalTokens contextLen ((pre ++ [j]) ++ mid) = .ok total := by
            rw [List.append_assoc]
            exact htotal
          obtain ⟨n₁, n₂, h₁, -, rfl⟩ := totalTokens_append hsum
          obtain rfl := Except.ok.inj (h₁.symm.trans hn)
          omega
  · intro htogether
    refine ⟨preempted.reverse, rfl, ?_, ?_⟩
    · exact (List.Perm.append_left _ (List.reverse_perm _)).trans (sortByArrival_perm hsort)
    · rw [List.pairwise_reverse]
      cases preempted with
      | nil => exact List.Pairwise.nil
      | cons j post =>
          obtain ⟨len, hlen, hlt⟩ := hfirst j post rfl
          have hone : totalTokens contextLen [j] = .ok len := by
            simp only [totalTokens, hlen, Nat.add_zero]
          have hall := htogether batch j post _ hsort (totalTokens_append_ok htotal hone) hlt
          have hafter := (List.pairwise_append.mp hsorted).2.1
          have hj : ∀ a ∈ j :: post, ArrivedBy sched job j a := by
            intro a ha
            rcases List.mem_cons.mp ha with rfl | ha
            · exact .refl _
            · exact List.rel_of_pairwise_cons hafter ha
          have hb : ∀ b ∈ j :: post, ArrivedBy sched job b j := by
            intro b hb
            rcases List.mem_cons.mp hb with rfl | hb
            · exact .refl _
            · exact hall b hb
          exact hafter.imp_of_mem fun ha hb' _ => (hb _ hb').trans (hj _ ha)

/-- Three Generates that arrived one after the other. -/
def threeWaiting (maxTotalTokens : ℕ) : EngineScheduler where
  config := { maxBatchSize := 3, maxNumBatchedTokens := 3, maxTotalTokens }
  waitingJobs := [0, 1, 2]
  jobArrivalTime c := some c
  taskArrivalTime t := some t

/-- Each of them has a task and a context of its own. -/
def threeGenerates (j : JobRef) : PrimitiveJob where
  sessionId := 0
  taskId := j
  contextId := j
  parentContextId := none
  endFlag := true
  kind := .generate { stopTokenIds := [], maxGenLength := 8 }

/-- With room for two contexts of one token, the third job goes back to where it was. -/
theorem preempts_in_order_one :
    PreemptsInOrder (threeWaiting 2) threeGenerates [0, 1]
      { threeWaiting 2 with runningJobs := [0, 1], waitingJobs := [2] } ↔
    PastLimitTogether (threeWaiting 2) threeGenerates fun _ => .ok 1 :=
  preempts_in_order_iff rfl rfl

/-- With room for one, the second and the third change places. -/
theorem preempts_in_reverse : ∃ sched', (threeWaiting 1).schedule threeGenerates (fun _ => .ok 1) =
    .ok ([0], sched') ∧ ¬ PreemptsInOrder (threeWaiting 1) threeGenerates [0] sched' := by
  refine ⟨_, rfl, ?_⟩
  rintro ⟨front, hfront, -, hordered⟩
  have hnil : ((threeWaiting 1).admitted threeGenerates).2 = [] := rfl
  rw [hnil, List.append_nil] at hfront
  obtain rfl : [2, 1] = front := hfront
  revert hordered
  decide

end EngineScheduler

/-! ## Runs that execute every batch -/

/-- Where the engine loop stands. -/
inductive LoopPhase
  | idle
  | scheduled
  | executed
  deriving DecidableEq, Repr

/-- The scheduler between the steps of the engine loop. -/
structure BatchRun where
  sched : EngineScheduler
  job : JobRef → PrimitiveJob
  phase : LoopPhase

namespace BatchRun

open EngineScheduler TransitionSystem

/-- The calls of the loop, and what happens beside it. -/
inductive Action
  /-- Jobs are created, and records change. -/
  | jobs (job : JobRef → PrimitiveJob)
  | addJob (j : JobRef) (curTime : ℕ)
  | schedule (contextLen : JobRef → Except PyError ℕ)
  /-- The batch is executed. -/
  | execute (job : JobRef → PrimitiveJob)
  | finish

/-- A new scheduler. -/
def start (config : SchedulerConfig) (job : JobRef → PrimitiveJob) : BatchRun where
  sched := { config }
  job
  phase := .idle

variable (s : BatchRun)

/-- Jobs that are present keep their kind, and `finish_event` stays set. -/
def KeepsJobs (job : JobRef → PrimitiveJob) : Prop :=
  ∀ j ∈ s.sched.jobs, (job j).kind = (s.job j).kind ∧
    ((s.job j).finishEvent = true → (job j).finishEvent = true)

instance (job : JobRef → PrimitiveJob) : Decidable (s.KeepsJobs job) :=
  inferInstanceAs (Decidable (∀ j ∈ s.sched.jobs, _ ∧ (_ → _)))

/-- Every running Fill has finished. -/
def FillsDone (sched : EngineScheduler) (job : JobRef → PrimitiveJob) : Prop :=
  ∀ j ∈ sched.runningJobs, (job j).isGenerate = false → (job j).finishEvent = true

instance (sched : EngineScheduler) (job : JobRef → PrimitiveJob) :
    Decidable (FillsDone sched job) :=
  inferInstanceAs (Decidable (∀ j ∈ sched.runningJobs, _ → _))

/-- `schedule`, the execution of what it returned, and `finish` take turns; jobs are submitted at
any time.  The execution finishes every Fill of the batch, a Generate may continue. -/
def Enabled : Action → Prop
  | .jobs job => s.KeepsJobs job
  | .addJob _ _ => True
  | .schedule _ => s.phase = .idle
  | .execute job => s.phase = .scheduled ∧ s.KeepsJobs job ∧ FillsDone s.sched job
  | .finish => s.phase = .executed

instance : ∀ a, Decidable (s.Enabled a)
  | .jobs job => inferInstanceAs (Decidable (s.KeepsJobs job))
  | .addJob _ _ => inferInstanceAs (Decidable True)
  | .schedule _ => inferInstanceAs (Decidable (s.phase = .idle))
  | .execute job => inferInstanceAs
      (Decidable (s.phase = .scheduled ∧ s.KeepsJobs job ∧ FillsDone s.sched job))
  | .finish => inferInstanceAs (Decidable (s.phase = .executed))

/-- The effect of an action. -/
def apply : Action → Except PyError BatchRun
  | .jobs job => .ok { s with job }
  | .addJob j curTime => .ok { s with sched := s.sched.addJob j (s.job j) curTime }
  | .schedule contextLen =>
      match s.sched.schedule s.job contextLen with
      | .error e => .error e
      | .ok (_, sched) => .ok { s with sched, phase := .scheduled }
  | .execute job => .ok { s with job, phase := .executed }
  | .finish =>
      match s.sched.finish s.job with
      | .error e => .error e
      | .ok sched => .ok { s with sched, phase := .idle }

/-- Every run of the loop. -/
def system (config : SchedulerConfig) (job : JobRef → PrimitiveJob) :
    TransitionSystem BatchRun Action :=
  .ofExcept (start config job) Enabled apply

variable {s} {s' : BatchRun}

/-- What the admission loop relies on. -/
structure BatchInv (config : SchedulerConfig) (s : BatchRun) : Prop where
  sameConfig : s.sched.config = config
  size : s.sched.runningJobs.length ≤ config.maxBatchSize
  tokens : batchedTokens s.job s.sched.runningJobs ≤ config.maxNumBatchedTokens
  /-- "Running jobs must be all Gen jobs." -/
  generates : s.phase = .idle → ∀ j ∈ s.sched.runningJobs, (s.job j).isGenerate = true
  fillsDone : s.phase = .executed → FillsDone s.sched s.job

lemma batchedTokens_perm {job : JobRef → PrimitiveJob} {js js' : List JobRef}
    (h : js.Perm js') : batchedTokens job js = batchedTokens job js' :=
  (h.map _).sum_eq

lemma batchedTokens_append (job : JobRef → PrimitiveJob) (js js' : List JobRef) :
    batchedTokens job (js ++ js') = batchedTokens job js + batchedTokens job js' := by
  rw [batchedTokens, List.map_append, List.sum_append]
  rfl

/-- A part of a batch has no more tokens. -/
lemma batchedTokens_sublist {job : JobRef → PrimitiveJob} {js js' : List JobRef}
    (h : js.Sublist js') : batchedTokens job js ≤ batchedTokens job js' :=
  (h.map _).sum_le_sum fun _ _ => Nat.zero_le _

/-- Generates have one token each. -/
lemma batchedTokens_generates {job : JobRef → PrimitiveJob} {js : List JobRef}
    (h : ∀ j ∈ js, (job j).isGenerate = true) : batchedTokens job js = js.length := by
  have hone : ∀ j ∈ js, (job j).numTokens = 1 := by
    intro j hj
    have hgen := h j hj
    rw [PrimitiveJob.isGenerate] at hgen
    rw [PrimitiveJob.numTokens]
    cases hkind : (job j).kind with
    | fill tokenIds => simp [hkind] at hgen
    | generate config => rfl
  rw [batchedTokens, List.map_congr_left hone, List.map_const', List.sum_replicate,
    nsmul_one, Nat.cast_id]

/-- Executions keep the kinds, so the counts. -/
lemma KeepsJobs.running {job : JobRef → PrimitiveJob} (h : s.KeepsJobs job) {j : JobRef}
    (hj : j ∈ s.sched.runningJobs) : (job j).kind = (s.job j).kind ∧
      ((s.job j).finishEvent = true → (job j).finishEvent = true) :=
  h j (List.mem_append_right _ hj)

lemma KeepsJobs.isGenerate {job : JobRef → PrimitiveJob} (h : s.KeepsJobs job) {j : JobRef}
    (hj : j ∈ s.sched.runningJobs) : (job j).isGenerate = (s.job j).isGenerate := by
  rw [PrimitiveJob.isGenerate, PrimitiveJob.isGenerate, (h.running hj).1]

lemma KeepsJobs.batchedTokens {job : JobRef → PrimitiveJob} (h : s.KeepsJobs job) :
    batchedTokens job s.sched.runningJobs = batchedTokens s.job s.sched.runningJobs := by
  refine congrArg List.sum (List.map_congr_left fun j hj => ?_)
  rw [PrimitiveJob.numTokens, PrimitiveJob.numTokens, (h.running hj).1]

/-! ### One call of `schedule` between two executions -/

/-- The limits on a batch, and its place in the order of arrival: it is an initial segment of the
jobs that were running or admitted in the call. -/
structure WithinLimits (sched : EngineScheduler) (job : JobRef → PrimitiveJob)
    (contextLen : JobRef → Except PyError ℕ) (batch : List JobRef) : Prop where
  size : batch.length ≤ sched.config.maxBatchSize
  tokens : batchedTokens job batch ≤ sched.config.maxNumBatchedTokens
  total : ∃ total, totalTokens contextLen batch = .ok total ∧ total ≤ sched.config.maxTotalTokens
  oldest : ∃ new rest preempted, sched.waitingJobs = new ++ rest ∧
    (batch ++ preempted).Perm (sched.runningJobs ++ new) ∧
    (batch ++ preempted).Pairwise (ArrivedBy sched job)

/-- When all running jobs are Generates, the two counters of the admission loop start at what they
count. -/
lemma schedule_within {config : SchedulerConfig} (h : BatchInv config s) (hidle : s.phase = .idle)
    (hpolicy : config.policy = .fifo) {contextLen : JobRef → Except PyError ℕ}
    {batch : List JobRef} {sched' : EngineScheduler}
    (hok : s.sched.schedule s.job contextLen = .ok (batch, sched')) :
    WithinLimits s.sched s.job contextLen batch := by
  obtain rfl := h.sameConfig
  obtain ⟨preempted, total, hsort, -, htotal, hle, -⟩ := schedule_cases hpolicy hok
  obtain ⟨new, rest, hsplit, heq, hsize, htokens⟩ :=
    admission_eq s.sched.config (fun j => (s.job j).numTokens) s.sched.waitingJobs
      s.sched.runningJobs s.sched.runningJobs.length s.sched.runningJobs.length
  have hperm : (batch ++ preempted).Perm (s.sched.runningJobs ++ new) := by
    have h₁ := sortByArrival_perm hsort
    rwa [admitted, heq] at h₁
  have hpart : batch.Sublist (batch ++ preempted) := List.sublist_append_left _ _
  have hcount := batchedTokens_generates (h.generates hidle)
  have hrunning := h.tokens
  rw [hcount] at hrunning
  refine ⟨?_, ?_, ⟨total, htotal, hle⟩,
    ⟨new, rest, preempted, hsplit, hperm, sortByArrival_sorted hsort⟩⟩
  · refine hpart.length_le.trans ?_
    rw [hperm.length_eq, List.length_append]
    exact hsize h.size
  · refine (batchedTokens_sublist hpart).trans ?_
    rw [batchedTokens_perm hperm, batchedTokens_append, hcount]
    exact htokens hrunning

lemma schedule_inv {config : SchedulerConfig} (h : BatchInv config s) (hidle : s.phase = .idle)
    (hpolicy : config.policy = .fifo) {contextLen : JobRef → Except PyError ℕ}
    {batch : List JobRef} {sched' : EngineScheduler}
    (hok : s.sched.schedule s.job contextLen = .ok (batch, sched')) :
    BatchInv config { s with sched := sched', phase := .scheduled } := by
  have hlimits := schedule_within h hidle hpolicy hok
  obtain rfl := h.sameConfig
  obtain ⟨preempted, total, -, rfl, -⟩ := schedule_cases hpolicy hok
  exact ⟨rfl, hlimits.size, hlimits.tokens, (by rintro ⟨⟩), (by rintro ⟨⟩)⟩

/-! ### The other steps -/

/-- A change of the records between two phases. -/
lemma BatchInv.records {config : SchedulerConfig} (h : BatchInv config s)
    {job : JobRef → PrimitiveJob} (hkeeps : s.KeepsJobs job) : BatchInv config { s with job } where
  sameConfig := h.sameConfig
  size := h.size
  tokens := hkeeps.batchedTokens.trans_le h.tokens
  generates hidle j hj := (hkeeps.isGenerate hj).trans (h.generates hidle j hj)
  fillsDone hexec j hj hfill :=
    (hkeeps.running hj).2 (h.fillsDone hexec j hj ((hkeeps.isGenerate hj).symm.trans hfill))

/-- `finish` drops the Fills, so what is left are Generates. -/
lemma finish_inv {config : SchedulerConfig} (h : BatchInv config s) (hexec : s.phase = .executed)
    {sched' : EngineScheduler} (hok : s.sched.finish s.job = .ok sched') :
    BatchInv config { s with sched := sched', phase := .idle } := by
  obtain ⟨hconfig, -, hrunning⟩ := finish_spec hok
  have hpart : sched'.runningJobs.Sublist s.sched.runningJobs := hrunning ▸ List.filter_sublist
  refine ⟨hconfig.trans h.sameConfig, hpart.length_le.trans h.size,
    (batchedTokens_sublist hpart).trans h.tokens, fun _ j hj => ?_, by rintro ⟨⟩⟩
  dsimp only at hj ⊢
  rw [hrunning, List.mem_filter] at hj
  cases hgen : (s.job j).isGenerate with
  | true => rfl
  | false =>
      have hdone := h.fillsDone hexec j hj.1 hgen
      rw [hdone] at hj
      exact absurd hj.2 Bool.false_ne_true

/-- Every run of the loop. -/
theorem batch_invariant {config : SchedulerConfig} (hpolicy : config.policy = .fifo)
    (job : JobRef → PrimitiveJob) :
    (system config job).IsInvariantUnder (fun _ _ => True) (BatchInv config) where
  init := by
    rintro s rfl
    exact ⟨rfl, Nat.zero_le _, Nat.zero_le _, fun _ j hj => (by cases hj), by rintro ⟨⟩⟩
  step := by
    rintro s a s' h - ⟨hen, hok⟩
    cases a with
    | jobs job =>
        obtain rfl := Except.ok.inj hok
        exact h.records hen
    | addJob j curTime =>
        obtain rfl := Except.ok.inj hok
        exact ⟨h.sameConfig, h.size, h.tokens, h.generates, h.fillsDone⟩
    | schedule contextLen =>
        simp only [apply] at hok
        split at hok
        · cases hok
        · rename_i batch sched hsched
          obtain rfl := Except.ok.inj hok
          exact schedule_inv h hen hpolicy hsched
    | execute job =>
        obtain rfl := Except.ok.inj hok
        obtain ⟨-, hkeeps, hdone⟩ := hen
        have hrecords := h.records hkeeps
        exact ⟨hrecords.sameConfig, hrecords.size, hrecords.tokens, (by rintro ⟨⟩), fun _ => hdone⟩
    | finish =>
        simp only [apply] at hok
        split at hok
        · cases hok
        · rename_i sched hfinish
          obtain rfl := Except.ok.inj hok
          exact finish_inv h hen hfinish

/-- **Every batch respects the limits and keeps the oldest jobs**, in every run in which the calls
of `schedule` are separated by the execution of what they returned and by `finish`. -/
theorem batch_within_limits {config : SchedulerConfig} (hpolicy : config.policy = .fifo)
    (job : JobRef → PrimitiveJob) (hs : (system config job).Reachable s) (hidle : s.phase = .idle)
    (contextLen : JobRef → Except PyError ℕ) {batch : List JobRef} {sched' : EngineScheduler}
    (hok : s.sched.schedule s.job contextLen = .ok (batch, sched')) :
    WithinLimits s.sched s.job contextLen batch :=
  schedule_within ((batch_invariant hpolicy job).holds hs) hidle hpolicy hok

/-- A Fill of two tokens, and Generates after it. -/
def fillFirst (done : Bool) (j : JobRef) : PrimitiveJob where
  sessionId := 0
  taskId := j
  contextId := j
  parentContextId := none
  endFlag := true
  kind := if j = 0 then .fill (some [5, 6]) else .generate { stopTokenIds := [], maxGenLength := 8 }
  finishEvent := done && decide (j = 0)

/-- The Fill and the first Generate run together; then the second one is admitted. -/
theorem batch_within_limits_two : ∃ s : BatchRun, s.sched.runningJobs = [1] ∧
    WithinLimits s.sched s.job (fun _ => .ok 1) [1, 2] := by
  have hrun : RunsTo Enabled (fun _ _ => True) apply
      (fun s => s.phase = .idle ∧ s.sched.runningJobs = [1] ∧
        (s.sched.schedule s.job fun _ => .ok 1).toOption.map Prod.fst = some [1, 2])
      (start { maxBatchSize := 2, maxNumBatchedTokens := 3, maxTotalTokens := 4 } (fillFirst false))
      [.addJob 0 0, .addJob 1 1, .schedule fun _ => .ok 0, .addJob 2 2, .execute (fillFirst true),
        .finish] := by
    decide +kernel
  obtain ⟨s, hs, hidle, hrunning, hbatch⟩ := RunsTo.reachable _ (.init rfl) hrun
  refine ⟨s, hrunning, ?_⟩
  obtain ⟨⟨batch, sched'⟩, hok, rfl⟩ := Option.map_eq_some_iff.mp hbatch
  cases hresult : s.sched.schedule s.job fun _ => .ok 1 with
  | error e =>
      rw [hresult] at hok
      cases hok
  | ok result =>
      rw [hresult] at hok
      obtain rfl := Option.some.inj hok
      exact batch_within_limits rfl (fillFirst false) hs hidle _ hresult

end BatchRun

end ParrotServe
