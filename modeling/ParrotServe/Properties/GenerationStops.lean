import ParrotServe.Properties.JobIterations
import ParrotServe.Properties.KvView
import Mathlib.Order.Bounds.Basic

/-!
# Where a generation stops

A Generate gets the tokens that are sampled for it until one of them is a stop token or there are
`max_gen_length` of them (`Stops`).  `run_iter` puts a token at two places but asks `check_stop` at
one: the token of a first sampling is put without a question, and the question that follows looks
at the token behind it.

`GenerationInv` is what every run of iterations keeps: each token but the last, and but that of a
first sampling, was asked about and did not stop, and the job has finished exactly when the last one
did.  So the produced tokens are the shortest prefix that stops exactly when there was no first
sampling or its token does not stop (`generation_stops_iff`).
-/

namespace ParrotServe
namespace BuiltinEngine

open TransitionSystem

variable {s s' : BuiltinEngine} {j : JobRef} {r : CtxRef} {cfg : SamplingConfig} {tokens : ℕ → ℕ}

/-! ## One iteration -/

/-- The tokens that an iteration samples for a job: that of a first sampling, if the job needs one,
and the next one. -/
def sampledFor (s : BuiltinEngine) (o : ModelOutput) (batch : List JobRef) (j : JobRef) : List ℕ :=
  let jobs := s.fillsFirst batch
  let numFillJobs := (jobs.filter fun j => !(s.job j).isGenerate).length
  match s.prepareJobs jobs with
  | .error _ => []
  | .ok (first, _) =>
      (if j ∈ first then [o.firstSamplingTokens (first.idxOf j)] else []) ++
        [o.nextTokens (jobs.idxOf j - numFillJobs)]

/-- What an iteration does to a Generate and its context. -/
structure Sampled (cfg : SamplingConfig) (r : CtxRef) (j : JobRef) (s : BuiltinEngine)
    (new : List ℕ) (s' : BuiltinEngine) : Prop where
  record : ∃ init t, new = init ++ [t] ∧ s'.job j = { s.job j with
    outputQueue := (s.job j).outputQueue ++ new
    genLength := (s.job j).genLength + new.length
    finishEvent := (s.job j).finishEvent || decide (t ∈ cfg.stopTokenIds ∨
      cfg.maxGenLength ≤ (s.job j).genLength + new.length) }
  tokens : (s'.mem.obj r).tokenIds = (s.mem.obj r).tokenIds ++ new
  hidden : (s'.mem.obj r).lastHiddenState = none
  /-- A second token comes from a hidden state, which an own token leaves to the context itself. -/
  length : new.length = 1 ∨
    new.length = 2 ∧ ((s.mem.obj r).tokenIds ≠ [] → (s.mem.obj r).lastHiddenState ≠ none)

/-- The first sampling, seen from the job. -/
lemma firstSampling_sampled {o : ModelOutput} {first₁ first₂ pre post : List JobRef}
    {sample : Bool} (halone : s.Alone r pre j post) (hnot : j ∉ first₁ ++ first₂)
    (hsub : ∀ x ∈ first₁ ++ first₂, x ∈ pre ++ post)
    (h : s.firstSampling o.firstSamplingTokens 0
      (first₁ ++ ((if sample then [j] else []) ++ first₂)) = .ok s') :
    ∃ init, init = (if sample then [o.firstSamplingTokens first₁.length] else []) ∧
      s'.mem.obj r = { s.mem.obj r with tokenIds := (s.mem.obj r).tokenIds ++ init } ∧
      s'.job j = { s.job j with
        outputQueue := (s.job j).outputQueue ++ init
        genLength := (s.job j).genLength + init.length } := by
  have helse : s.Elsewhere r (first₁ ++ first₂) := fun x hx => halone.elsewhere x (hsub x hx)
  cases sample with
  | true =>
      obtain ⟨hobj, hjob⟩ := firstSampling_alone ⟨halone.context, hnot, helse⟩ h
      rw [Nat.zero_add] at hobj hjob
      exact ⟨_, rfl, hobj, hjob⟩
  | false =>
      obtain ⟨hjob, hobj⟩ := firstSampling_elsewhere hnot helse h
      refine ⟨[], rfl, ?_, ?_⟩
      · rw [hobj, List.append_nil]
      · rw [hjob, List.append_nil]
        rfl

/-- The sampled tokens, by the place of the job in the batch and in the list for first sampling. -/
lemma sampledFor_eq {o : ModelOutput} {batch pre post first₁ first₂ : List JobRef} {sample : Bool}
    {s₁ : BuiltinEngine} (hsplit : s.fillsFirst batch = pre ++ j :: post) (hpre : j ∉ pre)
    (hprep : s.prepareJobs (pre ++ j :: post) =
      .ok (first₁ ++ ((if sample then [j] else []) ++ first₂), s₁))
    (hnot : j ∉ first₁ ++ first₂) :
    s.sampledFor o batch j = (if sample then [o.firstSamplingTokens first₁.length] else []) ++
      [o.nextTokens (pre.length -
        ((pre ++ j :: post).filter fun x => !(s.job x).isGenerate).length)] := by
  have hnot₁ : j ∉ first₁ := fun hj => hnot (List.mem_append_left _ hj)
  rw [sampledFor, hsplit, hprep]
  dsimp only
  rw [List.idxOf_append_of_notMem hpre, List.idxOf_cons_self, Nat.add_zero]
  congr 1
  cases sample with
  | true =>
      rw [if_pos rfl, if_pos rfl, if_pos (by simp), List.idxOf_append_of_notMem hnot₁]
      simp
  | false =>
      rw [if_neg Bool.false_ne_true, if_neg Bool.false_ne_true, if_neg]
      exact hnot

/-- One iteration with a Generate that is alone on its context. -/
lemma runIter_sampled {o : ModelOutput} {batch pre post : List JobRef}
    (hsplit : s.fillsFirst batch = pre ++ j :: post) (halone : s.Alone r pre j post)
    (hkind : (s.job j).kind = .generate cfg) (h : s.runIter o batch = .ok s') :
    Sampled cfg r j s (s.sampledFor o batch j) s' := by
  obtain ⟨jobs, s₃, hfwd, hup⟩ := runIter_cases h
  obtain ⟨rfl, first, s₁, hprep, s₂, hfirst, ids, hids, hforward⟩ := runIterForward_cases hfwd
  obtain ⟨hmem₃, hjob₃⟩ := forward_eq hforward
  rw [hsplit] at hprep hids hup
  -- the first loop
  obtain ⟨sample, a, b, first₁, first₂, hround, hajob, haobj, hjob₁, hobj₁, rfl, hnot, hsub⟩ :=
    prepareJobs_alone halone hprep
  have halone₁ : s₁.Alone r pre j post := halone.congr fun x => by rw [hjob₁]
  obtain ⟨init, hinit, hobj₂, hjob₂⟩ := firstSampling_sampled halone₁ hnot hsub hfirst
  have hquiet := firstSampling_quiet hfirst
  -- the last loop
  have hkinds : ∀ x, (s₃.job x).kind = (s.job x).kind := by
    intro x
    rw [hjob₃, (hquiet.job x).2.2, hjob₁]
  have hctxs : ∀ x, (s₃.job x).context = (s.job x).context := by
    intro x
    rw [hjob₃, (hquiet.job x).2.1, hjob₁]
  obtain ⟨c, d, hlast, hcjob, hcobj, hjob', hobj'⟩ := updateJobs_alone (halone.congr hctxs) hup
  have hkind₃ : (c.job j).kind = .generate cfg := by
    rw [hcjob, hkinds, hkind]
  have hctx₃ : (c.job j).context = some r := by
    rw [hcjob, hctxs, halone.context]
  obtain ⟨hdobj, hdjob⟩ := updateJob_generate hctx₃ hkind₃ hlast
  set t := o.nextTokens (0 + pre.length -
    ((pre ++ j :: post).filter fun x => !(s₃.job x).isGenerate).length) with ht
  have hnew : s.sampledFor o batch j = init ++ [t] := by
    have hgens : (fun x => !(s₃.job x).isGenerate) = fun x => !(s.job x).isGenerate := by
      funext x
      rw [PrimitiveJob.isGenerate, PrimitiveJob.isGenerate, hkinds]
    rw [sampledFor_eq hsplit halone.pre.1 hprep hnot, hinit, ht, hgens, Nat.zero_add]
  have hobj : s'.mem.obj r = { b.mem.obj r with
      tokenIds := (b.mem.obj r).tokenIds ++ (init ++ [t]) } := by
    rw [hobj', hdobj, hcobj, hmem₃, hobj₂, hobj₁, List.append_assoc]
  have hgen : (a.job j).isGenerate = true := by
    rw [hajob, PrimitiveJob.isGenerate, hkind]
  have htokens : (b.mem.obj r).tokenIds = (s.mem.obj r).tokenIds := by
    rw [hround.tokens, haobj, filledTokens_generate hgen, List.append_nil]
  obtain ⟨state, hstate, hsample⟩ := hround.generate hgen
  have hown : (s.mem.obj r).tokenIds ≠ [] → state = (s.mem.obj r).lastHiddenState := by
    intro hne
    rw [← haobj] at hne ⊢
    exact Except.ok.inj (hstate.symm.trans (getLastHiddenState_of_ne_nil hne))
  refine ⟨⟨init, t, hnew, ?_⟩, ?_, ?_, ?_⟩
  · rw [hjob', hdjob, hcjob, hjob₃, hjob₂, hjob₁, hnew]
    simp only [List.append_assoc, List.length_append, List.length_singleton, Nat.add_assoc]
  · rw [hobj, hnew, htokens]
  · rw [hobj, hround.hidden]
    cases sample with
    | true => rfl
    | false =>
        -- without a first sampling the context has a token, and its own state is asked
        have hinput := (inputIds_spec _ hids).2 j (List.mem_append_right _ List.mem_cons_self) (by
          rw [PrimitiveJob.isGenerate, ← hjob₃, hkinds, hkind])
        have hctx₂ : s₂.jobContext j = r :=
          jobContext_eq (by rw [← hjob₃, hctxs, halone.context])
        rw [hctx₂, hobj₂, hobj₁] at hinput
        rw [hinit, if_neg Bool.false_ne_true, List.append_nil, htokens] at hinput
        rw [if_neg Bool.false_ne_true, haobj, ← hown hinput]
        exact not_not.mp fun hne => Bool.false_ne_true (hsample.mpr hne)
  · rw [hnew, hinit]
    cases sample with
    | true =>
        refine .inr ⟨rfl, fun hne => ?_⟩
        rw [← hown hne]
        exact hsample.mp rfl
    | false => exact .inl rfl

/-! ## Where the tokens should stop -/

/-- A generation stops at a token `t` of index `i`. -/
def Stops (cfg : SamplingConfig) (i t : ℕ) : Prop :=
  t ∈ cfg.stopTokenIds ∨ cfg.maxGenLength ≤ i + 1

instance (i t : ℕ) : Decidable (Stops cfg i t) := inferInstanceAs (Decidable (_ ∨ _))

/-- Some tokens are the first ones of a sequence. -/
def Follows (tokens : ℕ → ℕ) (ts : List ℕ) : Prop := ts = (List.range ts.length).map tokens

instance (ts : List ℕ) : Decidable (Follows tokens ts) := inferInstanceAs (Decidable (_ = _))

/-- The produced tokens are the shortest prefix of the sampled ones that stops; so there are at most
`max_gen_length` of them, and none behind a stop token. -/
structure StopsRight (cfg : SamplingConfig) (tokens : ℕ → ℕ) (produced : List ℕ) : Prop where
  length_le : produced.length ≤ cfg.maxGenLength
  none_behind : ∀ i t, produced[i]? = some t → t ∈ cfg.stopTokenIds → produced.length = i + 1
  shortest : Follows tokens produced ∧
    IsLeast {n | ∃ i, n = i + 1 ∧ Stops cfg i (tokens i)} produced.length

end BuiltinEngine

/-! ## Runs of iterations -/

/-- A Generate between iterations: the engine, the tokens sampled for the job so far, and whether
its first iteration made a first sampling. -/
structure GenerationRun where
  engine : BuiltinEngine
  sampled : List ℕ
  firstSampling : Bool

namespace GenerationRun

open BuiltinEngine TransitionSystem

/-- An iteration with the job, or anything else that happens in the engine. -/
inductive Action
  | iterate (batch : List JobRef) (o : ModelOutput)
  | rest (engine : BuiltinEngine)

section

variable (j : JobRef) (r : CtxRef) (tokens : ℕ → ℕ) (s : GenerationRun)

/-- The job takes part in iterations until it has finished, alone on its context, and what is
sampled for it are the next tokens of the sequence.  Nothing else changes its record and the tokens
and hidden state of its context. -/
def Enabled : Action → Prop
  | .iterate batch o => (s.engine.job j).finishEvent = false ∧
      (∃ pre post, s.engine.fillsFirst batch = pre ++ j :: post ∧ s.engine.Alone r pre j post) ∧
      Follows tokens (s.sampled ++ s.engine.sampledFor o batch j)
  | .rest engine => engine.job j = s.engine.job j ∧
      (engine.mem.obj r).tokenIds = (s.engine.mem.obj r).tokenIds ∧
      (engine.mem.obj r).lastHiddenState = (s.engine.mem.obj r).lastHiddenState

/-- The effect of an action. -/
def apply : Action → Except PyError GenerationRun
  | .iterate batch o =>
      match s.engine.runIter o batch with
      | .error e => .error e
      | .ok engine =>
          let new := s.engine.sampledFor o batch j
          .ok { engine
                sampled := s.sampled ++ new
                firstSampling := s.firstSampling || decide (new.length = 2) }
  | .rest engine => .ok { s with engine }

/-- Every run of iterations of the job, from an engine that holds it. -/
def system (engine : BuiltinEngine) : TransitionSystem GenerationRun Action :=
  .ofExcept { engine, sampled := [], firstSampling := false } (Enabled j r tokens) (apply j)

end

/-- A Generate that was submitted: its context is bound, and it has no token yet. -/
structure Submitted (cfg : SamplingConfig) (r : CtxRef) (j : JobRef) (engine : BuiltinEngine) :
    Prop where
  context : (engine.job j).context = some r
  kind : (engine.job j).kind = .generate cfg
  queue : (engine.job j).outputQueue = []
  count : (engine.job j).genLength = 0
  running : (engine.job j).finishEvent = false

variable {cfg : SamplingConfig} {r : CtxRef} {j : JobRef} {tokens : ℕ → ℕ} {s s' : GenerationRun}

/-- What every run keeps. -/
structure GenerationInv (cfg : SamplingConfig) (r : CtxRef) (j : JobRef) (tokens : ℕ → ℕ)
    (s : GenerationRun) : Prop where
  context : (s.engine.job j).context = some r
  kind : (s.engine.job j).kind = .generate cfg
  queue : (s.engine.job j).outputQueue = s.sampled
  count : (s.engine.job j).genLength = s.sampled.length
  follows : Follows tokens s.sampled
  /-- Behind the first iteration the context has a token and no hidden state. -/
  own : s.sampled ≠ [] → (s.engine.mem.obj r).tokenIds ≠ [] ∧
    (s.engine.mem.obj r).lastHiddenState = none
  first : s.firstSampling = true → 2 ≤ s.sampled.length
  /-- `check_stop` was asked about each token but the last, except that of a first sampling. -/
  checked : ∀ i, (s.firstSampling = true → i ≠ 0) → i + 1 < s.sampled.length →
    ¬ Stops cfg i (tokens i)
  last : ∀ n, s.sampled.length = n + 1 →
    ((s.engine.job j).finishEvent = true ↔ Stops cfg n (tokens n))
  running : s.sampled = [] → (s.engine.job j).finishEvent = false

/-- A hidden state to sample from is only there before the first token. -/
lemma GenerationInv.new_length (h : GenerationInv cfg r j tokens s) {new : List ℕ}
    {engine : BuiltinEngine} (hs : Sampled cfg r j s.engine new engine) :
    new.length = 1 ∨ (new.length = 2 ∧ s.sampled = []) := by
  refine hs.length.imp_right fun ⟨htwo, hidden⟩ => ⟨htwo, ?_⟩
  by_contra hne
  obtain ⟨htokens, hnone⟩ := h.own hne
  exact hidden htokens hnone

/-- The last of the first tokens of a sequence. -/
lemma getLast_of_follows {init : List ℕ} {t : ℕ} (h : Follows tokens (init ++ [t])) :
    t = tokens init.length := by
  have hget := congrArg (fun l => l[init.length]?) h
  simpa using hget

lemma GenerationInv.iterate (h : GenerationInv cfg r j tokens s) {batch : List JobRef}
    {o : ModelOutput} (hen : s.Enabled j r tokens (.iterate batch o))
    (hok : s.apply j (.iterate batch o) = .ok s') : GenerationInv cfg r j tokens s' := by
  obtain ⟨hrunning, ⟨pre, post, hsplit, halone⟩, hfollows⟩ := hen
  simp only [apply] at hok
  split at hok
  · cases hok
  · rename_i engine hrun
    obtain rfl := Except.ok.inj hok
    have hs := runIter_sampled hsplit halone h.kind hrun
    have hlength := h.new_length hs
    obtain ⟨init, t, hnew, hjob⟩ := hs.record
    set new := s.engine.sampledFor o batch j with hnewdef
    have hlen : (s.sampled ++ new).length = s.sampled.length + new.length := List.length_append
    have ht : t = tokens (s.sampled.length + init.length) := by
      rw [hnew, ← List.append_assoc] at hfollows
      rw [getLast_of_follows hfollows, List.length_append]
    have hnewlen : new.length = init.length + 1 := by
      rw [hnew, List.length_append, List.length_singleton]
    refine ⟨?_, ?_, ?_, ?_, hfollows, fun _ => ⟨?_, hs.hidden⟩, ?_, ?_, ?_, ?_⟩
    · rw [hjob]
      exact h.context
    · rw [hjob]
      exact h.kind
    · rw [hjob]
      exact congrArg (· ++ new) h.queue
    · rw [hjob, hlen]
      exact congrArg (· + new.length) h.count
    · rw [hs.tokens, hnew]
      simp
    · intro hfirst
      dsimp only at hfirst ⊢
      rw [Bool.or_eq_true, decide_eq_true_eq] at hfirst
      rcases hfirst with hfirst | htwo
      · have hle := h.first hfirst
        omega
      · omega
    · -- a token that is not the last one any more was asked about when it was put
      intro i hi hlt
      dsimp only at hi hlt
      rw [Bool.or_eq_true, decide_eq_true_eq] at hi
      rw [hlen] at hlt
      rcases hlength with hone | ⟨htwo, hnil⟩
      · rcases Nat.lt_or_ge (i + 1) s.sampled.length with hlt' | hge
        · exact h.checked i (fun hf => hi (.inl hf)) hlt'
        · have heq : s.sampled.length = i + 1 := by omega
          rw [← h.last i heq, hrunning]
          exact Bool.false_ne_true
      · have hzero := hi (.inr htwo)
        rw [hnil, List.length_nil] at hlt
        omega
    · intro n hn
      dsimp only at hn ⊢
      rw [hlen, hnewlen] at hn
      have hn' : n = s.sampled.length + init.length := by omega
      rw [hjob]
      dsimp only
      rw [hrunning, Bool.false_or, decide_eq_true_eq, h.count, ht, hnewlen, ← Nat.add_assoc, ← hn',
        Stops]
    · intro hnil
      dsimp only at hnil
      rw [hnew, List.append_eq_nil_iff] at hnil
      exact absurd hnil.2 (by simp)

/-- Every run keeps the invariant. -/
lemma generation_invariant {engine : BuiltinEngine} (hstart : Submitted cfg r j engine) :
    (system j r tokens engine).IsInvariantUnder (fun _ _ => True)
      (GenerationInv cfg r j tokens) where
  init := by
    rintro s rfl
    refine ⟨hstart.context, hstart.kind, hstart.queue, hstart.count, rfl, fun hne => absurd rfl hne,
      fun hfirst => ?_, fun i _ hlt => ?_, fun n hn => ?_, fun _ => hstart.running⟩
    · cases hfirst
    · exact absurd hlt (Nat.not_lt_zero _)
    · cases hn
  step := by
    rintro s a s' h - ⟨hen, hok⟩
    cases a with
    | iterate batch o => exact h.iterate hen hok
    | rest engine =>
        obtain rfl := Except.ok.inj hok
        obtain ⟨hjob, htokens, hhidden⟩ := hen
        refine ⟨?_, ?_, ?_, ?_, h.follows, fun hne => ?_, h.first, h.checked, ?_, ?_⟩
        · exact hjob ▸ h.context
        · exact hjob ▸ h.kind
        · exact hjob ▸ h.queue
        · exact hjob ▸ h.count
        · rw [htokens, hhidden]
          exact h.own hne
        · intro n hn
          dsimp only
          rw [hjob]
          exact h.last n hn
        · intro hnil
          dsimp only
          rw [hjob]
          exact h.running hnil

/-- A job that has not finished has fewer than `max_gen_length` tokens, and each iteration adds one
or two: a generation ends. -/
theorem generation_ends {engine : BuiltinEngine} (hstart : Submitted cfg r j engine)
    (hmax : 1 ≤ cfg.maxGenLength) (hs : (system j r tokens engine).Reachable s)
    (hrunning : (s.engine.job j).finishEvent = false) : s.sampled.length < cfg.maxGenLength := by
  have h := (generation_invariant hstart).holds hs
  cases hlen : s.sampled.length with
  | zero => omega
  | succ n =>
      have hlast := (h.last n hlen).not.mp (by rw [hrunning]; exact Bool.false_ne_true)
      rw [Stops, not_or, Nat.not_le] at hlast
      exact hlast.2

/-- **Where a generation stops.**  The produced tokens of a finished Generate are the shortest
prefix of the sampled ones that stops, exactly when its first iteration made no first sampling, or
the token of the first sampling does not stop. -/
theorem generation_stops_iff {engine : BuiltinEngine} (hstart : Submitted cfg r j engine)
    (hmax : 1 ≤ cfg.maxGenLength) (hs : (system j r tokens engine).Reachable s)
    (hfinished : (s.engine.job j).finishEvent = true) :
    StopsRight cfg tokens (s.engine.job j).outputQueue ↔
      (s.firstSampling = true → tokens 0 ∉ cfg.stopTokenIds ∧ 2 ≤ cfg.maxGenLength) := by
  have h := (generation_invariant hstart).holds hs
  rw [h.queue]
  have hne : s.sampled ≠ [] := by
    intro hnil
    rw [h.running hnil] at hfinished
    cases hfinished
  obtain ⟨n, hn⟩ := Nat.exists_eq_succ_of_ne_zero fun hzero =>
    hne (List.length_eq_zero_iff.mp hzero)
  have hlast := (h.last n hn).mp hfinished
  constructor
  · intro hright hfirst
    have htwo := h.first hfirst
    have hzero : ¬ Stops cfg 0 (tokens 0) := by
      intro hstop
      have hle : s.sampled.length ≤ 1 := hright.shortest.2.2 ⟨0, rfl, hstop⟩
      omega
    rw [Stops, not_or, Nat.not_le] at hzero
    exact hzero
  · intro hcond
    have hbefore : ∀ i < n, ¬ Stops cfg i (tokens i) := by
      intro i hi
      by_cases hchecked : s.firstSampling = true ∧ i = 0
      · obtain ⟨hfirst, rfl⟩ := hchecked
        obtain ⟨hnot, htwo⟩ := hcond hfirst
        rw [Stops, not_or]
        exact ⟨hnot, by omega⟩
      · exact h.checked i (fun hfirst hzero => hchecked ⟨hfirst, hzero⟩) (by omega)
    refine ⟨?_, fun i t hi ht => ?_, h.follows, ⟨n, hn, hlast⟩, ?_⟩
    · by_contra hover
      exact hbefore (n - 1) (by omega) (.inr (by omega))
    · have hlt : i < s.sampled.length := (List.getElem?_eq_some_iff.mp hi).1
      rw [h.follows, List.getElem?_map, List.getElem?_range hlt, Option.map_some] at hi
      obtain rfl := Option.some.inj hi
      by_contra hnot
      exact hbefore i (by omega) (.inl ht)
    · rintro _ ⟨i, rfl, hstop⟩
      by_contra hlt
      exact hbefore i (by omega) hstop

/-- An engine that filled a prompt, and was sent a Generate of at most two tokens behind it. -/
def prompted (stopTokenIds : List ℕ) : BuiltinEngine :=
  [BuiltinEngine.Action.fill 0 0 0 none false [7] 0, .engineIter fiveOutput,
    .generate 0 1 1 (some 0) true ⟨stopTokenIds, 2⟩ 1].foldl BuiltinEngine.apply
      (BuiltinEngine.start .xFormersWithBuffer 1 8 ampleConfig)

/-- The first sampling returns 5, the model 6. -/
def fiveSixOutput : ModelOutput := ⟨fun _ => 5, fun _ => 0, fun _ => 6⟩

/-- What there is to see of the job after an iteration of the prompted engine. -/
def promptedView (stopTokenIds : List ℕ) : Option (Bool × List ℕ) :=
  ((prompted stopTokenIds).runIter fiveSixOutput [1]).toOption.map fun engine =>
    ((engine.job 1).finishEvent, (engine.job 1).outputQueue)

/-- That iteration is a run. -/
lemma prompted_run {stopTokenIds ts : List ℕ}
    (hstart : Submitted ⟨stopTokenIds, 2⟩ 1 1 (prompted stopTokenIds))
    (hsplit : (prompted stopTokenIds).fillsFirst [1] = [1])
    (hfollows : Follows (5 + ·) ((prompted stopTokenIds).sampledFor fiveSixOutput [1] 1))
    (hview : promptedView stopTokenIds = some (true, ts)) :
    ∃ s, (system 1 1 (5 + ·) (prompted stopTokenIds)).Reachable s ∧
      (s.engine.job 1).finishEvent = true ∧ (s.engine.job 1).outputQueue = ts := by
  have halone : (prompted stopTokenIds).Alone 1 [] 1 [] :=
    ⟨hstart.context, List.not_mem_nil, fun x hx => by cases hx⟩
  obtain ⟨engine, hengine, hpair⟩ := Option.map_eq_some_iff.mp hview
  obtain ⟨hfinished, hqueue⟩ := Prod.mk.inj hpair
  cases hrun : (prompted stopTokenIds).runIter fiveSixOutput [1] with
  | error e =>
      rw [hrun] at hengine
      cases hengine
  | ok engine' =>
      rw [hrun] at hengine
      obtain rfl := Option.some.inj hengine
      set run : GenerationRun := ⟨engine', (prompted stopTokenIds).sampledFor fiveSixOutput [1] 1,
        decide (((prompted stopTokenIds).sampledFor fiveSixOutput [1] 1).length = 2)⟩ with hrundef
      refine ⟨run, .step (a := .iterate [1] fiveSixOutput) (.init rfl) trivial
        ⟨⟨hstart.running, ⟨[], [], hsplit, halone⟩, hfollows⟩, ?_⟩, hfinished, hqueue⟩
      simp only [apply, hrun]
      rfl

lemma prompted_submitted {stopTokenIds : List ℕ}
    (h : ((prompted stopTokenIds).job 1) = { (prompted stopTokenIds).job 1 with
      context := some 1
      kind := .generate ⟨stopTokenIds, 2⟩
      outputQueue := []
      genLength := 0
      finishEvent := false }) : Submitted ⟨stopTokenIds, 2⟩ 1 1 (prompted stopTokenIds) := by
  refine ⟨?_, ?_, ?_, ?_, ?_⟩
  all_goals rw [h]

/-- Two tokens that do not stop are what was asked for. -/
theorem generation_stops_two : ∃ s : GenerationRun, (s.engine.job 1).outputQueue = [5, 6] ∧
    (StopsRight ⟨[], 2⟩ (5 + ·) (s.engine.job 1).outputQueue ↔
      (s.firstSampling = true → 5 ∉ ([] : List ℕ) ∧ 2 ≤ 2)) := by
  have hstart : Submitted ⟨[], 2⟩ 1 1 (prompted []) := prompted_submitted (by decide +kernel)
  have hview : promptedView [] = some (true, [5, 6]) := by decide +kernel
  obtain ⟨s, hs, hfinished, hqueue⟩ :=
    prompted_run hstart (by decide +kernel) (by decide +kernel) hview
  exact ⟨s, hqueue, generation_stops_iff hstart (by decide) hs hfinished⟩

/-- A stop token of a first sampling is not noticed: the next token is put behind it. -/
theorem generation_misses_stop : ∃ engine s,
    (BuiltinEngine.system .xFormersWithBuffer 1 8 ampleConfig).Reachable engine ∧
    Submitted ⟨[5], 2⟩ 1 1 engine ∧ (system 1 1 (5 + ·) engine).Reachable s ∧
    (s.engine.job 1).finishEvent = true ∧
    ¬ StopsRight ⟨[5], 2⟩ (5 + ·) (s.engine.job 1).outputQueue := by
  have hstart : Submitted ⟨[5], 2⟩ 1 1 (prompted [5]) := prompted_submitted (by decide +kernel)
  have hview : promptedView [5] = some (true, [5, 6]) := by decide +kernel
  obtain ⟨s, hs, hfinished, hqueue⟩ :=
    prompted_run hstart (by decide +kernel) (by decide +kernel) hview
  refine ⟨prompted [5], s, .foldl _ (.init rfl) (by decide +kernel), hstart, hs, hfinished, ?_⟩
  intro hright
  have hlen := hright.none_behind 0 5 (by rw [hqueue]; rfl) (by decide)
  rw [hqueue] at hlen
  cases hlen

end GenerationRun
end ParrotServe
