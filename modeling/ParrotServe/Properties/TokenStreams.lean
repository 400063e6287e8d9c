import ParrotServe.Properties.GenerationStops

/-!
# Streams of generated tokens

`Generate.generator` takes the tokens out of the queue that `put_token` fills, and asks `check_stop`
whether the stream ends with the token it took.  But `check_stop` looks at the last token of the
context and the number of tokens put so far: at the token the producer put last, not at the one the
consumer took.  A stream is right while the two have the same answer (`InStep`), in particular when
the consumer takes each token before the next one is put; then it yields the tokens in front of the
first one that stops, and ends there (`stream_delivers`).

The rest of the engine may do anything in between that leaves the job and the tokens of its context
alone.
-/

namespace ParrotServe

open BuiltinEngine TransitionSystem

/-- A token stream: the engine, the tokens put so far, those that were yielded, and whether the
generator has returned. -/
structure TokenStream where
  engine : BuiltinEngine
  puts : List ℕ
  yielded : List ℕ
  ended : Bool

namespace TokenStream

/-- `put_token`, a round of the generator, or anything else that happens in the engine. -/
inductive Action
  | put (tokenId : ℕ)
  | next
  | rest (engine : BuiltinEngine)

variable (cfg : SamplingConfig) (j : JobRef) (r : CtxRef) (s : TokenStream)

/-- A round needs a token in the queue, and a generator that has not returned. -/
def Enabled : Action → Prop
  | .put _ => True
  | .next => s.ended = false ∧ (s.engine.job j).outputQueue ≠ []
  | .rest engine => engine.job j = s.engine.job j ∧
      (engine.mem.obj r).tokenIds = (s.engine.mem.obj r).tokenIds

instance : ∀ a, Decidable (s.Enabled j r a)
  | .put _ => inferInstanceAs (Decidable True)
  | .next => inferInstanceAs (Decidable (_ ∧ _))
  | .rest _ => inferInstanceAs (Decidable (_ ∧ _))

/-- The effect of an action. -/
def apply : Action → Except PyError TokenStream
  | .put tokenId =>
      match s.engine.putToken j tokenId with
      | .error e => .error e
      | .ok engine => .ok { s with engine, puts := s.puts ++ [tokenId] }
  | .next =>
      match s.engine.generatorNext j cfg with
      | none => .ok s
      | some (.error e) => .error e
      | some (.ok (none, engine)) => .ok { s with engine, ended := true }
      | some (.ok (some tokenId, engine)) =>
          .ok { s with engine, yielded := s.yielded ++ [tokenId] }
  | .rest engine => .ok { s with engine }

/-- Every interleaving, from an engine that holds the job. -/
def system (engine : BuiltinEngine) : TransitionSystem TokenStream Action :=
  .ofExcept { engine, puts := [], yielded := [], ended := false } (Enabled j r) (apply cfg j)

/-! ## What a stream should yield -/

/-- The tokens in front of the first one that stops, from index `i` on. -/
def beforeStop (cfg : SamplingConfig) : ℕ → List ℕ → List ℕ
  | _, [] => []
  | i, t :: ts => if Stops cfg i t then [] else t :: beforeStop cfg (i + 1) ts

/-- A stream that yields the tokens in front of the first one that stops, and ends there. -/
structure Delivers : Prop where
  /-- Until then it is on its way: what was yielded and what is queued are the tokens put, and no
  yielded token stops. -/
  going : s.ended = false → s.yielded ++ (s.engine.job j).outputQueue = s.puts ∧
    beforeStop cfg 0 s.yielded = s.yielded
  ended : s.ended = true → s.yielded = beforeStop cfg 0 s.puts ∧ beforeStop cfg 0 s.puts ≠ s.puts

/-- The token to be taken, at its place in the stream, stops exactly when the one put last does, at
its own place. -/
def InStep : Prop :=
  ∀ t ∈ (s.engine.job j).outputQueue.head?, ∀ last ∈ s.puts.getLast?,
    Stops cfg (s.puts.length - 1) last ↔ Stops cfg s.yielded.length t

instance : Decidable (s.InStep cfg j) :=
  inferInstanceAs (Decidable (∀ t ∈ (s.engine.job j).outputQueue.head?, ∀ last ∈ s.puts.getLast?,
    Stops cfg (s.puts.length - 1) last ↔ Stops cfg s.yielded.length t))

/-- The rounds are in step. -/
def Guard : Action → Prop
  | .next => s.InStep cfg j
  | _ => True

instance : ∀ a, Decidable (s.Guard cfg j a)
  | .next => inferInstanceAs (Decidable (s.InStep cfg j))
  | .put _ | .rest _ => inferInstanceAs (Decidable True)

variable {cfg j r s} {s' : TokenStream}

lemma beforeStop_append (xs : List ℕ) : ∀ {i ys}, beforeStop cfg i xs = xs →
    beforeStop cfg i (xs ++ ys) = xs ++ beforeStop cfg (i + xs.length) ys := by
  induction xs with
  | nil => exact fun _ => rfl
  | cons x xs ih =>
      intro i ys h
      rw [beforeStop] at h
      split_ifs at h with hstop
      rw [List.cons_append, beforeStop, if_neg hstop, ih (List.cons.inj h).2, List.length_cons,
        Nat.add_assoc, Nat.add_comm 1]
      rfl

/-- What is put behind a token that stops changes nothing. -/
lemma beforeStop_stopped (xs : List ℕ) : ∀ {i ys}, beforeStop cfg i xs ≠ xs →
    beforeStop cfg i (xs ++ ys) = beforeStop cfg i xs := by
  induction xs with
  | nil => exact fun h => absurd rfl h
  | cons x xs ih =>
      intro i ys h
      rw [List.cons_append, beforeStop, beforeStop]
      rw [beforeStop] at h
      split_ifs at h ⊢ with hstop
      · rfl
      · rw [ih fun heq => h (by rw [heq])]

lemma length_beforeStop_le (xs : List ℕ) : ∀ i, (beforeStop cfg i xs).length ≤ xs.length := by
  induction xs with
  | nil => exact fun _ => le_rfl
  | cons x xs ih =>
      intro i
      rw [beforeStop]
      split_ifs
      · exact Nat.zero_le _
      · exact Nat.succ_le_succ (ih (i + 1))

/-- A stream that is drained yielded what it should, and has ended if a token stops. -/
lemma Delivers.drained (h : s.Delivers cfg j)
    (hdone : s.ended = true ∨ (s.engine.job j).outputQueue = []) :
    s.yielded = beforeStop cfg 0 s.puts ∧ (s.ended = true ↔ beforeStop cfg 0 s.puts ≠ s.puts) := by
  cases hended : s.ended with
  | true =>
      obtain ⟨hyielded, hstops⟩ := h.ended hended
      exact ⟨hyielded, iff_of_true rfl hstops⟩
  | false =>
      rw [hended] at hdone
      obtain ⟨hall, hnone⟩ := h.going hended
      rw [hdone.resolve_left Bool.false_ne_true, List.append_nil] at hall
      rw [← hall, hnone]
      exact ⟨rfl, iff_of_false Bool.false_ne_true fun hne => hne rfl⟩

/-! ## Every interleaving -/

/-- What holds in every run, in step or not. -/
structure StreamInv (cfg : SamplingConfig) (j : JobRef) (r : CtxRef) (s : TokenStream) : Prop where
  context : (s.engine.job j).context = some r
  count : (s.engine.job j).genLength = s.puts.length
  tokens : ∃ before, (s.engine.mem.obj r).tokenIds = before ++ s.puts
  queued : s.ended = false → s.yielded ++ (s.engine.job j).outputQueue = s.puts

/-- The question of a round is about the token put last. -/
lemma StreamInv.checkStop (h : StreamInv cfg j r s) {last : ℕ} (hlast : s.puts.getLast? = some last)
    (queue : List ℕ) :
    (s.engine.setJob j { s.engine.job j with outputQueue := queue }).checkStop j cfg =
      .ok (decide (Stops cfg (s.puts.length - 1) last)) := by
  obtain ⟨before, htokens⟩ := h.tokens
  obtain ⟨init, hputs⟩ := List.getLast?_eq_some_iff.mp hlast
  set engine := s.engine.setJob j { s.engine.job j with outputQueue := queue } with hengine
  have hjob : engine.job j = { s.engine.job j with outputQueue := queue } := by
    rw [hengine, setJob_job, if_pos rfl]
  have hctx : (engine.job j).context = some r := by
    rw [hjob]
    exact h.context
  have htok : (engine.mem.obj r).tokenIds = (before ++ init) ++ [last] := by
    rw [List.append_assoc, ← hputs]
    exact htokens
  rw [checkStop_eq hctx htok, hjob]
  dsimp only
  have hlen : s.puts.length - 1 + 1 = s.puts.length := by
    rw [hputs, List.length_append, List.length_singleton, Nat.add_sub_cancel]
  simp only [h.count, Stops, hlen]

/-- A round of the generator. -/
lemma StreamInv.next (h : StreamInv cfg j r s) {t : ℕ} {queue : List ℕ} (hgoing : s.ended = false)
    (hqueue : (s.engine.job j).outputQueue = t :: queue) :
    ∃ last engine, s.puts.getLast? = some last ∧
      (engine.job j) = { s.engine.job j with outputQueue := queue } ∧
      (engine.mem.obj r).tokenIds = (s.engine.mem.obj r).tokenIds ∧
      s.apply cfg j .next = .ok (if Stops cfg (s.puts.length - 1) last
        then { s with engine, ended := true }
        else { s with engine, yielded := s.yielded ++ [t] }) := by
  have hputs : s.puts ≠ [] := by
    rw [← h.queued hgoing, hqueue]
    simp
  obtain ⟨last, hlast⟩ : ∃ last, s.puts.getLast? = some last :=
    ⟨_, List.getLast?_eq_some_getLast hputs⟩
  refine ⟨last, s.engine.setJob j { s.engine.job j with outputQueue := queue }, hlast, ?_, rfl, ?_⟩
  · rw [setJob_job, if_pos rfl]
  · have hcheck := h.checkStop hlast queue
    simp only [apply, generatorNext, hqueue, hcheck]
    split_ifs with hstop
    · rw [decide_eq_true hstop]
    · rw [decide_eq_false hstop]

lemma StreamInv.put (h : StreamInv cfg j r s) {tokenId : ℕ} {engine : BuiltinEngine}
    (hput : s.engine.putToken j tokenId = .ok engine) :
    StreamInv cfg j r { s with engine, puts := s.puts ++ [tokenId] } := by
  obtain ⟨hobj, hjob⟩ := putToken_eq h.context hput
  obtain ⟨before, htokens⟩ := h.tokens
  refine ⟨?_, ?_, ⟨before, ?_⟩, fun hgoing => ?_⟩
  · rw [hjob]
    exact h.context
  · rw [hjob]
    dsimp only
    rw [h.count, List.length_append, List.length_singleton]
  · dsimp only
    rw [hobj]
    dsimp only
    rw [htokens, List.append_assoc]
  · rw [hjob]
    dsimp only
    rw [← List.append_assoc, h.queued hgoing]

/-- Every interleaving keeps the invariant. -/
lemma stream_invariant {engine : BuiltinEngine}
    (hstart : GenerationRun.Submitted cfg r j engine) (guard : TokenStream → Action → Prop) :
    (system cfg j r engine).IsInvariantUnder guard (StreamInv cfg j r) where
  init := by
    rintro s rfl
    exact ⟨hstart.context, hstart.count, ⟨_, (List.append_nil _).symm⟩, fun _ => hstart.queue⟩
  step := by
    rintro s a s' h - ⟨hen, hok⟩
    cases a with
    | put tokenId =>
        simp only [apply] at hok
        split at hok
        · cases hok
        · rename_i engine hput
          obtain rfl := Except.ok.inj hok
          exact h.put hput
    | next =>
        obtain ⟨hgoing, hne⟩ := hen
        obtain ⟨t, queue, hqueue⟩ := List.exists_cons_of_ne_nil hne
        obtain ⟨last, engine, -, hjob, htokens, happly⟩ := h.next hgoing hqueue
        rw [happly] at hok
        obtain rfl := Except.ok.inj hok
        have hcontext : (engine.job j).context = some r := by
          rw [hjob]
          exact h.context
        have hcount : (engine.job j).genLength = s.puts.length := by
          rw [hjob]
          exact h.count
        split_ifs
        · exact ⟨hcontext, hcount, htokens ▸ h.tokens, by rintro ⟨⟩⟩
        · refine ⟨hcontext, hcount, htokens ▸ h.tokens, fun _ => ?_⟩
          rw [hjob]
          dsimp only
          rw [List.append_assoc, List.singleton_append, ← hqueue]
          exact h.queued hgoing
    | rest engine =>
        obtain rfl := Except.ok.inj hok
        obtain ⟨hjob, htokens⟩ := hen
        exact ⟨hjob ▸ h.context, hjob ▸ h.count, htokens ▸ h.tokens, hjob ▸ h.queued⟩

/-- A round keeps a stream right exactly when it is in step. -/
lemma StreamInv.delivers_next (h : StreamInv cfg j r s) (hd : s.Delivers cfg j)
    (hen : s.Enabled j r .next) (hok : s.apply cfg j .next = .ok s') :
    s'.Delivers cfg j ↔ s.InStep cfg j := by
  obtain ⟨hgoing, hne⟩ := hen
  obtain ⟨t, queue, hqueue⟩ := List.exists_cons_of_ne_nil hne
  obtain ⟨last, engine, hlast, hjob, -, happly⟩ := h.next hgoing hqueue
  rw [happly] at hok
  obtain rfl := Except.ok.inj hok
  obtain ⟨hall, hnone⟩ := hd.going hgoing
  rw [hqueue] at hall
  have hstep : s.InStep cfg j ↔
      (Stops cfg (s.puts.length - 1) last ↔ Stops cfg s.yielded.length t) := by
    rw [InStep, hqueue, hlast]
    simp
  have htail : beforeStop cfg 0 s.puts =
      s.yielded ++ beforeStop cfg s.yielded.length (t :: queue) := by
    rw [← hall, beforeStop_append s.yielded hnone, Nat.zero_add]
  rw [hstep]
  by_cases hask : Stops cfg (s.puts.length - 1) last
  · rw [if_pos hask, iff_true_left hask]
    constructor
    · intro hd'
      -- a token that does not stop would be missing
      by_contra hnot
      have hyielded := (hd'.ended rfl).1
      dsimp only at hyielded
      rw [htail, beforeStop, if_neg hnot] at hyielded
      exact absurd (List.self_eq_append_right.mp hyielded) (List.cons_ne_nil _ _)
    · intro hstop
      refine ⟨by rintro ⟨⟩, fun _ => ?_⟩
      dsimp only
      rw [htail, beforeStop, if_pos hstop, List.append_nil]
      refine ⟨rfl, fun heq => ?_⟩
      rw [← hall] at heq
      exact absurd (List.self_eq_append_right.mp heq) (List.cons_ne_nil _ _)
  · rw [if_neg hask, iff_false_left hask]
    constructor
    · intro hd' hstop
      -- a token that stops would have been yielded
      obtain ⟨-, hnone'⟩ := hd'.going hgoing
      dsimp only at hnone'
      rw [beforeStop_append s.yielded hnone, Nat.zero_add, beforeStop, if_pos hstop,
        List.append_nil] at hnone'
      exact absurd (List.self_eq_append_right.mp hnone') (List.cons_ne_nil _ _)
    · intro hnot
      refine ⟨fun _ => ⟨?_, ?_⟩, fun hended => ?_⟩
      · rw [hjob]
        dsimp only
        rw [List.append_assoc]
        exact hall
      · dsimp only
        rw [beforeStop_append s.yielded hnone, Nat.zero_add, beforeStop, if_neg hnot]
        rfl
      · dsimp only at hended
        rw [hgoing] at hended
        cases hended

lemma delivers_invariant {engine : BuiltinEngine}
    (hstart : GenerationRun.Submitted cfg r j engine) :
    (system cfg j r engine).IsInvariantUnder (Guard cfg j)
      fun s => StreamInv cfg j r s ∧ s.Delivers cfg j := by
  refine (stream_invariant hstart (Guard cfg j)).and ?_ ?_
  · rintro s rfl
    exact ⟨fun _ => ⟨hstart.queue, rfl⟩, by rintro ⟨⟩⟩
  · rintro s a s' h hd hg ⟨hen, hok⟩
    cases a with
    | put tokenId =>
        simp only [apply] at hok
        split at hok
        · cases hok
        · rename_i engine hput
          obtain rfl := Except.ok.inj hok
          refine ⟨fun hgoing => ⟨(h.put hput).queued hgoing, (hd.going hgoing).2⟩, fun hended => ?_⟩
          obtain ⟨hyielded, hstops⟩ := hd.ended hended
          dsimp only
          rw [beforeStop_stopped _ hstops]
          refine ⟨hyielded, fun heq => ?_⟩
          have hle : (beforeStop cfg 0 s.puts).length ≤ s.puts.length := length_beforeStop_le _ _
          rw [heq, List.length_append, List.length_singleton] at hle
          omega
    | next => exact (h.delivers_next hd hen hok).mpr hg
    | rest engine =>
        obtain rfl := Except.ok.inj hok
        refine ⟨fun hgoing => ?_, hd.ended⟩
        dsimp only
        rw [hen.1]
        exact hd.going hgoing

/-- **Streams in step.**  In every run whose rounds are in step the stream is right; and there a
round keeps it right exactly when it is in step. -/
theorem stream_delivers {engine : BuiltinEngine} (hstart : GenerationRun.Submitted cfg r j engine)
    (hs : (system cfg j r engine).ReachableUnder (Guard cfg j) s) :
    s.Delivers cfg j ∧ ∀ s', (system cfg j r engine).step s .next s' →
      (s'.Delivers cfg j ↔ s.InStep cfg j) := by
  obtain ⟨h, hd⟩ := (delivers_invariant hstart).holds hs
  exact ⟨hd, fun s' hnext => h.delivers_next hd hnext.1 hnext.2⟩

/-- The prompted engine puts 5 and 6, where 6 stops; the consumer takes each at once. -/
theorem stream_delivers_prompted : ∃ s : TokenStream, (s.puts = [5, 6] ∧ s.yielded = [5] ∧
    s.ended = true) ∧ s.Delivers ⟨[6], 2⟩ 1 := by
  have hstart : GenerationRun.Submitted ⟨[6], 2⟩ 1 1 (GenerationRun.prompted [6]) :=
    GenerationRun.prompted_submitted (by decide +kernel)
  have hrun : RunsTo (Enabled 1 1) (Guard ⟨[6], 2⟩ 1) (apply ⟨[6], 2⟩ 1)
      (fun s => s.puts = [5, 6] ∧ s.yielded = [5] ∧ s.ended = true)
      { engine := GenerationRun.prompted [6], puts := [], yielded := [], ended := false }
      [.put 5, .next, .put 6, .next] := by
    decide +kernel
  obtain ⟨s, hs, hview⟩ := RunsTo.reachable _ (.init rfl) hrun
  exact ⟨s, hview, (stream_delivers hstart hs).1⟩

/-- A consumer that comes when both tokens were put takes the first and ends the stream. -/
theorem stream_loses_token : ∃ engine s,
    GenerationRun.Submitted ⟨[6], 2⟩ 1 1 engine ∧ (system ⟨[6], 2⟩ 1 1 engine).Reachable s ∧
      s.puts = [5, 6] ∧ s.yielded = [] ∧ s.ended = true ∧ ¬ s.Delivers ⟨[6], 2⟩ 1 := by
  have hstart : GenerationRun.Submitted ⟨[6], 2⟩ 1 1 (GenerationRun.prompted [6]) :=
    GenerationRun.prompted_submitted (by decide +kernel)
  have hrun : RunsTo (Enabled 1 1) (fun _ _ => True) (apply ⟨[6], 2⟩ 1)
      (fun s => s.puts = [5, 6] ∧ s.yielded = [] ∧ s.ended = true)
      { engine := GenerationRun.prompted [6], puts := [], yielded := [], ended := false }
      [.put 5, .put 6, .next] := by
    decide +kernel
  obtain ⟨s, hs, hputs, hyielded, hended⟩ := RunsTo.reachable _ (.init rfl) hrun
  refine ⟨_, s, hstart, hs, hputs, hyielded, hended, fun hd => ?_⟩
  have hall := (hd.ended hended).1
  rw [hyielded, hputs] at hall
  cases hall

end TokenStream
end ParrotServe
