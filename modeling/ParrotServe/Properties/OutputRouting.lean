import ParrotServe.Model.ModelRuns
import ParrotServe.Properties.JobIterations
import ParrotServe.Properties.KvView

/-!
# Which job gets which row

The model returns one hidden row per input token, and the input tokens of a job stand together, in
batch order: `ownRows` are the rows of a job.  `hidden_states_postprocess` finds the last row of a
Fill at `idx - 1`, where `idx` is the number of input tokens up to it, and the rows of the Generates
behind those of the Fills.

For a Fill without tokens `idx - 1` is a row of another job: the last one of the Fill before it,
or, with index `-1`, the last one of the batch.  That row goes into the Fill's context.  It is never
read as long as the context has no token, because then `get_last_hidden_state` asks the parent; on a
context with tokens it replaces the state of the last of them.  So the outputs are routed right, for
every model, exactly when a Fill without tokens is on a context without tokens (and there is a row
to select at all): `outputs_routed_iff`.
-/

namespace ParrotServe

/-! ## Selecting rows -/

section Rows

variable {α : Type} {rows : List α}

lemma rowAt_nat {k : ℕ} (h : k < rows.length) : rowAt rows k = .ok rows[k] := by
  rw [rowAt, if_neg (Int.not_lt.mpr (Int.natCast_nonneg k)),
    if_neg (Int.not_lt.mpr (Int.natCast_nonneg k)), Int.toNat_natCast, List.getElem?_eq_getElem h]

/-- The index `-1` is the last row. -/
lemma rowAt_neg_one (h : rows ≠ []) : ∃ row ∈ rows, rowAt rows (-1) = .ok row := by
  have hpos : 0 < rows.length := List.length_pos_iff.mpr h
  have hlast : rows.length - 1 < rows.length := by omega
  have hidx : (-1 + (rows.length : ℤ)) = ((rows.length - 1 : ℕ) : ℤ) := by omega
  refine ⟨rows[rows.length - 1], List.getElem_mem hlast, ?_⟩
  rw [rowAt, if_pos (show (-1 : ℤ) < 0 by decide), hidx,
    if_neg (Int.not_lt.mpr (Int.natCast_nonneg _)), Int.toNat_natCast,
    List.getElem?_eq_getElem hlast]

lemma rowAt_nil (i : ℤ) : rowAt ([] : List α) i = .error .indexError := by
  have hnone : ∀ k : ℕ, ([] : List α)[k]? = none := fun _ => List.getElem?_nil
  simp only [rowAt, hnone, ite_self]

lemma rowsAt_spec (is : List ℤ) : ∀ {out : List α}, rowsAt rows is = .ok out →
    out.length = is.length ∧
      ∀ (k : ℕ) (i : ℤ), is[k]? = some i → ∃ row, out[k]? = some row ∧ rowAt rows i = .ok row := by
  induction is with
  | nil =>
      intro out h
      obtain rfl := Except.ok.inj h
      exact ⟨rfl, fun k i hi => by simp at hi⟩
  | cons i is ih =>
      intro out h
      rw [rowsAt] at h
      split at h
      · cases h
      · rename_i row hrow
        split at h
        · cases h
        · rename_i rest hrest
          obtain rfl := Except.ok.inj h
          obtain ⟨hlen, hget⟩ := ih hrest
          refine ⟨by rw [List.length_cons, List.length_cons, hlen], fun k x hx => ?_⟩
          cases k with
          | zero =>
              rw [List.getElem?_cons_zero] at hx ⊢
              obtain rfl := Option.some.inj hx
              exact ⟨row, rfl, hrow⟩
          | succ k =>
              rw [List.getElem?_cons_succ] at hx ⊢
              exact hget k x hx

lemma rowAt_mem {i : ℤ} {row : α} (h : rowAt rows i = .ok row) : row ∈ rows := by
  rw [rowAt] at h
  generalize (if i < 0 then i + (rows.length : ℤ) else i) = k at h
  split at h
  · cases h
  · split at h
    · cases h
    · rename_i hget
      obtain rfl := Except.ok.inj h
      exact List.mem_of_getElem? hget

lemma rowsAt_ok (is : List ℤ) (h : ∀ i ∈ is, ∃ row, rowAt rows i = .ok row) :
    ∃ out, rowsAt rows is = .ok out := by
  induction is with
  | nil => exact ⟨[], rfl⟩
  | cons i is ih =>
      obtain ⟨row, hrow⟩ := h i List.mem_cons_self
      obtain ⟨rest, hrest⟩ := ih fun x hx => h x (List.mem_cons_of_mem _ hx)
      refine ⟨row :: rest, ?_⟩
      rw [rowsAt, hrow]
      dsimp only
      rw [hrest]

lemma fillIndices_length (ns : List ℕ) : ∀ idx, (fillIndices idx ns).length = ns.length := by
  induction ns with
  | nil => exact fun _ => rfl
  | cons n ns ih => exact fun idx => congrArg (· + 1) (ih (idx + n))

/-- The index of a Fill: the number of tokens up to it, less one. -/
lemma fillIndices_split (before : List ℕ) (n : ℕ) (behind : List ℕ) : ∀ idx,
    (fillIndices idx (before ++ n :: behind))[before.length]? =
      some (((idx + before.sum + n : ℕ) : ℤ) - 1) := by
  induction before with
  | nil => exact fun idx => rfl
  | cons m before ih =>
      intro idx
      rw [List.cons_append, fillIndices, List.length_cons, List.getElem?_cons_succ, ih,
        List.sum_cons, Nat.add_assoc idx m]

/-- The indices are those of rows, from `-1` on. -/
lemma mem_fillIndices {ns : List ℕ} {i : ℤ} : ∀ {idx}, i ∈ fillIndices idx ns →
    ∃ k : ℕ, k ≤ idx + ns.sum ∧ i = (k : ℤ) - 1 := by
  induction ns with
  | nil =>
      intro idx h
      cases h
  | cons n ns ih =>
      intro idx h
      rw [List.sum_cons]
      rcases List.mem_cons.mp h with rfl | h
      · exact ⟨idx + n, by omega, rfl⟩
      · obtain ⟨k, hk, hi⟩ := ih h
        exact ⟨k, by omega, hi⟩

/-- Every index of a Fill is that of a row, unless there is no row. -/
lemma rowAt_index (h : rows ≠ []) {k : ℕ} (hk : k ≤ rows.length) :
    ∃ row ∈ rows, rowAt rows ((k : ℤ) - 1) = .ok row := by
  cases k with
  | zero => exact rowAt_neg_one h
  | succ k =>
      have hcast : ((k + 1 : ℕ) : ℤ) - 1 = (k : ℤ) := by omega
      exact ⟨rows[k], List.getElem_mem hk, by rw [hcast, rowAt_nat hk]⟩

/-- The last row of a job that has some. -/
lemma rowAt_last {k n : ℕ} (hn : n ≠ 0) (h : k + n ≤ rows.length) :
    ∃ row, rowAt rows (((k + n : ℕ) : ℤ) - 1) = .ok row ∧
      ((rows.drop k).take n).getLast? = some row := by
  have hlt : k + n - 1 < rows.length := by omega
  have hcast : ((k + n : ℕ) : ℤ) - 1 = ((k + n - 1 : ℕ) : ℤ) := by omega
  refine ⟨rows[k + n - 1], by rw [hcast, rowAt_nat hlt], ?_⟩
  have hlen : ((rows.drop k).take n).length = n := by
    rw [List.length_take, List.length_drop]
    omega
  rw [List.getLast?_eq_getElem?, hlen, List.getElem?_take_of_lt (by omega), List.getElem?_drop,
    List.getElem?_eq_getElem (by omega)]
  congr 2
  omega

/-- The row selected for a Fill with tokens is its last one. -/
lemma fill_row {rows fill : List ℕ} {before behind : List ℕ} {n : ℕ}
    (h : rowsAt rows (fillIndices 0 (before ++ n :: behind)) = .ok fill) (hn : n ≠ 0)
    (hlength : before.sum + n ≤ rows.length) :
    ((rows.drop before.sum).take n).getLast? = some (fill.getD before.length 0) := by
  obtain ⟨-, hget⟩ := rowsAt_spec _ h
  have hindex := fillIndices_split before n behind 0
  rw [Nat.zero_add] at hindex
  obtain ⟨row, hrow, hat⟩ := hget _ _ hindex
  obtain ⟨row', hat', hlast⟩ := rowAt_last hn hlength
  rw [hat] at hat'
  obtain rfl := Except.ok.inj hat'
  rw [hlast, List.getD_eq_getElem?_getD, hrow, Option.getD_some]

/-- The token sampled for a Generate is that of its row. -/
lemma next_token {k i : ℕ} (f : ℕ → α → ℕ) (h : k + i < rows.length) :
    ∃ row, (rows.drop (k + i)).take 1 = [row] ∧ ((rows.drop k).mapIdx f).getD i 0 = f i row := by
  refine ⟨rows[k + i], ?_, ?_⟩
  · rw [List.drop_eq_getElem_cons h, List.take_succ_cons, List.take_zero]
  · rw [List.getD_eq_getElem?_getD, List.getElem?_mapIdx, List.getElem?_drop,
      List.getElem?_eq_getElem h, Option.map_some, Option.getD_some]

end Rows

/-- Of a list that is cut behind its members without `p`, one of these is in the first part. -/
lemma split_left {α : Type} {p : α → Bool} {f g pre post : List α} {x : α}
    (h : f ++ g = pre ++ x :: post) (hg : ∀ y ∈ g, p y = true) (hx : p x = false) :
    ∃ post', f = pre ++ x :: post' := by
  have hnot : x ∉ g := fun hmem => by
    rw [hg x hmem] at hx
    cases hx
  rcases List.append_eq_append_iff.mp h with ⟨as, hpre, hgeq⟩ | ⟨as, hf, hrest⟩
  · rw [hgeq] at hnot
    exact absurd (List.mem_append_right _ List.mem_cons_self) hnot
  · rcases List.cons_eq_append_iff.mp hrest with ⟨-, hgeq⟩ | ⟨as', rfl, -⟩
    · rw [hgeq] at hnot
      exact absurd List.mem_cons_self hnot
    · exact ⟨as', hf⟩

/-- One with `p` is in the second part. -/
lemma split_right {α : Type} {p : α → Bool} {f g pre post : List α} {x : α}
    (h : f ++ g = pre ++ x :: post) (hf : ∀ y ∈ f, p y = false) (hx : p x = true) :
    ∃ pre', pre = f ++ pre' ∧ g = pre' ++ x :: post := by
  have hnot : x ∉ f := fun hmem => by
    rw [hf x hmem] at hx
    cases hx
  rcases List.append_eq_append_iff.mp h with ⟨as, hpre, hg⟩ | ⟨as, hfeq, hrest⟩
  · exact ⟨as, hpre, hg⟩
  · rcases List.cons_eq_append_iff.mp hrest with ⟨rfl, hg⟩ | ⟨as', rfl, -⟩
    · exact ⟨[], by rw [hfeq, List.append_nil, List.append_nil], hg⟩
    · rw [hfeq] at hnot
      exact absurd (List.mem_append_right _ List.mem_cons_self) hnot

/-! ## The outputs of the model -/

namespace CausalLM

variable {model : CausalLM} {ids positions ns : List ℕ} {g : ℕ}
  {fill : List HiddenState} {next : List ℕ}

/-- What the model returns for the Fills and the Generates of a batch: the rows at the indices of
the Fills, and the tokens sampled from the rows behind them. -/
lemma forward_spec (h : model.forward ids positions ns g = .ok (fill, next)) :
    rowsAt (model.hiddenStates ids positions) (fillIndices 0 ns) = .ok fill ∧
      next = ((model.hiddenStates ids positions).drop ns.sum).mapIdx model.sample := by
  rw [forward, hiddenStatesPostprocess] at h
  split at h
  · cases h
  · rename_i fill' gen hpost
    split at hpost
    · cases hpost
    · rename_i fill'' hfill
      obtain ⟨rfl, rfl⟩ := Prod.mk.inj (Except.ok.inj hpost)
      split at h
      · cases h
      · rename_i next' hnext
        obtain ⟨rfl, rfl⟩ := Prod.mk.inj (Except.ok.inj h)
        refine ⟨hfill, ?_⟩
        rw [sampler] at hnext
        split_ifs at hnext with hnil hlen
        · obtain rfl := Except.ok.inj hnext
          rw [hnil, List.mapIdx_nil]
        · obtain rfl := Except.ok.inj hnext
          rfl

/-- The model returns something as long as there is a row for the Fills. -/
lemma forward_ok (model : CausalLM) (positions ns : List ℕ) (hlength : ids.length = ns.sum + g)
    (hrows : ns ≠ [] → ids ≠ []) :
    ∃ fill next, model.forward ids positions ns g = .ok (fill, next) := by
  have hrowslen := model.length_eq ids positions
  obtain ⟨fill, hfill⟩ : ∃ fill,
      rowsAt (model.hiddenStates ids positions) (fillIndices 0 ns) = .ok fill := by
    refine rowsAt_ok _ fun i hi => ?_
    obtain ⟨k, hk, rfl⟩ := mem_fillIndices hi
    have hns : ns ≠ [] := by
      rintro rfl
      cases hi
    have hne : model.hiddenStates ids positions ≠ [] := by
      intro hnil
      rw [hnil] at hrowslen
      exact hrows hns (List.length_eq_zero_iff.mp hrowslen.symm)
    obtain ⟨row, -, hrow⟩ := rowAt_index hne (k := k) (by omega)
    exact ⟨row, hrow⟩
  refine ⟨fill, ((model.hiddenStates ids positions).drop ns.sum).mapIdx model.sample, ?_⟩
  have hdrop : ((model.hiddenStates ids positions).drop ns.sum).length = g := by
    rw [List.length_drop]
    omega
  rw [forward, hiddenStatesPostprocess, hfill]
  dsimp only
  rw [sampler]
  by_cases hnil : (model.hiddenStates ids positions).drop ns.sum = []
  · rw [if_pos hnil, hnil, List.mapIdx_nil]
  · rw [if_neg hnil, if_neg fun hne => hne hdrop]

/-- Without a row there is none for a Fill. -/
lemma forward_no_rows {n : ℕ} (hns : n ∈ ns) (hids : ids = []) :
    model.forward ids positions ns g = .error .indexError := by
  have hnil : model.hiddenStates ids positions = [] := by
    rw [← List.length_eq_zero_iff, model.length_eq, hids]
    rfl
  cases ns with
  | nil => cases hns
  | cons m ns =>
      rw [forward, hiddenStatesPostprocess, hnil, fillIndices, rowsAt, rowAt_nil]

end CausalLM

/-! ## What the jobs of a batch get -/

namespace BuiltinEngine

variable {s s' : BuiltinEngine} {jobs : List JobRef}

/-- The input tokens of a list of jobs. -/
def tokenCount (s : BuiltinEngine) (jobs : List JobRef) : ℕ :=
  (jobs.map fun j => (s.job j).numTokens).sum

/-- The rows of the input tokens of a job, behind those of the jobs `pre`. -/
def ownRows (s : BuiltinEngine) (rows : List HiddenState) (pre : List JobRef) (j : JobRef) :
    List HiddenState :=
  (rows.drop (s.tokenCount pre)).take (s.job j).numTokens

/-- What a job has got in `s'`, where `s` is the engine when the model runs: a Fill the row of its
last input token, or, without one, the hidden state its context already stood for; a Generate the
token sampled from its row, as the one behind those of the Generates in `pre`. -/
def RoutedTo (s : BuiltinEngine) (model : CausalLM) (rows : List HiddenState)
    (pre : List JobRef) (j : JobRef) (s' : BuiltinEngine) : Prop :=
  let r := s.jobContext j
  match (s.job j).kind with
  | .fill _ =>
      if (s.job j).numTokens = 0 then
        s'.mem.getLastHiddenState r = (s'.mem.set r { s'.mem.obj r with
          lastHiddenState := (s.mem.obj r).lastHiddenState }).getLastHiddenState r
      else (s'.mem.obj r).lastHiddenState = (s.ownRows rows pre j).getLast?
  | .generate _ =>
      ∃ row, s.ownRows rows pre j = [row] ∧
        let token := model.sample (pre.filter fun x => (s.job x).isGenerate).length row
        (s'.job j).outputQueue = (s.job j).outputQueue ++ [token] ∧
          (s'.mem.obj r).tokenIds = (s.mem.obj r).tokenIds ++ [token]

/-- Every job of a batch has got what is its own. -/
def Routed (s : BuiltinEngine) (model : CausalLM) (jobs : List JobRef) (ids : List ℕ)
    (s' : BuiltinEngine) : Prop :=
  ∀ pre j post, jobs = pre ++ j :: post →
    s.RoutedTo model (model.hiddenStates ids (s.inputPositions jobs)) pre j s'

/-! ## Up to the model -/

/-- The steps of `run_iter` before the model raise nothing: it runs on `s'`, with these input
tokens. -/
def RunsModel (s : BuiltinEngine) (firstSamplingTokens : ℕ → ℕ) (batch : List JobRef)
    (s' : BuiltinEngine) (ids : List ℕ) : Prop :=
  ∃ first s₁, s.prepareJobs (s.fillsFirst batch) = .ok (first, s₁) ∧
    s₁.firstSampling firstSamplingTokens 0 first = .ok s' ∧
    s'.inputIds (s.fillsFirst batch) = .ok ids

/-- The jobs of a batch that are Fills, and those that are Generates. -/
def fills (s : BuiltinEngine) (batch : List JobRef) : List JobRef :=
  batch.filter fun j => !(s.job j).isGenerate

def generates (s : BuiltinEngine) (batch : List JobRef) : List JobRef :=
  batch.filter fun j => (s.job j).isGenerate

lemma fillsFirst_eq (s : BuiltinEngine) (batch : List JobRef) :
    s.fillsFirst batch = s.fills batch ++ s.generates batch := rfl

lemma mem_fills {batch : List JobRef} {j : JobRef} :
    j ∈ s.fills batch ↔ j ∈ batch ∧ (s.job j).isGenerate = false := by
  rw [fills, List.mem_filter, Bool.not_eq_true']

lemma mem_generates {batch : List JobRef} {j : JobRef} :
    j ∈ s.generates batch ↔ j ∈ batch ∧ (s.job j).isGenerate = true := List.mem_filter

/-- Sorting the jobs of a sorted batch once more changes nothing. -/
lemma fills_fillsFirst (s : BuiltinEngine) (batch : List JobRef) :
    s.fills (s.fillsFirst batch) = s.fills batch := by
  rw [fills, fillsFirst_eq, List.filter_append, List.filter_eq_self.mpr, List.filter_eq_nil_iff.mpr,
    List.append_nil]
  · intro j hj
    rw [(mem_generates.mp hj).2]
    exact Bool.false_ne_true
  · intro j hj
    rw [(mem_fills.mp hj).2]
    rfl

lemma generates_fillsFirst (s : BuiltinEngine) (batch : List JobRef) :
    s.generates (s.fillsFirst batch) = s.generates batch := by
  rw [generates, fillsFirst_eq, List.filter_append, List.filter_eq_nil_iff.mpr,
    List.filter_eq_self.mpr, List.nil_append]
  · exact fun j hj => (mem_generates.mp hj).2
  · intro j hj
    rw [(mem_fills.mp hj).2]
    exact Bool.false_ne_true

lemma length_inputTokens {j : JobRef} {tokens : List ℕ} (h : s.inputTokens j = .ok tokens) :
    tokens.length = (s.job j).numTokens := by
  rw [inputTokens] at h
  rw [PrimitiveJob.numTokens]
  split at h
  · cases h
  · rename_i hkind
    obtain rfl := Except.ok.inj h
    rw [hkind]
  · rename_i hkind
    rw [hkind]
    split at h
    · cases h
    · split at h
      · cases h
      · obtain rfl := Except.ok.inj h
        rfl

/-- One input token per row. -/
lemma length_inputIds (js : List JobRef) {ids : List ℕ} (h : s.inputIds js = .ok ids) :
    ids.length = s.tokenCount js := by
  obtain ⟨rfl, hjobs⟩ := inputIds_ok js h
  rw [List.length_flatMap]
  exact congrArg List.sum (List.map_congr_left fun j hj => length_inputTokens (hjobs j hj))

lemma tokenCount_append (s : BuiltinEngine) (xs ys : List JobRef) :
    s.tokenCount (xs ++ ys) = s.tokenCount xs + s.tokenCount ys := by
  rw [tokenCount, List.map_append, List.sum_append]
  rfl

/-- A Generate has one input token. -/
lemma tokenCount_generates {js : List JobRef} (h : ∀ j ∈ js, (s.job j).isGenerate = true) :
    s.tokenCount js = js.length := by
  rw [tokenCount, List.map_congr_left fun j hj => numTokens_generate (h j hj), List.map_const',
    List.sum_replicate_nat, mul_one]

/-! ## Behind the model -/

/-- What the model has returned, as the last loop reads it. -/
def outputOf (firstSamplingTokens : ℕ → ℕ) (fill : List HiddenState) (next : List ℕ) :
    ModelOutput :=
  ⟨firstSamplingTokens, fun i => fill.getD i 0, fun i => next.getD i 0⟩

section Outputs

variable {s₂ : BuiltinEngine} {ft : ℕ → ℕ} {batch pre post : List JobRef} {ids : List ℕ}
  {model : CausalLM} {j : JobRef} {r : CtxRef} {fill : List HiddenState} {next : List ℕ}

/-- The records of the jobs keep their contexts and kinds on the way to the model. -/
lemma RunsModel.records (hin : s.RunsModel ft batch s₂ ids)
    (hbound : ∀ j ∈ batch, (s.job j).context ≠ none) (j : JobRef) :
    (s₂.job j).context = (s.job j).context ∧ (s₂.job j).kind = (s.job j).kind := by
  obtain ⟨first, s₁, hprep, hfirst, -⟩ := hin
  have hjob := prepareJobs_job _ (fun x hx => hbound x (mem_fillsFirst.mp hx)) hprep
  have hquiet := (firstSampling_quiet hfirst).job j
  rw [hjob] at hquiet
  exact hquiet.2

lemma RunsModel.isGenerate (hin : s.RunsModel ft batch s₂ ids)
    (hbound : ∀ j ∈ batch, (s.job j).context ≠ none) (j : JobRef) :
    (s₂.job j).isGenerate = (s.job j).isGenerate := by
  rw [PrimitiveJob.isGenerate, (hin.records hbound j).2, PrimitiveJob.isGenerate]

lemma RunsModel.numTokens (hin : s.RunsModel ft batch s₂ ids)
    (hbound : ∀ j ∈ batch, (s.job j).context ≠ none) (j : JobRef) :
    (s₂.job j).numTokens = (s.job j).numTokens := by
  rw [PrimitiveJob.numTokens, (hin.records hbound j).2, PrimitiveJob.numTokens]

lemma RunsModel.fillsFirst (hin : s.RunsModel ft batch s₂ ids)
    (hbound : ∀ j ∈ batch, (s.job j).context ≠ none) :
    s.fillsFirst batch = s₂.fillsFirst batch := by
  rw [BuiltinEngine.fillsFirst, BuiltinEngine.fillsFirst]
  simp only [hin.isGenerate hbound]

lemma RunsModel.inputs (hin : s.RunsModel ft batch s₂ ids)
    (hbound : ∀ j ∈ batch, (s.job j).context ≠ none) :
    s₂.inputIds (s₂.fillsFirst batch) = .ok ids := by
  rw [← hin.fillsFirst hbound]
  obtain ⟨first, s₁, -, -, hids⟩ := hin
  exact hids

/-- `run_iter` from the model on. -/
lemma RunsModel.run_iff (hin : s.RunsModel ft batch s₂ ids)
    (hbound : ∀ j ∈ batch, (s.job j).context ≠ none) :
    s.runIterModel model ft batch = .ok s' ↔ ∃ fill next,
      model.forward ids (s₂.inputPositions (s₂.fillsFirst batch))
        ((s₂.fills batch).map fun j => (s₂.job j).numTokens) (s₂.generates batch).length =
          .ok (fill, next) ∧
      fill.length + next.length = (s₂.fillsFirst batch).length ∧
      s₂.updateJobs (outputOf ft fill next) (s₂.fills batch).length 0 (s₂.fillsFirst batch) =
        .ok s' := by
  have hjobs := hin.fillsFirst hbound
  obtain ⟨first, s₁, hprep, hfirst, hids⟩ := hin
  have hfills : ((s₂.fillsFirst batch).filter fun j => !(s₂.job j).isGenerate) = s₂.fills batch :=
    s₂.fills_fillsFirst batch
  have hgens : ((s₂.fillsFirst batch).filter fun j => (s₂.job j).isGenerate) =
      s₂.generates batch := s₂.generates_fillsFirst batch
  rw [runIterModel]
  dsimp only
  rw [hprep]
  dsimp only
  rw [hfirst]
  dsimp only
  rw [hids]
  dsimp only
  rw [hjobs, hfills, hgens, List.length_map]
  constructor
  · intro h
    split at h
    · cases h
    · rename_i fill next hforward
      split_ifs at h with hlength
      exact ⟨fill, next, hforward, not_not.mp hlength, h⟩
  · rintro ⟨fill, next, hforward, hlength, hupdate⟩
    rw [hforward]
    dsimp only
    rw [if_neg (not_not.mpr hlength)]
    exact hupdate

/-- The last loop, at a Fill. -/
lemma updateJobs_fill {o : ModelOutput} {n : ℕ} (halone : s.Alone r pre j post)
    (hfill : (s.job j).isGenerate = false)
    (hok : s.updateJobs o n 0 (pre ++ j :: post) = .ok s') :
    s'.mem.obj r =
      { s.mem.obj r with lastHiddenState := some (o.fillHiddenStates pre.length) } := by
  obtain ⟨a, b, hround, hjob, hobj, -, hobj'⟩ := updateJobs_alone halone hok
  rw [Nat.zero_add] at hround
  have hctx : (a.job j).context = some r := by
    rw [hjob]
    exact halone.context
  have hfill' : (a.job j).isGenerate = false := by
    rw [hjob]
    exact hfill
  rw [hobj', (updateJob_fill hctx hfill' hround).1, hobj]

/-- The last loop, at a Generate. -/
lemma updateJobs_generate {o : ModelOutput} {n : ℕ} (halone : s.Alone r pre j post)
    (hgen : (s.job j).isGenerate = true)
    (hok : s.updateJobs o n 0 (pre ++ j :: post) = .ok s') :
    (s'.job j).outputQueue = (s.job j).outputQueue ++ [o.nextTokens (pre.length - n)] ∧
      (s'.mem.obj r).tokenIds = (s.mem.obj r).tokenIds ++ [o.nextTokens (pre.length - n)] := by
  obtain ⟨a, b, hround, hjob, hobj, hjob', hobj'⟩ := updateJobs_alone halone hok
  rw [Nat.zero_add] at hround
  have hctx : (a.job j).context = some r := by
    rw [hjob]
    exact halone.context
  obtain ⟨cfg, hkind⟩ : ∃ cfg, (a.job j).kind = .generate cfg := by
    rw [hjob]
    exact kind_of_generate hgen
  obtain ⟨hmem, hrecord⟩ := updateJob_generate hctx hkind hround
  rw [hjob', hobj', hmem, hrecord, hjob, hobj]
  exact ⟨rfl, rfl⟩

/-- Only a Fill can be without tokens. -/
lemma kind_of_no_tokens {record : PrimitiveJob} (h : record.numTokens = 0) :
    record.kind = .fill (some []) := by
  rw [PrimitiveJob.numTokens] at h
  cases hkind : record.kind with
  | fill tokenIds =>
      rw [hkind] at h
      cases tokenIds with
      | none => cases h
      | some tokenIds => rw [List.length_eq_zero_iff.mp h]
  | generate cfg =>
      rw [hkind] at h
      cases h

/-- A Fill without tokens finds its context as it was, up to its tables. -/
lemma RunsModel.context_kept (hin : s.RunsModel ft batch s₂ ids) (halone : s.Alone r pre j post)
    (hsplit : s.fillsFirst batch = pre ++ j :: post) (hzero : (s.job j).numTokens = 0) :
    (s₂.mem.obj r).tokenIds = (s.mem.obj r).tokenIds ∧
      (s₂.mem.obj r).lastHiddenState = (s.mem.obj r).lastHiddenState := by
  obtain ⟨first, s₁, hprep, hfirst, -⟩ := hin
  rw [hsplit] at hprep
  obtain ⟨sample, a, b, first₁, first₂, hround, hajob, haobj, hjob₁, hobj₁, rfl, hnot, hsub⟩ :=
    prepareJobs_alone halone hprep
  have hkind := kind_of_no_tokens hzero
  have hgen : (a.job j).isGenerate = false := by
    rw [hajob, PrimitiveJob.isGenerate, hkind]
  obtain rfl := hround.fill hgen
  rw [if_neg Bool.false_ne_true, List.nil_append] at hfirst
  have helse : s₁.Elsewhere r (first₁ ++ first₂) := by
    intro x hx
    rw [hjob₁]
    exact halone.elsewhere x (hsub x hx)
  obtain ⟨-, hobj₂⟩ := firstSampling_elsewhere hnot helse hfirst
  have hfilled : filledTokens (a.job j) = [] := by
    rw [hajob, filledTokens, hkind]
  rw [hobj₂, hobj₁, hround.tokens, hround.hidden, if_neg Bool.false_ne_true, hfilled,
    List.append_nil, haobj]
  exact ⟨rfl, rfl⟩

/-- The state of a context without tokens is not read. -/
lemma getLastHiddenState_unread {m : KvMemory} {r : CtxRef} (h : (m.obj r).tokenIds = [])
    (state : Option HiddenState) :
    (m.set r { m.obj r with lastHiddenState := state }).getLastHiddenState r =
      m.getLastHiddenState r := by
  have hparent : ((m.set r { m.obj r with lastHiddenState := state }).obj r).parentContext =
      (m.obj r).parentContext := by rw [KvMemory.set_obj_self]
  have htokens : ((m.set r { m.obj r with lastHiddenState := state }).obj r).tokenIds = [] := by
    rw [KvMemory.set_obj_self]
    exact h
  have hother := fun q (hq : q ≠ r) =>
    m.set_obj_of_ne hq { m.obj r with lastHiddenState := state }
  generalize m.set r { m.obj r with lastHiddenState := state } = m' at hparent htokens hother ⊢
  have haux : ∀ fuel q, m'.getLastHiddenStateAux fuel q = m.getLastHiddenStateAux fuel q := by
    intro fuel
    induction fuel with
    | zero => exact fun _ => rfl
    | succ fuel ih =>
        intro q
        rw [KvMemory.getLastHiddenStateAux, KvMemory.getLastHiddenStateAux]
        by_cases hq : q = r
        · rw [hq, if_pos h, if_pos htokens, hparent]
          cases (m.obj r).parentContext with
          | none => rfl
          | some p => exact ih p
        · rw [hother q hq]
          split_ifs
          · cases (m.obj q).parentContext with
            | none => rfl
            | some p => exact ih p
          · rfl
  exact haux _ _

/-! ## The rows of a job -/

lemma RunsModel.length_ids (hin : s.RunsModel ft batch s₂ ids)
    (hbound : ∀ j ∈ batch, (s.job j).context ≠ none) :
    ids.length = s₂.tokenCount (s₂.fills batch) + (s₂.generates batch).length := by
  rw [length_inputIds _ (hin.inputs hbound), fillsFirst_eq, tokenCount_append,
    tokenCount_generates fun j hj => (mem_generates.mp hj).2]

lemma split_fills (hsplit : s.fillsFirst batch = pre ++ j :: post)
    (hfill : (s.job j).isGenerate = false) : ∃ post', s.fills batch = pre ++ j :: post' :=
  split_left hsplit (fun _ hx => (mem_generates.mp hx).2) hfill

lemma split_generates (hsplit : s.fillsFirst batch = pre ++ j :: post)
    (hgen : (s.job j).isGenerate = true) :
    ∃ pre', pre = s.fills batch ++ pre' ∧ s.generates batch = pre' ++ j :: post :=
  split_right hsplit (fun _ hx => (mem_fills.mp hx).2) hgen

/-- A Fill with tokens gets the last of its rows. -/
lemma fill_gets_row {positions : List ℕ}
    (hlength : ids.length = s.tokenCount (s.fills batch) + (s.generates batch).length)
    (hforward : model.forward ids positions ((s.fills batch).map fun j => (s.job j).numTokens)
      (s.generates batch).length = .ok (fill, next))
    (hsplit : s.fillsFirst batch = pre ++ j :: post) (hfill : (s.job j).isGenerate = false)
    (htokens : (s.job j).numTokens ≠ 0) :
    (s.ownRows (model.hiddenStates ids positions) pre j).getLast? =
      some (fill.getD pre.length 0) := by
  obtain ⟨post', hfills⟩ := split_fills hsplit hfill
  have hrows := (CausalLM.forward_spec hforward).1
  rw [hfills, List.map_append, List.map_cons] at hrows
  have hcount : s.tokenCount (s.fills batch) =
      s.tokenCount pre + ((s.job j).numTokens + s.tokenCount post') := by
    rw [hfills, tokenCount_append]
    rfl
  have hlast := fill_row hrows htokens (by
    rw [model.length_eq, hlength, hcount]
    show s.tokenCount pre + _ ≤ _
    omega)
  rw [List.length_map] at hlast
  exact hlast

/-- A Generate gets the token sampled from its row. -/
lemma generate_gets_token {positions : List ℕ}
    (hlength : ids.length = s.tokenCount (s.fills batch) + (s.generates batch).length)
    (hforward : model.forward ids positions ((s.fills batch).map fun j => (s.job j).numTokens)
      (s.generates batch).length = .ok (fill, next))
    (hsplit : s.fillsFirst batch = pre ++ j :: post) (hgen : (s.job j).isGenerate = true) :
    ∃ row, s.ownRows (model.hiddenStates ids positions) pre j = [row] ∧
      next.getD (pre.length - (s.fills batch).length) 0 =
        model.sample (pre.filter fun x => (s.job x).isGenerate).length row := by
  obtain ⟨pre', hpre, hgens⟩ := split_generates hsplit hgen
  have hpregen : ∀ x ∈ pre', (s.job x).isGenerate = true := fun x hx =>
    (mem_generates.mp (hgens ▸ List.mem_append_left _ hx)).2
  have hcount : s.tokenCount pre = s.tokenCount (s.fills batch) + pre'.length := by
    rw [hpre, tokenCount_append, tokenCount_generates hpregen]
  have hindex : pre.length - (s.fills batch).length = pre'.length := by
    rw [hpre, List.length_append]
    omega
  have hplace : (pre.filter fun x => (s.job x).isGenerate).length = pre'.length := by
    rw [hpre, List.filter_append, List.filter_eq_self.mpr hpregen, List.filter_eq_nil_iff.mpr,
      List.nil_append]
    intro x hx
    rw [(mem_fills.mp hx).2]
    exact Bool.false_ne_true
  have hlt : s.tokenCount (s.fills batch) + pre'.length <
      (model.hiddenStates ids positions).length := by
    rw [model.length_eq, hlength, hgens, List.length_append, List.length_cons]
    omega
  obtain ⟨row, hrow, htoken⟩ := next_token model.sample hlt
  refine ⟨row, ?_, ?_⟩
  · rw [ownRows, hcount, numTokens_generate hgen]
    exact hrow
  · rw [(CausalLM.forward_spec hforward).2, hindex, hplace]
    exact htoken

/-! ## Routing -/

/-- The contexts of a batch, in batch order when the model runs. -/
lemma RunsModel.alone (hin : s.RunsModel ft batch s₂ ids)
    (hbound : ∀ j ∈ batch, (s.job j).context ≠ none)
    (hdistinct : (batch.map fun j => (s.job j).context).Nodup)
    (hsplit : s₂.fillsFirst batch = pre ++ j :: post) :
    ∃ r, (s.job j).context = some r ∧ s.Alone r pre j post ∧ s₂.Alone r pre j post := by
  have hjobs := hin.fillsFirst hbound
  rw [← hjobs] at hsplit
  have hmem : ∀ x ∈ pre ++ j :: post, x ∈ batch := by
    intro x hx
    rw [← hsplit] at hx
    exact mem_fillsFirst.mp hx
  have hnodup := ((s.fillsFirst_perm batch).map fun x => (s.job x).context).nodup_iff.mpr hdistinct
  rw [hsplit] at hnodup
  obtain ⟨r, hctx⟩ := Option.ne_none_iff_exists'.mp
    (hbound j (hmem j (List.mem_append_right _ List.mem_cons_self)))
  have halone := alone_of_nodup hctx (fun x hx => hbound x (hmem x hx)) hnodup
  exact ⟨r, hctx, halone, halone.congr fun x => (hin.records hbound x).1⟩

/-- The outputs of a batch are routed as long as no Fill without tokens is on a context with some,
and there is a row for the Fills. -/
lemma RunsModel.routed (hin : s.RunsModel ft batch s₂ ids)
    (hbound : ∀ j ∈ batch, (s.job j).context ≠ none)
    (hdistinct : (batch.map fun j => (s.job j).context).Nodup)
    (hempty : ∀ j ∈ batch, (s.job j).numTokens = 0 → (s.mem.obj (s.jobContext j)).tokenIds = [])
    (hrow : (∃ j ∈ batch, (s.job j).isGenerate = false) → ∃ j ∈ batch, (s.job j).numTokens ≠ 0) :
    ∃ s', s.runIterModel model ft batch = .ok s' ∧
      s₂.Routed model (s₂.fillsFirst batch) ids s' := by
  have hlength := hin.length_ids hbound
  have hsum : ((s₂.fills batch).map fun j => (s₂.job j).numTokens).sum =
      s₂.tokenCount (s₂.fills batch) := rfl
  obtain ⟨fill, next, hforward⟩ := model.forward_ok
    (s₂.inputPositions (s₂.fillsFirst batch))
    ((s₂.fills batch).map fun j => (s₂.job j).numTokens) hlength (by
      intro hne hids
      obtain ⟨x, hx⟩ := List.exists_mem_of_ne_nil _ fun hnil => hne (congrArg (List.map _) hnil)
      obtain ⟨hx, hfill⟩ := mem_fills.mp hx
      rw [hin.isGenerate hbound] at hfill
      obtain ⟨y, hy, hpos⟩ := hrow ⟨x, hx, hfill⟩
      rw [← hin.numTokens hbound] at hpos
      have hcount : s₂.tokenCount (s₂.fillsFirst batch) = 0 := by
        rw [fillsFirst_eq, tokenCount_append,
          tokenCount_generates fun j hj => (mem_generates.mp hj).2, ← hlength, hids]
        rfl
      exact hpos (List.sum_eq_zero_iff_forall_eq_nat.mp hcount _
        (List.mem_map.mpr ⟨y, mem_fillsFirst.mpr hy, rfl⟩)))
  have hbound₂ : ∀ j ∈ s₂.fillsFirst batch, (s₂.job j).context ≠ none := by
    intro j hj
    rw [(hin.records hbound j).1]
    exact hbound j (mem_fillsFirst.mp hj)
  obtain ⟨s', hupdate⟩ := updateJobs_ok (o := outputOf ft fill next)
    (n := (s₂.fills batch).length) (i := 0) _ hbound₂
  have hlengths : fill.length + next.length = (s₂.fillsFirst batch).length := by
    obtain ⟨hrows, rfl⟩ := CausalLM.forward_spec hforward
    rw [(rowsAt_spec _ hrows).1, fillIndices_length, List.length_map, List.length_mapIdx,
      List.length_drop, model.length_eq, hlength, hsum, fillsFirst_eq, List.length_append]
    omega
  refine ⟨s', (hin.run_iff hbound).mpr ⟨fill, next, hforward, hlengths, hupdate⟩, ?_⟩
  intro pre j post hsplit
  obtain ⟨r, hctx, halone, halone₂⟩ := hin.alone hbound hdistinct hsplit
  rw [hsplit] at hupdate
  rw [RoutedTo, jobContext_eq halone₂.context]
  dsimp only
  cases hgen : (s₂.job j).isGenerate with
  | false =>
      obtain ⟨tokenIds, hkind⟩ := kind_of_fill hgen
      have hobj := updateJobs_fill halone₂ hgen hupdate
      rw [hkind]
      dsimp only
      split_ifs with hzero
      · rw [hin.numTokens hbound] at hzero
        have hmem : j ∈ s₂.fillsFirst batch := by
          rw [hsplit]
          exact List.mem_append_right _ List.mem_cons_self
        have htokens : (s'.mem.obj r).tokenIds = [] := by
          rw [hobj]
          rw [← hin.fillsFirst hbound] at hsplit
          rw [(hin.context_kept halone hsplit hzero).1, ← jobContext_eq hctx]
          exact hempty j (mem_fillsFirst.mp hmem) hzero
        exact (getLastHiddenState_unread htokens _).symm
      · rw [hobj, fill_gets_row hlength hforward hsplit hgen hzero]
        rfl
  | true =>
      obtain ⟨cfg, hkind⟩ := kind_of_generate hgen
      obtain ⟨row, hrow, htoken⟩ := generate_gets_token hlength hforward hsplit hgen
      rw [hkind]
      refine ⟨row, hrow, ?_⟩
      rw [← htoken]
      exact updateJobs_generate halone₂ hgen hupdate

/-- Every row is the same. -/
def constantModel (h : HiddenState) : CausalLM where
  hiddenStates ids _ := List.replicate ids.length h
  length_eq _ _ := List.length_replicate
  sample _ _ := 0

/-- A Fill without tokens takes its context's state away. -/
lemma RunsModel.misrouted (hin : s.RunsModel ft batch s₂ ids)
    (hbound : ∀ j ∈ batch, (s.job j).context ≠ none)
    (hdistinct : (batch.map fun j => (s.job j).context).Nodup) (hj : j ∈ batch)
    (hzero : (s.job j).numTokens = 0) (htokens : (s.mem.obj (s.jobContext j)).tokenIds ≠ []) :
    ∃ h, ∀ s', s.runIterModel (constantModel h) ft batch = .ok s' →
      ¬ s₂.Routed (constantModel h) (s₂.fillsFirst batch) ids s' := by
  obtain ⟨pre, post, hsplit⟩ := List.append_of_mem (mem_fillsFirst.mpr hj : j ∈ s₂.fillsFirst batch)
  obtain ⟨r, hctx, halone, halone₂⟩ := hin.alone hbound hdistinct hsplit
  have hzero₂ : (s₂.job j).numTokens = 0 := (hin.numTokens hbound j).trans hzero
  have hkind := kind_of_no_tokens hzero₂
  have hfill : (s₂.job j).isGenerate = false := by
    rw [PrimitiveJob.isGenerate, hkind]
  -- a row other than the state that is there
  refine ⟨(s₂.mem.obj r).lastHiddenState.getD 0 + 1, fun s' hrun hrouted => ?_⟩
  obtain ⟨fill, next, hforward, -, hupdate⟩ := (hin.run_iff hbound).mp hrun
  rw [hsplit] at hupdate
  have hobj := updateJobs_fill halone₂ hfill hupdate
  -- the row that was selected
  obtain ⟨post', hfills⟩ := split_fills hsplit hfill
  have hrows := (CausalLM.forward_spec hforward).1
  rw [hfills, List.map_append, List.map_cons] at hrows
  obtain ⟨row, hrow, hat⟩ := (rowsAt_spec _ hrows).2 _ _ (fillIndices_split _ _ _ 0)
  rw [List.length_map] at hrow
  have hconstant := List.eq_of_mem_replicate (rowAt_mem hat)
  have hstate : (outputOf ft fill next).fillHiddenStates pre.length = row := by
    rw [outputOf]
    dsimp only
    rw [List.getD_eq_getElem?_getD, hrow, Option.getD_some]
  have hne : (s'.mem.obj r).tokenIds ≠ [] := by
    rw [hobj]
    rw [← hin.fillsFirst hbound] at hsplit
    rw [jobContext_eq hctx, ← (hin.context_kept halone hsplit hzero).1] at htokens
    exact htokens
  have hgot := hrouted pre j post hsplit
  rw [RoutedTo, jobContext_eq halone₂.context, hkind] at hgot
  dsimp only at hgot
  rw [if_pos hzero₂, getLastHiddenState_of_ne_nil hne, getLastHiddenState_of_ne_nil, hobj,
    KvMemory.set_obj_self] at hgot
  · have heq : some ((outputOf ft fill next).fillHiddenStates pre.length) =
        (s₂.mem.obj r).lastHiddenState := Except.ok.inj hgot
    rw [hstate, hconstant] at heq
    exact Nat.succ_ne_self _ (congrArg (fun state => state.getD 0) heq)
  · rw [KvMemory.set_obj_self]
    exact hne

/-- Without a row there is nothing for a Fill. -/
lemma RunsModel.no_rows (hin : s.RunsModel ft batch s₂ ids)
    (hbound : ∀ j ∈ batch, (s.job j).context ≠ none) (hj : j ∈ batch)
    (hfill : (s.job j).isGenerate = false) (hnone : ∀ x ∈ batch, (s.job x).numTokens = 0) :
    s.runIterModel model ft batch ≠ .ok s' := by
  intro hrun
  obtain ⟨fill, next, hforward, -⟩ := (hin.run_iff hbound).mp hrun
  have hids : ids = [] := by
    have hcount : s₂.tokenCount (s₂.fillsFirst batch) = 0 := by
      refine List.sum_eq_zero_iff_forall_eq_nat.mpr fun n hn => ?_
      obtain ⟨x, hx, rfl⟩ := List.mem_map.mp hn
      rw [hin.numTokens hbound]
      exact hnone x (mem_fillsFirst.mp hx)
    rw [fillsFirst_eq, tokenCount_append, tokenCount_generates fun j hj => (mem_generates.mp hj).2,
      ← hin.length_ids hbound] at hcount
    exact List.length_eq_zero_iff.mp hcount
  rw [← hin.isGenerate hbound] at hfill
  rw [CausalLM.forward_no_rows
    (List.mem_map.mpr ⟨j, mem_fills.mpr ⟨hj, hfill⟩, rfl⟩) hids] at hforward
  cases hforward

end Outputs

/-- For every model the outputs of a batch are routed, if and only if every Fill without tokens is
on a context without tokens, and a batch with Fills has a token at all. -/
theorem outputs_routed_iff {s₂ : BuiltinEngine} {ft : ℕ → ℕ} {batch : List JobRef} {ids : List ℕ}
    (hbound : ∀ j ∈ batch, (s.job j).context ≠ none)
    (hdistinct : (batch.map fun j => (s.job j).context).Nodup)
    (hin : s.RunsModel ft batch s₂ ids) :
    (∀ model : CausalLM, ∃ s', s.runIterModel model ft batch = .ok s' ∧
      s₂.Routed model (s₂.fillsFirst batch) ids s') ↔
      (∀ j ∈ batch, (s.job j).numTokens = 0 → (s.mem.obj (s.jobContext j)).tokenIds = []) ∧
        ((∃ j ∈ batch, (s.job j).isGenerate = false) → ∃ j ∈ batch, (s.job j).numTokens ≠ 0) := by
  constructor
  · intro h
    refine ⟨fun j hj hzero => ?_, fun ⟨j, hj, hfill⟩ => ?_⟩
    · by_contra htokens
      obtain ⟨h', hnot⟩ := hin.misrouted hbound hdistinct hj hzero htokens
      obtain ⟨s', hrun, hrouted⟩ := h (constantModel h')
      exact hnot s' hrun hrouted
    · by_contra hnone
      obtain ⟨s', hrun, -⟩ := h (constantModel 0)
      refine hin.no_rows hbound hj hfill (fun x hx => ?_) hrun
      by_contra hpos
      exact hnone ⟨x, hx, hpos⟩
  · rintro ⟨hempty, hrow⟩ model
    exact hin.routed hbound hdistinct hempty hrow

/-! ## Two batches -/

/-- The hidden row of a token is the token. -/
def echoModel : CausalLM where
  hiddenStates ids _ := ids
  length_eq _ _ := rfl
  sample _ row := row

lemma runsModel_of_ok {model : CausalLM} {ft : ℕ → ℕ} {batch : List JobRef}
    (h : s.runIterModel model ft batch = .ok s') : ∃ s₂ ids, s.RunsModel ft batch s₂ ids := by
  rw [runIterModel] at h
  dsimp only at h
  split at h
  · cases h
  · rename_i first s₁ hprep
    split at h
    · cases h
    · rename_i s₂ hfirst
      split at h
      · cases h
      · rename_i ids hids
        exact ⟨s₂, ids, first, s₁, hprep, hfirst, hids⟩

/-- Context 0 was filled with 7.  Then a Generate of context 2 behind 0, a Fill of context 1 and a
Fill without tokens on the context `emptied` behind 0 arrive. -/
def mixed (attnFunc : AttnFunc) (emptied : ℕ) : BuiltinEngine :=
  [Action.fill 0 0 0 none false [7] 0, .engineIter fiveOutput,
    .generate 0 2 2 (some 0) true ⟨[], 2⟩ 1, .fill 1 1 1 none false [1, 2] 2,
    .fill 0 0 emptied (some 0) true [] 3].foldl apply
      (start attnFunc 1 8 ampleConfig)

/-- The same on paged memory. -/
def mixedPaged (emptied : ℕ) : BuiltinEngine :=
  mixed .xFormersFillVllmPagedAttentionGenerate emptied

/-- With the empty Fill on a context of its own, whatever the model returns is routed right. -/
theorem outputs_routed_mixed : ∃ s₂ ids, (mixedPaged 3).RunsModel (fun _ => 5) [1, 2, 3] s₂ ids ∧
    ((∀ model : CausalLM, ∃ s',
      (mixedPaged 3).runIterModel model (fun _ => 5) [1, 2, 3] = .ok s' ∧
        s₂.Routed model (s₂.fillsFirst [1, 2, 3]) ids s') ↔
      (∀ j ∈ [1, 2, 3], ((mixedPaged 3).job j).numTokens = 0 →
          ((mixedPaged 3).mem.obj ((mixedPaged 3).jobContext j)).tokenIds = []) ∧
        ((∃ j ∈ [1, 2, 3], ((mixedPaged 3).job j).isGenerate = false) →
          ∃ j ∈ [1, 2, 3], ((mixedPaged 3).job j).numTokens ≠ 0)) ∧
    (∀ j ∈ [1, 2, 3], ((mixedPaged 3).job j).numTokens = 0 →
      ((mixedPaged 3).mem.obj ((mixedPaged 3).jobContext j)).tokenIds = []) := by
  have hok :
      ((mixedPaged 3).runIterModel echoModel (fun _ => 5) [1, 2, 3]).toOption.isSome = true := by
    decide +kernel
  cases hrun : (mixedPaged 3).runIterModel echoModel (fun _ => 5) [1, 2, 3] with
  | error e =>
      rw [hrun] at hok
      cases hok
  | ok s' =>
      obtain ⟨s₂, ids, hin⟩ := runsModel_of_ok hrun
      have hbound : ∀ j ∈ [1, 2, 3], ((mixedPaged 3).job j).context ≠ none := by decide +kernel
      have hdistinct : ([1, 2, 3].map fun j => ((mixedPaged 3).job j).context).Nodup := by
        decide +kernel
      exact ⟨s₂, ids, hin, outputs_routed_iff hbound hdistinct hin, by decide +kernel⟩

/-- A Fill without tokens on context 0 gives it the hidden state of the last token of the Fill
before it, which is another user's. -/
theorem outputs_misrouted : ∃ s s₂ ids s',
    (system .xFormersFillVllmPagedAttentionGenerate 1 8 ampleConfig).Reachable s ∧
    (∀ j ∈ [1, 2, 3], (s.job j).context ≠ none) ∧
    ([1, 2, 3].map fun j => (s.job j).context).Nodup ∧
    s.RunsModel (fun _ => 5) [1, 2, 3] s₂ ids ∧
    s.runIterModel echoModel (fun _ => 5) [1, 2, 3] = .ok s' ∧
    ¬ s₂.Routed echoModel (s₂.fillsFirst [1, 2, 3]) ids s' := by
  have hview : ((mixedPaged 0).runIterModel echoModel (fun _ => 5) [1, 2, 3]).toOption.map
      (fun s' => ((s'.mem.obj 0).tokenIds, (s'.mem.obj 0).lastHiddenState)) =
        some ([7], some 2) := by
    decide +kernel
  have hfacts : (∀ j ∈ [1, 2, 3], ((mixedPaged 0).job j).context ≠ none) ∧
      ([1, 2, 3].map fun j => ((mixedPaged 0).job j).context).Nodup ∧
      (mixedPaged 0).fillsFirst [1, 2, 3] = [2] ++ 3 :: [1] ∧
      ((mixedPaged 0).job 3).numTokens = 0 ∧ ((mixedPaged 0).job 3).context = some 0 ∧
      ((mixedPaged 0).mem.obj 0).lastHiddenState = some 5 := by
    decide +kernel
  obtain ⟨hbound, hdistinct, hsplit, hzero, hctx, hstate⟩ := hfacts
  cases hrun : (mixedPaged 0).runIterModel echoModel (fun _ => 5) [1, 2, 3] with
  | error e =>
      rw [hrun] at hview
      cases hview
  | ok s' =>
      rw [hrun] at hview
      obtain ⟨htokens, hlast⟩ := Prod.mk.inj (Option.some.inj hview)
      obtain ⟨s₂, ids, hin⟩ := runsModel_of_ok hrun
      refine ⟨mixedPaged 0, s₂, ids, s', .foldl _ (.init rfl) (by decide +kernel), hbound,
        hdistinct, hin, hrun, fun hrouted => ?_⟩
      have hsplit₂ : s₂.fillsFirst [1, 2, 3] = [2] ++ 3 :: [1] := by
        rw [← hin.fillsFirst hbound, hsplit]
      obtain ⟨r, hctx', halone, halone₂⟩ := hin.alone hbound hdistinct hsplit₂
      obtain rfl := Option.some.inj (hctx.symm.trans hctx')
      have hzero₂ : (s₂.job 3).numTokens = 0 := (hin.numTokens hbound 3).trans hzero
      have hkept := (hin.context_kept halone hsplit hzero).2
      have hne : (s'.mem.obj 0).tokenIds ≠ [] := by
        rw [htokens]
        exact List.cons_ne_nil _ _
      have hgot := hrouted [2] 3 [1] hsplit₂
      rw [RoutedTo, jobContext_eq halone₂.context, kind_of_no_tokens hzero₂] at hgot
      dsimp only at hgot
      rw [if_pos hzero₂, getLastHiddenState_of_ne_nil hne, getLastHiddenState_of_ne_nil, hlast,
        KvMemory.set_obj_self, hkept, hstate] at hgot
      · cases hgot
      · rw [KvMemory.set_obj_self]
        exact hne

end BuiltinEngine

end ParrotServe
