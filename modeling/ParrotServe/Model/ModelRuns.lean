import ParrotServe.Model.BuiltinEngine

/-!
# Iterations on a given language model

`run_iter` with the model as a function of its inputs (`parrot/engine/builtin/builtin_runner.py`,
`models/llama.py`, `models/opt.py`, `models/model_utils.py`, `models/sampler.py`): from the
concatenated `input_ids` and `input_positions` to one hidden row per input token.  What the sampler
draws for a row is a function of the row and its position among the sampled rows.

`BuiltinEngine.runIter` has the results of the model as an input; `runIterModel` computes them, with
the selection of the rows by `hidden_states_postprocess`.  The attention functions, which only move
keys and values, are left out of it.
-/

namespace ParrotServe

/-- `LlamaModel` or `OPTModel` with its `Sampler`. -/
structure CausalLM where
  /-- The hidden rows of `input_ids` at `input_positions`. -/
  hiddenStates : List ℕ → List ℕ → List HiddenState
  length_eq : ∀ ids positions, (hiddenStates ids positions).length = ids.length
  /-- The token drawn for a row, by its place among the sampled ones. -/
  sample : ℕ → HiddenState → ℕ

/-- The indices `idx - 1` of `hidden_states_postprocess`, from a running sum on. -/
def fillIndices : ℕ → List ℕ → List ℤ
  | _, [] => []
  | idx, n :: ns => (((idx + n : ℕ) : ℤ) - 1) :: fillIndices (idx + n) ns

/-- Indexing a tensor by one number: a negative one counts from the end. -/
def rowAt {α : Type} (rows : List α) (i : ℤ) : Except PyError α :=
  let i := if i < 0 then i + rows.length else i
  if i < 0 then .error .indexError
  else
    match rows[i.toNat]? with
    | none => .error .indexError
    | some row => .ok row

/-- Indexing a tensor by a list of numbers. -/
def rowsAt {α : Type} (rows : List α) : List ℤ → Except PyError (List α)
  | [] => .ok []
  | i :: is =>
      match rowAt rows i with
      | .error e => .error e
      | .ok row =>
          match rowsAt rows is with
          | .error e => .error e
          | .ok rest => .ok (row :: rest)

/-- `hidden_states_postprocess`: the rows of the Fills, and those of the Generates. -/
def hiddenStatesPostprocess {α : Type} (rows : List α) (numFillTokens : List ℕ) :
    Except PyError (List α × List α) :=
  match rowsAt rows (fillIndices 0 numFillTokens) with
  | .error e => .error e
  | .ok fill => .ok (fill, rows.drop numFillTokens.sum)

namespace CausalLM

variable (model : CausalLM)

/-- `Sampler.forward`. -/
def sampler (rows : List HiddenState) (numGenerationJobs : ℕ) : Except PyError (List ℕ) :=
  if rows = [] then .ok []
  else if rows.length ≠ numGenerationJobs then .error (.assertionError "")
  else .ok (rows.mapIdx model.sample)

/-- `LlamaForCausalLM.forward`: the hidden states of the Fills and the tokens of the Generates. -/
def forward (ids positions numFillTokens : List ℕ) (numGenerationJobs : ℕ) :
    Except PyError (List HiddenState × List ℕ) :=
  match hiddenStatesPostprocess (model.hiddenStates ids positions) numFillTokens with
  | .error e => .error e
  | .ok (fill, gen) =>
      match model.sampler gen numGenerationJobs with
      | .error e => .error e
      | .ok nextTokens => .ok (fill, nextTokens)

end CausalLM

namespace BuiltinEngine

variable (s : BuiltinEngine)

/-- The positions of a job's input tokens in its context. -/
def jobPositions (j : JobRef) : List ℕ :=
  let contextLen := s.mem.getContextLen (s.jobContext j)
  match (s.job j).kind with
  | .fill none => []
  | .fill (some tokenIds) => List.range' (contextLen - tokenIds.length) tokenIds.length
  | .generate _ => [contextLen - 1]

/-- `input_positions`. -/
def inputPositions (jobs : List JobRef) : List ℕ := jobs.flatMap s.jobPositions

/-- `run_iter` on a language model. -/
def runIterModel (model : CausalLM) (firstSamplingTokens : ℕ → ℕ) (batch : List JobRef) :
    Except PyError BuiltinEngine :=
  let jobs := s.fillsFirst batch
  match s.prepareJobs jobs with
  | .error e => .error e
  | .ok (first, s₁) =>
      match s₁.firstSampling firstSamplingTokens 0 first with
      | .error e => .error e
      | .ok s₂ =>
          match s₂.inputIds jobs with
          | .error e => .error e
          | .ok ids =>
              let numFillTokens :=
                (jobs.filter fun j => !(s₂.job j).isGenerate).map fun j => (s₂.job j).numTokens
              let numGenerationJobs := (jobs.filter fun j => (s₂.job j).isGenerate).length
              match model.forward ids (s₂.inputPositions jobs) numFillTokens numGenerationJobs with
              | .error e => .error e
              | .ok (fillHiddenStates, nextTokens) =>
                  if fillHiddenStates.length + nextTokens.length ≠ jobs.length then
                    .error (.assertionError "")
                  else
                    s₂.updateJobs
                      { firstSamplingTokens
                        fillHiddenStates := fun i => fillHiddenStates.getD i 0
                        nextTokens := fun i => nextTokens.getD i 0 }
                      numFillTokens.length 0 jobs

end BuiltinEngine

end ParrotServe
