import ParrotServe.Framework.TransitionSystem
import ParrotServe.Model.EngineScheduler

/-!
# The built-in engine

`BuiltinEngine` with its `BuiltinRunner`, `EngineContextManager` and attention functions
(`parrot/engine/builtin/`, `parrot/engine/context/context_manager.py`).

What is computed by the GPU is modelled by what it stores: `kvCache` maps a slot to the token
whose key and value it holds, and one iteration writes the slot of `slotMapping` at position `i`
with the `i`-th input token.  The numbers that come out of the model (sampled tokens and hidden
states) are inputs of an iteration, `ModelOutput`.

The engine process has two kinds of errors.  An exception in a request handler (`fill`,
`generate`, `free_context`) is answered to the caller and the engine goes on from the partial
effect.  An exception inside `engine_iter` leaves the engine loop, which nothing restarts: the
state is `crashed` and no further action is enabled.

Of the attention functions, the tables of the paged kernels are kept as far as they address
memory; masks, buffers' contents and the numbers computed from them are left out.
-/

namespace ParrotServe

/-- `BuiltinConfig.attn_func`. -/
inductive AttnFunc
  | xFormersWithBuffer
  | xFormersFillVllmPagedAttentionGenerate
  | xFormersFillSharedPromptsGenerate
  deriving DecidableEq, Repr

/-- What one run of the model and its sampler returns, position by position. -/
structure ModelOutput where
  firstSamplingTokens : ℕ → ℕ
  fillHiddenStates : ℕ → HiddenState
  nextTokens : ℕ → ℕ

/-- The tables of an `IterationState` that address the KV cache. -/
structure IterationState where
  numFillTokens : List ℕ
  /-- One entry per row of the destination table, as stored in memory row by row. -/
  slotMapping : List ℕ
  /-- The cache rows a Fill (or, with the buffer, any job) reads. -/
  fillSlots : List ℕ
  /-- Logical block to physical block, one row per Generate. -/
  blockTables : List (List ℕ)
  contextLens : List ℕ
  deriving DecidableEq, Repr

/-- The state of a `BuiltinEngine`. -/
structure BuiltinEngine where
  attnFunc : AttnFunc
  /-- `BuiltinConfig.num_kv_cache_blocks`: the rows of the cache of a layer. -/
  numKvCacheBlocks : ℕ
  mem : KvMemory
  /-- `EngineContextManager.map`. -/
  map : ℕ → Option CtxRef := fun _ => none
  scheduler : EngineScheduler
  job : JobRef → PrimitiveJob
  nextJob : JobRef := 0
  /-- The token whose key and value a slot holds. -/
  kvCache : ℕ → Option ℕ := fun _ => none
  crashed : Bool := false

/-- `l[-n:]`, which is all of `l` for `n = 0`. -/
def lastEntries {α : Type} (l : List α) (n : ℕ) : List α :=
  if n = 0 then l else l.drop (l.length - n)

/-- `_pad_to_max`. -/
def padToMax (x : List ℕ) (maxLen pad : ℕ) : List ℕ :=
  x ++ List.replicate (maxLen - x.length) pad

/-- The longest row of a table. -/
def maxLength {α : Type} (rows : List (List α)) : ℕ := rows.foldr (fun r m => max r.length m) 0

namespace BuiltinEngine

variable (s : BuiltinEngine)

/-- Overwrite one job. -/
def setJob (j : JobRef) (record : PrimitiveJob) : BuiltinEngine :=
  { s with job := Function.update s.job j record }

/-- Overwrite the memory. -/
def setMem (m : KvMemory) : BuiltinEngine := { s with mem := m }

/-! ## Requests -/

/-- `EngineContextManager.bind_job_context`. -/
def bindJobContext (j : JobRef) : Except PyError Unit × BuiltinEngine :=
  let record := s.job j
  match s.map record.contextId with
  | some r => (.ok (), s.setJob j { record with context := some r })
  | none =>
      let construct (parent : Option CtxRef) : Except PyError Unit × BuiltinEngine :=
        match s.mem.newContext record.contextId parent with
        | (.error e, m) => (.error e, s.setMem m)
        | (.ok r, m) =>
            (.ok (), { (s.setMem m).setJob j { record with context := some r } with
              map := Function.update s.map record.contextId (some r) })
      match record.parentContextId with
      | none => construct none
      | some pid =>
          match s.map pid with
          | none => (.error (.keyError (toString pid)), s)
          | some p => construct (some p)

/-- `scheduler.add_job` on a new job. -/
def queueJob (record : PrimitiveJob) (curTime : ℕ) : BuiltinEngine :=
  { s.setJob s.nextJob record with
    nextJob := s.nextJob + 1
    scheduler := s.scheduler.addJob s.nextJob record curTime }

/-- `_add_job`: the job is queued before its context is bound. -/
def addJob (record : PrimitiveJob) (curTime : ℕ) : Except PyError Unit × BuiltinEngine :=
  (s.queueJob record curTime).bindJobContext s.nextJob

/-- `EngineContextManager.free_context`: the id leaves the map before the context is
destroyed. -/
def managerFreeContext (contextId : ℕ) : Except PyError ℕ × BuiltinEngine :=
  match s.map contextId with
  | none => (.ok 0, s)
  | some r =>
      let s' := { s with map := Function.update s.map contextId none }
      match s.mem.destruction r with
      | (.error e, m) => (.error e, s'.setMem m)
      | (.ok (), m) => (.ok (s.mem.getThisContextLen r), s'.setMem m)

/-- `free_context`; only the running jobs are asked. -/
def freeContext (contextId : ℕ) : Except PyError ℕ × BuiltinEngine :=
  if s.scheduler.runningJobs.any fun j => (s.job j).contextId = contextId then
    (.error (.runtimeError ("Context " ++ toString contextId ++ " is still running.")), s)
  else s.managerFreeContext contextId

/-! ## One iteration -/

/-- `job.context.get_context_len()`. -/
def jobContextLen (j : JobRef) : Except PyError ℕ :=
  match (s.job j).context with
  | none => .error .attributeError
  | some r => .ok (s.mem.getContextLen r)

/-- `jobs.sort(key=lambda job: isinstance(job, Generate))`. -/
def fillsFirst (jobs : List JobRef) : List JobRef :=
  jobs.filter (fun j => !(s.job j).isGenerate) ++ jobs.filter fun j => (s.job j).isGenerate

/-- `Generate.put_token`. -/
def putToken (j : JobRef) (tokenId : ℕ) : Except PyError BuiltinEngine :=
  let record := s.job j
  match record.context with
  | none => .error .attributeError
  | some r =>
      let c := s.mem.obj r
      .ok ((s.setMem (s.mem.set r { c with tokenIds := c.tokenIds ++ [tokenId] })).setJob j
        { record with
          outputQueue := record.outputQueue ++ [tokenId]
          genLength := record.genLength + 1 })

/-- `Generate.check_stop`. -/
def checkStop (j : JobRef) (cfg : SamplingConfig) : Except PyError Bool :=
  match (s.job j).context with
  | none => .error .attributeError
  | some r =>
      match s.mem.getLastTokenId r with
      | .error e => .error e
      | .ok tokenId =>
          .ok (decide (tokenId ∈ cfg.stopTokenIds ∨ cfg.maxGenLength ≤ (s.job j).genLength))

/-- One round of `Generate.generator`: the token that is yielded, or `none` when the stream ends.
There is no round as long as the queue is empty. -/
def generatorNext (j : JobRef) (cfg : SamplingConfig) :
    Option (Except PyError (Option ℕ × BuiltinEngine)) :=
  match (s.job j).outputQueue with
  | [] => none
  | tokenId :: queue =>
      let s' := s.setJob j { s.job j with outputQueue := queue }
      match s'.checkStop j cfg with
      | .error e => some (.error e)
      | .ok true => some (.ok (none, s'))
      | .ok false => some (.ok (some tokenId, s'))

/-- One round of the first loop of `run_iter`, on a job that has a context: tokens and slots of
a Fill, or the slot of a Generate's input token.  The result says whether the job needs a first
sampling. -/
def allocateJob (j : JobRef) (r : CtxRef) : Except PyError (Bool × BuiltinEngine) :=
  match (s.job j).kind with
  | .fill none => .error .typeError
  | .fill (some tokenIds) =>
      let c := s.mem.obj r
      match (s.mem.set r { c with tokenIds := c.tokenIds ++ tokenIds }).allocate r
        tokenIds.length with
      | (.error e, _) => .error e
      | (.ok (), m) => .ok (false, s.setMem m)
  | .generate _ =>
      match s.mem.allocate r 1 with
      | (.error e, _) => .error e
      | (.ok (), m) =>
          match m.getLastHiddenState r with
          | .error e => .error e
          | .ok none => .ok (false, s.setMem m)
          | .ok (some _) =>
              .ok (true, s.setMem (m.set r { m.obj r with lastHiddenState := none }))

/-- `allocateJob`, after binding a job that has no context yet. -/
def prepareJob (j : JobRef) : Except PyError (Bool × BuiltinEngine) :=
  match (s.job j).context with
  | some r => s.allocateJob j r
  | none =>
      match s.bindJobContext j with
      | (.error e, _) => .error e
      | (.ok (), s') =>
          match (s'.job j).context with
          | none => .error .attributeError
          | some r => s'.allocateJob j r

/-- The first loop of `run_iter`; the list is `first_sampling_jobs`. -/
def prepareJobs (s : BuiltinEngine) :
    List JobRef → Except PyError (List JobRef × BuiltinEngine)
  | [] => .ok ([], s)
  | j :: js =>
      match s.prepareJob j with
      | .error e => .error e
      | .ok (sample, s') =>
          match s'.prepareJobs js with
          | .error e => .error e
          | .ok (first, s'') => .ok (if sample then j :: first else first, s'')

/-- The loop `job.put_token(first_sampling_tokens[i])`, from index `i` on. -/
def firstSampling (s : BuiltinEngine) (tokens : ℕ → ℕ) :
    ℕ → List JobRef → Except PyError BuiltinEngine
  | _, [] => .ok s
  | i, j :: js =>
      match s.putToken j (tokens i) with
      | .error e => .error e
      | .ok s' => s'.firstSampling tokens (i + 1) js

/-- The tokens a job feeds to the model. -/
def inputTokens (j : JobRef) : Except PyError (List ℕ) :=
  match (s.job j).kind with
  | .fill none => .error .typeError
  | .fill (some tokenIds) => .ok tokenIds
  | .generate _ =>
      match (s.job j).context with
      | none => .error .attributeError
      | some r =>
          match s.mem.getLastTokenId r with
          | .error e => .error e
          | .ok tokenId => .ok [tokenId]

/-- `input_ids`. -/
def inputIds : List JobRef → Except PyError (List ℕ)
  | [] => .ok []
  | j :: js =>
      match s.inputTokens j with
      | .error e => .error e
      | .ok tokens =>
          match inputIds js with
          | .error e => .error e
          | .ok rest => .ok (tokens ++ rest)

/-- The context of a job that has one. -/
def jobContext (j : JobRef) : CtxRef := ((s.job j).context).getD 0

/-- The slot ids of a job's new tokens, as `init_iteration_state` slices them. -/
def slotRow (j : JobRef) : List ℕ :=
  lastEntries (s.mem.getContextSlotIds (s.jobContext j)) (s.job j).numTokens

/-- The block ids of a job's new tokens. -/
def blockRow (j : JobRef) : List ℕ :=
  lastEntries (s.mem.getContextBlockIds (s.jobContext j)) (s.job j).numTokens

/-- `init_iteration_state` of the three attention functions, for jobs that have contexts and
token lists.  The two paged ones differ in how Generates share their block tables, which no slot
depends on; `slot_mapping` is the same padded table. -/
def initIterationState (jobs : List JobRef) : IterationState :=
  let gens := jobs.filter fun j => (s.job j).isGenerate
  let fills := jobs.filter fun j => !(s.job j).isGenerate
  match s.attnFunc with
  | .xFormersWithBuffer =>
      { numFillTokens := fills.map fun j => (s.job j).numTokens
        slotMapping := jobs.flatMap s.blockRow
        fillSlots := jobs.flatMap fun j => s.mem.getContextBlockIds (s.jobContext j)
        blockTables := []
        contextLens := jobs.map fun j => s.mem.getContextLen (s.jobContext j) }
  | _ =>
      let rows := jobs.map s.slotRow
      let tables := gens.map fun j =>
        stride s.mem.blockSize (s.mem.getContextBlockIds (s.jobContext j))
      { numFillTokens := fills.map fun j => (s.job j).numTokens
        slotMapping := rows.flatMap fun row => padToMax row (maxLength rows) 0
        fillSlots := fills.flatMap fun j => s.mem.getContextSlotIds (s.jobContext j)
        blockTables := tables.map fun t => padToMax t (maxLength tables) 0
        contextLens := gens.map fun j => s.mem.getContextLen (s.jobContext j) }

/-- With shared prompts, `get_shared_context_len` asserts that there is a job. -/
def checkJobs (jobs : List JobRef) : Except PyError Unit :=
  if s.attnFunc = .xFormersFillSharedPromptsGenerate ∧ jobs = [] then .error (.assertionError "")
  else .ok ()

/-- The assertions of `discontinuous_move_tokens` on the numbers of rows and of indices. -/
def checkMove (srcRows destRows srcIndices destIndices : ℕ) : Except PyError Unit :=
  if srcIndices ≠ destIndices then
    .error (.assertionError "src_indices and dest_indices must have the same shape")
  else if srcRows < srcIndices then .error (.assertionError "src_storage is too small")
  else if destRows < destIndices then .error (.assertionError "dest_storage is too small")
  else .ok ()

/-- The moves of `xFormersWithBuffer.forward`: the new rows to the cache, and the rows of the
contexts from there to the buffer. -/
def checkBuffer (st : IterationState) (ids : List ℕ) : Except PyError Unit :=
  match checkMove ids.length s.numKvCacheBlocks ids.length st.slotMapping.length with
  | .error e => .error e
  | .ok () =>
      let bufferRows := st.contextLens.sum
      checkMove s.numKvCacheBlocks bufferRows st.fillSlots.length bufferRows

/-- Store the keys and values of the input tokens at their destinations, in order. -/
def writeKv (kv : ℕ → Option ℕ) : List (ℕ × ℕ) → ℕ → Option ℕ
  | [] => kv
  | (slot, token) :: rest => writeKv (Function.update kv slot (some token)) rest

/-- The cache writes of `forward`, and the checks of the reference path. -/
def forward (st : IterationState) (ids : List ℕ) : Except PyError BuiltinEngine :=
  match if s.attnFunc = .xFormersWithBuffer then s.checkBuffer st ids else .ok () with
  | .error e => .error e
  | .ok () => .ok { s with kvCache := writeKv s.kvCache (st.slotMapping.zip ids) }

/-- The last loop of `run_iter` for the job at index `i`. -/
def updateJob (o : ModelOutput) (numFillJobs i : ℕ) (j : JobRef) :
    Except PyError BuiltinEngine :=
  match (s.job j).context with
  | none => .error (.assertionError "Context should be assigned.")
  | some r =>
      match (s.job j).kind with
      | .fill _ =>
          let c := s.mem.obj r
          .ok ((s.setMem (s.mem.set r
            { c with lastHiddenState := some (o.fillHiddenStates i) })).setJob j
            { s.job j with finishEvent := true })
      | .generate cfg =>
          match s.putToken j (o.nextTokens (i - numFillJobs)) with
          | .error e => .error e
          | .ok s' =>
              match s'.checkStop j cfg with
              | .error e => .error e
              | .ok false => .ok s'
              | .ok true => .ok (s'.setJob j { s'.job j with finishEvent := true })

/-- The last loop of `run_iter`, from index `i` on. -/
def updateJobs (s : BuiltinEngine) (o : ModelOutput) (numFillJobs : ℕ) :
    ℕ → List JobRef → Except PyError BuiltinEngine
  | _, [] => .ok s
  | i, j :: js =>
      match s.updateJob o numFillJobs i j with
      | .error e => .error e
      | .ok s' => s'.updateJobs o numFillJobs (i + 1) js

/-- `run_iter` up to the point where the keys and values of the input tokens are stored and
attention reads the cache: the jobs in batch order, and the engine at that point. -/
def runIterForward (o : ModelOutput) (jobs : List JobRef) :
    Except PyError (List JobRef × BuiltinEngine) :=
  let jobs := s.fillsFirst jobs
  match s.prepareJobs jobs with
  | .error e => .error e
  | .ok (first, s₁) =>
      match s₁.firstSampling o.firstSamplingTokens 0 first with
      | .error e => .error e
      | .ok s₂ =>
          match s₂.checkJobs jobs with
          | .error e => .error e
          | .ok () =>
              let st := s₂.initIterationState jobs
              match s₂.inputIds jobs with
              | .error e => .error e
              | .ok ids =>
                  match s₂.forward st ids with
                  | .error e => .error e
                  | .ok s₃ => .ok (jobs, s₃)

/-- `run_iter`. -/
def runIter (o : ModelOutput) (jobs : List JobRef) : Except PyError BuiltinEngine :=
  match s.runIterForward o jobs with
  | .error e => .error e
  | .ok (jobs, s') =>
      s'.updateJobs o (jobs.filter fun j => !(s'.job j).isGenerate).length 0 jobs

/-- `schedule`, with its effect on the engine. -/
def scheduleBatch : Except PyError (List JobRef × BuiltinEngine) :=
  match s.scheduler.schedule s.job s.jobContextLen with
  | .error e => .error e
  | .ok (batch, sched) => .ok (batch, { s with scheduler := sched })

/-- `engine_iter`. -/
def engineIter (o : ModelOutput) : Except PyError BuiltinEngine :=
  if s.scheduler.isEmpty then .ok s
  else
    match s.scheduleBatch with
    | .error e => .error e
    | .ok (batch, s₁) =>
        match s₁.runIter o batch with
        | .error e => .error e
        | .ok s₂ =>
            match s₂.scheduler.finish s₂.job with
            | .error e => .error e
            | .ok sched => .ok { s₂ with scheduler := sched }

/-! ## Runs of the engine -/

/-- The requests an engine serves, and its iterations.  A request carries the time it arrives
at; the payload of `fill` and `generate` is the job it becomes. -/
inductive Action
  | fill (sessionId taskId contextId : ℕ) (parentContextId : Option ℕ) (endFlag : Bool)
      (tokenIds : List ℕ) (curTime : ℕ)
  | generate (sessionId taskId contextId : ℕ) (parentContextId : Option ℕ) (endFlag : Bool)
      (samplingConfig : SamplingConfig) (curTime : ℕ)
  | freeContext (contextId : ℕ)
  | engineIter (output : ModelOutput)

/-- The job of a `fill` payload. -/
def fillJob (sessionId taskId contextId : ℕ) (parentContextId : Option ℕ) (endFlag : Bool)
    (tokenIds : List ℕ) : PrimitiveJob :=
  { sessionId, taskId, contextId, parentContextId, endFlag, kind := .fill (some tokenIds) }

/-- The job of a `generate` payload. -/
def generateJob (sessionId taskId contextId : ℕ) (parentContextId : Option ℕ) (endFlag : Bool)
    (samplingConfig : SamplingConfig) : PrimitiveJob :=
  { sessionId, taskId, contextId, parentContextId, endFlag, kind := .generate samplingConfig }

/-- The effect of an action. -/
def apply : Action → BuiltinEngine
  | .fill sid tid cid pid flag tokenIds t => (s.addJob (fillJob sid tid cid pid flag tokenIds) t).2
  | .generate sid tid cid pid flag cfg t => (s.addJob (generateJob sid tid cid pid flag cfg) t).2
  | .freeContext cid => (s.freeContext cid).2
  | .engineIter o =>
      match s.engineIter o with
      | .ok s' => s'
      | .error _ => { s with crashed := true }

/-- The KV-cache pool of a runner. -/
def kvCachePool (numKvCacheBlocks : ℕ) : RecyclePool :=
  { poolName := "KVCache pool", poolSize := some numKvCacheBlocks }

/-- A freshly started engine: no context, no job, all blocks free. -/
def start (attnFunc : AttnFunc) (blockSize numKvCacheBlocks : ℕ) (config : SchedulerConfig) :
    BuiltinEngine where
  attnFunc := attnFunc
  numKvCacheBlocks := numKvCacheBlocks
  mem := KvMemory.empty blockSize (kvCachePool numKvCacheBlocks)
  scheduler := { config := config }
  job _ := fillJob 0 0 0 none false []

/-- The runs of an engine. -/
def system (attnFunc : AttnFunc) (blockSize numKvCacheBlocks : ℕ) (config : SchedulerConfig) :
    TransitionSystem BuiltinEngine Action :=
  .ofFun (start attnFunc blockSize numKvCacheBlocks config) (fun s _ => s.crashed = false) apply

end BuiltinEngine

end ParrotServe
