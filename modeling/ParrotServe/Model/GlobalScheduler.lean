import ParrotServe.Model.EngineManager
import Mathlib.Algebra.GroupWithZero.Nat
import Mathlib.Data.List.Sort

/-!
# The global scheduler

`GlobalScheduler` (`parrot/serve/scheduler/global_scheduler.py`) over the engine registry, with
the `CompletionTask` of `completion_task.py`, the ids of `task_creator.py` and the scheduling part
of an `ExecutionEngine` (`parrot/serve/backend_repr/engine.py`).

Tasks are objects, identified by a `TaskRef`.  Of a chain a task keeps what the scheduler reads:
its nodes, the texts of its Fills, the group objects it belongs to, the first variable (an object
as well: `==` on variables is identity), the depth of its output and its metadata.  A capacity, a
bound or a length is a number of tasks or tokens; the source does not refuse negative ones, which
are left out here.

An exception out of `schedule` or of the coroutine of a task ends the process, so these return
`Except PyError _`; a request that an engine or a session sends is answered with its exception,
and what it did before stays.
-/

namespace ParrotServe

/-! ## Tokenizing -/

namespace TokenizersWrapper

/-- `tokenize_all`. -/
def tokenizeAll (w : TokenizersWrapper) (text : Text) : Dict Text (List ℕ) :=
  w.tokenizers.mapValues fun encode => encode text

end TokenizersWrapper

/-! ## Tasks -/

/-- What the scheduler reads of a `CompletionChain`. -/
structure TaskChain where
  /-- `metadata.models`. -/
  models : List Text := []
  /-- `metadata.model_type`. -/
  modelType : Text
  /-- The identities of the groups. -/
  chainGroups : List ℕ := []
  /-- The identity of `first_node.sv`. -/
  firstNodeSv : ℕ
  nodes : List ChainNode := []
  /-- The contents of the Fill nodes. -/
  fillTexts : List Text
  /-- `gen_node.sv.depth`. -/
  depth : ℕ := 0
  /-- `gen_node.sampling_config.max_gen_length`. -/
  maxGenLength : ℕ := 512
  deriving DecidableEq

/-- `CompletionTask`, without its contexts. -/
structure CompletionTask where
  taskId : ℕ
  chain : TaskChain
  /-- Tokenizer name to the token ids of each Fill. -/
  tokenizedResult : Option (Dict Text (List (List ℕ))) := none
  /-- `schedule_annotation.tasks_num_upperbound`. -/
  tasksNumUpperbound : ℕ := 256
  engine : Option EngineRef := none
  /-- `_scheduled_event`. -/
  isScheduled : Bool := false
  deriving DecidableEq

namespace CompletionTask

variable (task : CompletionTask)

/-- The inner loop of `tokenize_chain`. -/
def addTokenized (result : Dict Text (List (List ℕ))) (tokenized : Dict Text (List ℕ)) :
    Dict Text (List (List ℕ)) :=
  tokenized.entries.foldl (fun r e => r.set e.1 ((r.get? e.1).getD [] ++ [e.2])) result

/-- `tokenize_chain`. -/
def tokenizeChain (w : TokenizersWrapper) : Except PyError CompletionTask := do
  parrotAssert task.tokenizedResult.isNone "Tokenized result is already available."
  let result := task.chain.fillTexts.foldl
    (fun r text => addTokenized r (w.tokenizeAll text)) .empty
  return { task with tokenizedResult := some result }

/-- `get_token_nums`. -/
def getTokenNums (tokenizerName : Text) : Except PyError ℕ :=
  match task.tokenizedResult with
  | none => .error (.parrotAssert "Tokenized result is not available.")
  | some result =>
      match result.get? tokenizerName with
      | none => .error (.keyError (String.ofList tokenizerName))
      | some fills => .ok ((fills.map List.length).sum + task.chain.maxGenLength)

end CompletionTask

/-! ## The scheduling part of an engine -/

namespace ExecutionEngine

variable (engine : ExecutionEngine)

/-- `get_num_tasks`. -/
def getNumTasks : ℤ := engine.serveLayerRuntimeInfo.numTasks

/-- `get_remain_tokens_capacity`. -/
def getRemainTokensCapacity : ℤ :=
  engine.config.tokensCapacity - engine.serveLayerRuntimeInfo.tokensNum

/-- `get_remain_tasks_capacity`. -/
def getRemainTasksCapacity : ℤ :=
  engine.config.tasksCapacity - engine.serveLayerRuntimeInfo.numTasks

/-- `get_tasks_num_upperbound`. -/
def getTasksNumUpperbound : ℤ :=
  engine.serveLayerRuntimeInfo.tasksNumUpperbounds.values.foldl min 9999999999

/-- What a task counts for on the engine: nothing without token ids. -/
def tokensOf (task : CompletionTask) : Except PyError ℕ :=
  match engine.model.modelType with
  | .text => .ok 0
  | .tokenId => task.getTokenNums engine.model.tokenizerName

/-- `update_servelayer_runtime_info_add_task`. -/
def addTask (task : CompletionTask) : Except PyError ExecutionEngine := do
  parrotAssert task.isScheduled "The task is not scheduled."
  let info := engine.serveLayerRuntimeInfo
  let tokensNum ← engine.tokensOf task
  return { engine with serveLayerRuntimeInfo := {
    numTasks := info.numTasks + 1
    tokensNum := info.tokensNum + tokensNum
    tasksNumUpperbounds := info.tasksNumUpperbounds.set task.taskId task.tasksNumUpperbound } }

/-- `update_servelayer_runtime_info_remove_task`. -/
def removeTask (task : CompletionTask) : Except PyError ExecutionEngine := do
  parrotAssert task.isScheduled "The task is not scheduled."
  let info := engine.serveLayerRuntimeInfo
  match info.tasksNumUpperbounds.get? task.taskId with
  | none => .error (.keyError (toString task.taskId))
  | some _ =>
      let tokensNum ← engine.tokensOf task
      return { engine with serveLayerRuntimeInfo := {
        numTasks := info.numTasks - 1
        tokensNum := info.tokensNum - tokensNum
        tasksNumUpperbounds := info.tasksNumUpperbounds.erase task.taskId } }

end ExecutionEngine

/-! ## `query_prefixes_in_engines` -/

namespace PrefixCache

/-- The number of nodes of a chain whose prefixes are cached, from the first on. -/
def cachedPrefixNum (c : PrefixCache) : Text → List ChainNode → ℕ
  | _, [] => 0
  | prefixHash, node :: nodes =>
      let prefixHash := prefixHash ++ hashVarId node.varId
      match c.getCachedPrefixContext prefixHash with
      | none => 0
      | some _ => cachedPrefixNum c prefixHash nodes + 1

end PrefixCache

/-- `query_prefixes_in_engines`: whether the list it returns has an engine id. -/
def ServeCoreContextManager.queryPrefixesInEngines (m : ServeCoreContextManager)
    (nodes : List ChainNode) (engineId : ℕ) : Bool :=
  match m.prefixCaches engineId with
  | none => false
  | some cache => decide (0 < cache.cachedPrefixNum [] nodes)

/-! ## `GlobalScheduler` -/

/-- `get_model_type`. -/
def getModelType (modelTypeStr : Text) : Except PyError ModelType :=
  if modelTypeStr = ['t', 'o', 'k', 'e', 'n', '_', 'i', 'd'] then .ok .tokenId
  else if modelTypeStr = ['t', 'e', 'x', 't'] then .ok .text
  else .error (.userError ("Unknown model type: " ++ String.ofList modelTypeStr))

/-- `GlobalSchedulerConfig`. -/
structure GlobalSchedulerConfig where
  appFifo : Bool := false
  graphGroup : Bool := false
  ctxGroup : Bool := false
  ctxAware : Bool := false
  maxQueueSize : ℕ := 1024
  deriving DecidableEq, Repr

/-- The scheduler, the tasks, and the engines. -/
structure GlobalScheduler where
  config : GlobalSchedulerConfig
  engineMgr : EngineManager
  task : TaskRef → CompletionTask
  nextTask : TaskRef
  /-- `TaskCreator._task_id_pool`. -/
  taskIdPool : RecyclePool
  taskQueue : List TaskRef
  /-- History: the calls of `schedule_to`. -/
  dispatches : List (TaskRef × EngineRef)
  /-- The tasks that left the scheduled status. -/
  left : List TaskRef

namespace GlobalScheduler

/-- No engine, no task. -/
def start (config : GlobalSchedulerConfig) (engineHeartbeatTimeout : ℤ) : GlobalScheduler where
  config := config
  engineMgr := .start engineHeartbeatTimeout
  task _ := { taskId := 0, chain := { modelType := [], firstNodeSv := 0, fillTexts := [] } }
  nextTask := 0
  taskIdPool := { poolName := "TaskIDPool", debugMode := true }
  taskQueue := []
  dispatches := []
  left := []

variable (s : GlobalScheduler)

/-- The engine object. -/
def engine (g : EngineRef) : ExecutionEngine := s.engineMgr.obj g

/-! ### `_get_engine_list` -/

/-- The tokens of the tasks of a group on an engine. -/
def totalTokensNum (tokenizerName : Text) : List TaskRef → Except PyError ℕ
  | [] => .ok 0
  | t :: ts =>
      match (s.task t).getTokenNums tokenizerName with
      | .error e => .error e
      | .ok n =>
          match totalTokensNum tokenizerName ts with
          | .error e => .error e
          | .ok total => .ok (n + total)

/-- `check_engine_available`. -/
def checkEngineAvailable (tasks : List TaskRef) (models : List Text) (modelType : ModelType)
    (tasksNumUpperbound : ℤ) (engine : ExecutionEngine) : Except PyError Bool :=
  if modelType ≠ engine.model.modelType then .ok false
  else if 0 < models.length ∧ engine.modelName ∉ models then .ok false
  -- for the bound of the tasks, the whole group is a single task
  else if 1 + engine.getNumTasks > tasksNumUpperbound then .ok false
  else if tasks.length + engine.getNumTasks > engine.getTasksNumUpperbound then .ok false
  else if tasks.length > engine.getRemainTasksCapacity then .ok false
  else
    match modelType with
    | .text => .ok true
    | .tokenId =>
        match s.totalTokensNum engine.model.tokenizerName tasks with
        | .error e => .error e
        | .ok total => .ok (decide (total ≤ engine.getRemainTokensCapacity))

/-- The list comprehension of `_get_engine_list`. -/
def filterEngines (check : ExecutionEngine → Except PyError Bool) :
    List EngineRef → Except PyError (List EngineRef)
  | [] => .ok []
  | g :: gs =>
      match check (s.engine g) with
      | .error e => .error e
      | .ok available =>
          match filterEngines check gs with
          | .error e => .error e
          | .ok rest => .ok (if available then g :: rest else rest)

/-- `_get_engine_list`. -/
def getEngineList (tasks : List TaskRef) (tasksNumUpperbound : ℤ) :
    Except PyError (List EngineRef) :=
  match tasks with
  | [] => .error .indexError
  | first :: _ =>
      let chain := (s.task first).chain
      match getModelType chain.modelType with
      | .error e => .error e
      | .ok modelType =>
          s.filterEngines (s.checkEngineAvailable tasks chain.models modelType tasksNumUpperbound)
            s.engineMgr.getLiveEngines

/-! ### `_find_engine` -/

/-- One round of the loop over the engine list. -/
def betterEngine (withPrefixes : ℕ → Bool) (best g : EngineRef) : EngineRef :=
  if s.config.ctxAware ∧ withPrefixes (s.engine g).engineId ∧
      ¬ withPrefixes (s.engine best).engineId then g
  else if (s.engine g).getTasksNumUpperbound < (s.engine best).getTasksNumUpperbound then g
  else if (s.engine g).getRemainTokensCapacity < (s.engine best).getRemainTokensCapacity then g
  else best

/-- The best engine of the list. -/
def bestEngine (first : TaskRef) : List EngineRef → Except PyError (Option EngineRef)
  | [] => .ok none
  | g :: gs =>
      if s.config.ctxAware ∧ (s.task first).isScheduled then
        .error (.parrotAssert "Task should not be scheduled.")
      else
        .ok (some (gs.foldl (s.betterEngine
          (s.engineMgr.contextMgr.queryPrefixesInEngines (s.task first).chain.nodes)) g))

/-- The engine of a group, if there is one. -/
def engineFor (tasks : List TaskRef) : Except PyError (Option EngineRef) :=
  let tasksNumUpperbound : ℤ := tasks.foldl
    (fun bound t => min bound ((s.task t).tasksNumUpperbound : ℤ)) 999999999
  match s.getEngineList tasks tasksNumUpperbound with
  | .error e => .error e
  | .ok engineList =>
      match tasks with
      | [] => .error .indexError
      | first :: _ => s.bestEngine first engineList

/-- `schedule_to`. -/
def scheduleTo (t : TaskRef) (g : EngineRef) : Except PyError GlobalScheduler :=
  let task := { s.task t with engine := some g, isScheduled := true }
  match (s.engine g).addTask task with
  | .error e => .error e
  | .ok engine => .ok { s with
      task := Function.update s.task t task
      engineMgr := s.engineMgr.setEngine g engine
      dispatches := s.dispatches ++ [(t, g)] }

/-- Dispatch the tasks of a group. -/
def dispatch (g : EngineRef) : List TaskRef → GlobalScheduler → Except PyError GlobalScheduler
  | [], s => .ok s
  | t :: ts, s =>
      match s.scheduleTo t g with
      | .error e => .error e
      | .ok s => dispatch g ts s

/-- `_find_engine`. -/
def findEngine (tasks : List TaskRef) : Except PyError GlobalScheduler :=
  match s.engineFor tasks with
  | .error e => .error e
  | .ok none => .ok s
  | .ok (some g) => dispatch g tasks s

/-! ### `schedule` -/

/-- The local variables of the grouping loop. -/
structure GroupState where
  curGroup : List TaskRef
  chainGroups : List ℕ
  graphGroupEnabled : Bool
  ctxGroupEnabled : Bool

/-- The body of the grouping loop, for the group of `t`. -/
def groupTask (t : TaskRef) (st : GroupState) (j : TaskRef) : GroupState :=
  let commonGroups := st.chainGroups.filter fun group =>
    decide (group ∈ (s.task j).chain.chainGroups)
  let st :=
    if st.graphGroupEnabled ∧ 0 < commonGroups.length then { st with
      curGroup := st.curGroup ++ [j], chainGroups := commonGroups, ctxGroupEnabled := false }
    else st
  if st.ctxGroupEnabled ∧ (s.task t).chain.firstNodeSv = (s.task j).chain.firstNodeSv then
    { st with curGroup := st.curGroup ++ [j], graphGroupEnabled := false }
  else st

/-- The group of a task, from the rest of the queue.  The models of the tasks are not compared. -/
def formGroup (t : TaskRef) (rest : List TaskRef) : List TaskRef :=
  (rest.foldl (s.groupTask t) {
    curGroup := [t]
    chainGroups := (s.task t).chain.chainGroups
    graphGroupEnabled := s.config.graphGroup
    ctxGroupEnabled := s.config.ctxGroup }).curGroup

/-- The loop of `schedule` over the queue. -/
def scheduleLoop : List TaskRef → GlobalScheduler → Except PyError GlobalScheduler
  | [], s => .ok s
  | t :: rest, s =>
      if (s.task t).isScheduled then scheduleLoop rest s
      else
        match s.findEngine (s.formGroup t rest) with
        | .error e => .error e
        | .ok s => scheduleLoop rest s

/-- The queue in the order of a pass: with `app_fifo`, deeper outputs first. -/
def sortedQueue : List TaskRef :=
  if s.config.appFifo then
    s.taskQueue.insertionSort fun a b => (s.task b).chain.depth ≤ (s.task a).chain.depth
  else s.taskQueue

/-- `schedule`. -/
def schedule : Except PyError GlobalScheduler :=
  match scheduleLoop s.sortedQueue s with
  | .error e => .error e
  | .ok s' => .ok { s' with taskQueue := s.sortedQueue.filter fun t => !(s'.task t).isScheduled }

/-! ### Submitting and leaving -/

/-- The message of a full queue. -/
def queueIsFull : PyError :=
  .userError ("Task queue is full. Current size: " ++ toString s.taskQueue.length ++
    ". Hence the incoming task is rejected.")

/-- `submit_task`. -/
def submitTask (t : TaskRef) : Except PyError GlobalScheduler :=
  if s.config.maxQueueSize ≤ s.taskQueue.length then .error s.queueIsFull
  else .ok { s with taskQueue := s.taskQueue ++ [t] }

/-- A new task with the next id. -/
def createTask (chain : TaskChain) (tasksNumUpperbound : ℕ) :
    Except PyError (TaskRef × GlobalScheduler) :=
  match s.taskIdPool.allocate with
  | (.error e, _) => .error e
  | (.ok taskId, pool) =>
      .ok (s.nextTask, { s with
        task := Function.update s.task s.nextTask { taskId, chain, tasksNumUpperbound }
        nextTask := s.nextTask + 1
        taskIdPool := pool })

/-- What the coroutine of a chain does before it waits for the scheduler: create a task, tokenize
it, submit it.  In between it waits for the inputs, so tasks are numbered here by submission.  A
task that is rejected is not heard of again. -/
def submitChain (chain : TaskChain) (tasksNumUpperbound : ℕ) : Except PyError GlobalScheduler :=
  match s.createTask chain tasksNumUpperbound with
  | .error _ => .ok s
  | .ok (t, s) =>
      match (s.task t).tokenizeChain s.engineMgr.tokenizersWrapper with
      | .error _ => .ok s
      | .ok task =>
          let s := { s with task := Function.update s.task t task }
          match s.submitTask t with
          | .error _ => .ok s
          | .ok s => .ok s

/-- `leave_scheduled`. -/
def leaveScheduled (t : TaskRef) : Except PyError GlobalScheduler :=
  match (s.task t).engine with
  | none => .error .attributeError
  | some g =>
      match (s.engine g).removeTask (s.task t) with
      | .error e => .error e
      | .ok engine =>
          .ok { s with engineMgr := s.engineMgr.setEngine g engine, left := t :: s.left }

/-- `TaskCreator.free_task`. -/
def freeTask (t : TaskRef) : Except PyError GlobalScheduler :=
  match s.taskIdPool.free (s.task t).taskId with
  | (.error e, _) => .error e
  | (.ok (), pool) => leaveScheduled { s with taskIdPool := pool } t

/-! ## Runs of the scheduler -/

/-- What can happen to the scheduler, its tasks and its engines. -/
inductive Action
  | engineMgr (a : EngineManager.Action)
  /-- Contexts of tasks are set and freed: the prefix caches of the engines change. -/
  | cachePrefixes (caches : ℕ → PrefixCache)
  | submitChain (chain : TaskChain) (tasksNumUpperbound : ℕ)
  /-- A later activation adds the chain of a task to a group. -/
  | joinGroup (t : TaskRef) (group : ℕ)
  | schedule
  | freeTask (t : TaskRef)

/-- A task is freed once, after it was scheduled. -/
def Enabled : Action → Prop
  | .freeTask t => (s.task t).isScheduled = true ∧ t ∉ s.left
  | _ => True

instance : ∀ a, Decidable (s.Enabled a)
  | .freeTask t => inferInstanceAs (Decidable ((s.task t).isScheduled = true ∧ t ∉ s.left))
  | .engineMgr _ => inferInstanceAs (Decidable True)
  | .cachePrefixes _ => inferInstanceAs (Decidable True)
  | .submitChain _ _ => inferInstanceAs (Decidable True)
  | .joinGroup _ _ => inferInstanceAs (Decidable True)
  | .schedule => inferInstanceAs (Decidable True)

/-- A call of the engine manager.  Engines register and send heartbeats over HTTP, and the core
survives their exceptions; the other calls are made by its own coroutines. -/
def callEngineMgr (fromPretrained : Text → Except PyError HFTokenizer) (a : EngineManager.Action) :
    Except PyError GlobalScheduler :=
  match a, EngineManager.perform fromPretrained s.engineMgr a with
  | .registerEngine _ _, (_, m) => .ok { s with engineMgr := m }
  | .engineHeartbeat _ _ _, (_, m) => .ok { s with engineMgr := m }
  | _, (.ok (), m) => .ok { s with engineMgr := m }
  | _, (.error e, _) => .error e

/-- The effect of an action. -/
def apply (fromPretrained : Text → Except PyError HFTokenizer) :
    Action → Except PyError GlobalScheduler
  | .engineMgr a => s.callEngineMgr fromPretrained a
  | .cachePrefixes caches =>
      let contextMgr := s.engineMgr.contextMgr
      .ok { s with engineMgr := { s.engineMgr with contextMgr := { contextMgr with
        prefixCaches := fun e => (contextMgr.prefixCaches e).map fun _ => caches e } } }
  | .submitChain chain tasksNumUpperbound => s.submitChain chain tasksNumUpperbound
  | .joinGroup t group =>
      let task := s.task t
      .ok { s with task := Function.update s.task t { task with chain := { task.chain with
        chainGroups := task.chain.chainGroups ++ [group] } } }
  | .schedule => s.schedule
  | .freeTask t => s.freeTask t

/-- Every order of these actions. -/
def system (fromPretrained : Text → Except PyError HFTokenizer) (config : GlobalSchedulerConfig)
    (engineHeartbeatTimeout : ℤ) : TransitionSystem GlobalScheduler Action :=
  .ofExcept (start config engineHeartbeatTimeout) Enabled fun s a => s.apply fromPretrained a

end GlobalScheduler

end ParrotServe
