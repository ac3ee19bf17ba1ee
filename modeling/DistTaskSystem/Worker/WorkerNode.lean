import DistTaskSystem.Worker.WorkerService

/-!
# DTS — executing a task

`WorkerNode::OnTaskReceived` looks the handler of a task up and leaves the execution to
the thread pool. Whichever way a task ends, the worker tells the scheduler through
`SchedulerClient::UpdateTaskStatus`, whose last three parameters have defaults.

## Results

* `reports_once` — the one report of a task.
-/

namespace DistTaskSystem

/-- `SchedulerClient::UpdateTaskStatus`: the request it sends. -/
def SchedulerClient.updateTaskStatus (taskId : String) (state : TaskState) (jobId : String)
    (errorMsg : String := "") (resultJson : String := "") (workerId : String := "") :
    UpdateTaskStatusRequest where
  taskId := taskId
  finalState := state
  errorMsg := errorMsg
  resultJson := resultJson
  jobId := jobId
  workerId := workerId

namespace WorkerNode

/-- How a call of a handler ends. -/
inductive HandlerEnd where
  | returned (resultJson : String)
  /-- a `std::exception`, with its `what` -/
  | threw (what : String)
  | threwOther
deriving DecidableEq, Repr

/-- `TaskHandler`. -/
abbrev TaskHandler := String → HandlerEnd

/-- What a worker runs on. -/
structure ExecEnv where
  /-- `TaskRegistry::Get` -/
  registry : String → Option TaskHandler
  /-- `dump`, or the text of its exception -/
  dump : Json → Except String String
  /-- `enqueue`, or the text of its exception -/
  enqueue : Except String Unit := .ok ()

/-- `final_state`, `result_json_str` and `error_msg`. -/
structure Execution where
  finalState : TaskState := .failed
  resultJsonStr : String := ""
  errorMsg : String := ""
deriving DecidableEq, Repr

/-- The inner `try`: the text of the result is there before the state is set. -/
def runHandler (env : ExecEnv) (task : Task) (handler : TaskHandler) : Execution :=
  match env.dump task.funcParams with
  | .error what => { errorMsg := what }
  | .ok paramsStr =>
    match handler paramsStr with
    | .returned resultJson => { finalState := .success, resultJsonStr := resultJson }
    | .threw what => { errorMsg := what }
    | .threwOther => { errorMsg := "Unknown exception" }

/-- The job that is put into the thread pool. -/
def executeJob (env : ExecEnv) (task : Task) (handler : TaskHandler) : UpdateTaskStatusRequest :=
  let e := runHandler env task handler
  SchedulerClient.updateTaskStatus task.taskId e.finalState task.jobId e.errorMsg e.resultJsonStr

/-- `OnTaskReceived`: the requests it sends itself, and the jobs it leaves to the pool. -/
def onTaskReceived (env : ExecEnv) (workerId : String) (task : Task) :
    List UpdateTaskStatusRequest × List TaskHandler :=
  match env.registry task.funcName with
  | none =>
    ([SchedulerClient.updateTaskStatus task.taskId .failed task.jobId
      "Worker does not have this task function registered" workerId], [])
  | some handler =>
    match env.enqueue with
    | .ok () => ([], [handler])
    | .error what =>
      ([SchedulerClient.updateTaskStatus task.taskId .failed task.jobId
        ("Enqueue failed: " ++ what) workerId], [])

/-- The requests about a task, once the pool has run its job. -/
def reports (env : ExecEnv) (workerId : String) (task : Task) : List UpdateTaskStatusRequest :=
  (onTaskReceived env workerId task).1 ++
    (onTaskReceived env workerId task).2.map (executeJob env task)

-- ---------------------------------------------------------------------------
-- The report
-- ---------------------------------------------------------------------------

/-- Where the worker is done with a task. -/
inductive Reports (env : ExecEnv) (workerId : String) (task : Task) :
    UpdateTaskStatusRequest → Prop
  | unregistered (hnone : env.registry task.funcName = none) :
      Reports env workerId task
        ⟨task.taskId, .failed, "Worker does not have this task function registered", workerId,
          task.jobId, 0, ""⟩
  | notEnqueued (handler : TaskHandler) (what : String)
      (hsome : env.registry task.funcName = some handler) (henqueue : env.enqueue = .error what) :
      Reports env workerId task
        ⟨task.taskId, .failed, "Enqueue failed: " ++ what, workerId, task.jobId, 0, ""⟩
  | executed (handler : TaskHandler) (hsome : env.registry task.funcName = some handler)
      (henqueue : env.enqueue = .ok ()) :
      Reports env workerId task
        ⟨task.taskId, (runHandler env task handler).finalState,
          (runHandler env task handler).errorMsg, (runHandler env task handler).resultJsonStr,
          task.jobId, 0, ""⟩

/-- **Inversion.** Every task is reported once. -/
theorem reports_once (env : ExecEnv) (workerId : String) (task : Task) :
    ∃ request, reports env workerId task = [request] ∧ Reports env workerId task request := by
  unfold reports onTaskReceived
  cases hhandler : env.registry task.funcName with
  | none => exact ⟨_, rfl, .unregistered hhandler⟩
  | some handler =>
    cases henqueue : env.enqueue with
    | ok => exact ⟨_, rfl, .executed handler hhandler henqueue⟩
    | error what => exact ⟨_, rfl, .notEnqueued handler what hhandler henqueue⟩

end WorkerNode

end DistTaskSystem
