import DistTaskSystem.Worker.WorkerNode

/-!
# DTS — what a worker reports

However the execution of a task ends, one report says so. Its ids, its state and its
failure text are right. The id of the worker is another matter: where a handler was
called the argument is missing, and where none was it stands in the place of the result.

## Results

* `Reports.outcome`      — what is right in every report.
* `reports_faithful_iff` — when all of it is.
-/

namespace DistTaskSystem

namespace WorkerNode

/-- How the execution of a task ends. -/
inductive TaskEnd where
  | returned (resultJson : String)
  /-- with the text of the failure -/
  | failed (text : String)
deriving DecidableEq, Repr

def TaskEnd.state : TaskEnd → TaskState
  | .returned _ => .success
  | .failed _ => .failed

def TaskEnd.output : TaskEnd → String
  | .returned resultJson => resultJson
  | .failed _ => ""

def TaskEnd.failure : TaskEnd → String
  | .returned _ => ""
  | .failed text => text

/-- What becomes of a task, from what becomes of its handler. -/
def ExecEnv.taskEnd (env : ExecEnv) (task : Task) : TaskEnd :=
  match env.registry task.funcName, env.enqueue, env.dump task.funcParams with
  | none, _, _ => .failed "Worker does not have this task function registered"
  | some _, .error what, _ => .failed ("Enqueue failed: " ++ what)
  | some _, .ok (), .error what => .failed what
  | some handler, .ok (), .ok paramsStr =>
    match handler paramsStr with
    | .returned resultJson => .returned resultJson
    | .threw what => .failed what
    | .threwOther => .failed "Unknown exception"

/-- The report says what has happened. -/
structure Faithful (workerId : String) (task : Task) (taskEnd : TaskEnd)
    (request : UpdateTaskStatusRequest) : Prop where
  state : request.finalState = .success ↔ ∃ resultJson, taskEnd = .returned resultJson
  taskId : request.taskId = task.taskId
  jobId : request.jobId = task.jobId
  resultJson : request.resultJson = taskEnd.output
  errorMsg : request.errorMsg = taskEnd.failure
  workerId : request.workerId = workerId

variable {env : ExecEnv} {workerId : String} {task : Task} {request : UpdateTaskStatusRequest}

/-- The inner `try` ends as the task does. -/
theorem runHandler_eq {handler : TaskHandler} (hsome : env.registry task.funcName = some handler)
    (henqueue : env.enqueue = .ok ()) :
    runHandler env task handler =
      ⟨(env.taskEnd task).state, (env.taskEnd task).output, (env.taskEnd task).failure⟩ := by
  unfold runHandler ExecEnv.taskEnd
  rw [hsome, henqueue]
  cases env.dump task.funcParams with
  | error what => rfl
  | ok paramsStr =>
    dsimp only
    cases handler paramsStr <;> rfl

/-- **In every report** the ids, the state and the failure text are right. -/
theorem Reports.outcome (h : Reports env workerId task request) :
    request.taskId = task.taskId ∧ request.jobId = task.jobId ∧
      request.finalState = (env.taskEnd task).state ∧
      request.errorMsg = (env.taskEnd task).failure := by
  cases h with
  | unregistered hnone =>
    rw [ExecEnv.taskEnd, hnone]
    exact ⟨rfl, rfl, rfl, rfl⟩
  | notEnqueued handler what hsome henqueue =>
    rw [ExecEnv.taskEnd, hsome, henqueue]
    exact ⟨rfl, rfl, rfl, rfl⟩
  | executed handler hsome henqueue =>
    rw [runHandler_eq hsome henqueue]
    exact ⟨rfl, rfl, rfl, rfl⟩

/-- The worker of a report is missing. Where no handler was called, it stands in the
place of the result. -/
theorem Reports.misplaced (h : Reports env workerId task request) :
    request.workerId = "" ∧ (request.resultJson = (env.taskEnd task).output ∨
      request.resultJson = workerId ∧ (env.taskEnd task).output = "") := by
  cases h with
  | unregistered hnone =>
    rw [ExecEnv.taskEnd, hnone]
    exact ⟨rfl, .inr ⟨rfl, rfl⟩⟩
  | notEnqueued handler what hsome henqueue =>
    rw [ExecEnv.taskEnd, hsome, henqueue]
    exact ⟨rfl, .inr ⟨rfl, rfl⟩⟩
  | executed handler hsome henqueue =>
    rw [runHandler_eq hsome henqueue]
    exact ⟨rfl, .inl rfl⟩

theorem TaskEnd.state_iff {taskEnd : TaskEnd} :
    taskEnd.state = .success ↔ ∃ resultJson, taskEnd = .returned resultJson := by
  cases taskEnd with
  | returned resultJson => exact iff_of_true rfl ⟨resultJson, rfl⟩
  | failed text => exact iff_of_false (fun h => nomatch h) fun ⟨_, h⟩ => nomatch h

/-- **When a report is faithful.** For every task and every end of it: the worker makes
one report, which says what has happened exactly if the worker's id is empty. -/
theorem reports_faithful_iff (env : ExecEnv) (workerId : String) (task : Task) :
    (∃ request, reports env workerId task = [request] ∧
      Faithful workerId task (env.taskEnd task) request) ↔ workerId = "" := by
  obtain ⟨request, hreports, hrequest⟩ := reports_once env workerId task
  obtain ⟨htaskId, hjobId, hstate, herrorMsg⟩ := hrequest.outcome
  obtain ⟨hworkerId, hresult⟩ := hrequest.misplaced
  constructor
  · rintro ⟨request', hreports', hfaithful⟩
    obtain rfl : request = request' := List.singleton_inj.mp (hreports.symm.trans hreports')
    exact hfaithful.workerId.symm.trans hworkerId
  · rintro rfl
    refine ⟨request, hreports, ?_, htaskId, hjobId, ?_, herrorMsg, hworkerId⟩
    · rw [hstate]
      exact TaskEnd.state_iff
    · rcases hresult with hright | ⟨hid, hempty⟩
      · exact hright
      · -- the empty id is where an empty result should be
        exact hid.trans hempty.symm

/-- A worker that knows one function, which gives its parameters back. -/
def echoEnv : ExecEnv where
  registry funcName := if funcName = "echo" then some .returned else none
  dump _ := .ok "{}"

/-- A task that has succeeded is reported without its worker, and one that the worker
does not know with the worker as its result. -/
theorem worker_misplaced :
    reports echoEnv "w" { taskId := "t", jobId := "j", funcName := "echo" } =
        [⟨"t", .success, "", "{}", "j", 0, ""⟩] ∧
      reports echoEnv "w" { taskId := "t", jobId := "j", funcName := "other" } =
        [⟨"t", .failed, "Worker does not have this task function registered", "w", "j", 0, ""⟩] ∧
      ¬ ∃ request, reports echoEnv "w" { taskId := "t", jobId := "j", funcName := "echo" } =
          [request] ∧
        Faithful "w" { taskId := "t", jobId := "j", funcName := "echo" }
          (echoEnv.taskEnd { taskId := "t", jobId := "j", funcName := "echo" }) request := by
  refine ⟨rfl, rfl, ?_⟩
  rintro ⟨request, hreports, hfaithful⟩
  obtain rfl := List.singleton_inj.mp hreports
  exact absurd hfaithful.workerId (by decide)

end WorkerNode

end DistTaskSystem
