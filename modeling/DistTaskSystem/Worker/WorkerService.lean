import DistTaskSystem.Common.Task

/-!
# DTS — the worker's side of a dispatch

`WorkerServiceImpl::RunTask` converts the message and hands the task to its
submitter, which is `WorkerNode::OnTaskReceived`. Only a request without a task
is answered with an error: whatever goes wrong afterwards is logged, and the
answer is the one of a task that was taken.

## Results

* `runTask_error`  — a request with a task is never refused.
* `runTask_handed` — when the task reaches `OnTaskReceived`.
-/

namespace DistTaskSystem

/-- The codes of `dts.error.SysErr` a worker sends. -/
inductive SysErr where
  | sysInvalidParam
deriving DecidableEq, Repr

/-- `dts.error.Error` in a header. -/
structure RpcError where
  sys : SysErr
  msg : String
deriving DecidableEq, Repr

/-- The message `dts.internal.RunTaskRequest`. -/
structure RunTaskRequest where
  task : Option PbTask

/-- The header of `dts.internal.RunTaskResponse`. -/
structure RunTaskResponse where
  requestId : String := ""
  error : Option RpcError := none
deriving DecidableEq, Repr

/-- The exceptions that come from outside the modelled code, such as
`std::bad_alloc`: out of the conversion, and out of `OnTaskReceived`. -/
structure RunTaskFaults where
  convert : Bool := false
  submit : Bool := false

/-- `RunTask`: the response, and the task that the submitter is called with, if it
is. Its exceptions are caught, too. -/
def runTask (parse : String → Except JsonError Json) (hasSubmitter : Bool) (faults : RunTaskFaults)
    (request : RunTaskRequest) : RunTaskResponse × Option Task :=
  match request.task with
  | none => ({ error := some ⟨.sysInvalidParam, "RunTaskRequest missing task field"⟩ }, none)
  | some pbTask =>
    let handed :=
      if faults.convert then none
      else match taskFromProto parse pbTask with
        | .error _ => none
        | .ok task => if hasSubmitter then some task else none
    ({ requestId := pbTask.taskId }, handed)

/-- `OnTaskReceived`: what the worker has to execute or to report afterwards. -/
def onTaskReceived (faults : RunTaskFaults) (task : Task) : List Task :=
  if faults.submit then [] else [task]

/-- What has to go well for a task to reach `OnTaskReceived`. -/
structure Hands (parse : String → Except JsonError Json) (hasSubmitter : Bool)
    (faults : RunTaskFaults) (pbTask : PbTask) : Prop where
  submitter : hasSubmitter = true
  convert : faults.convert = false
  parsed : ∃ task, taskFromProto parse pbTask = .ok task

/-- A request with a task is never refused. -/
theorem runTask_error (parse : String → Except JsonError Json) (hasSubmitter : Bool)
    (faults : RunTaskFaults) (pbTask : PbTask) :
    (runTask parse hasSubmitter faults ⟨some pbTask⟩).1 = { requestId := pbTask.taskId } := rfl

/-- **What a worker hands on** is the task of the message, and it does so exactly
if the conversion does not throw and there is a submitter. -/
theorem runTask_handed {parse : String → Except JsonError Json} {hasSubmitter : Bool}
    {faults : RunTaskFaults} {pbTask : PbTask} {task : Task} :
    (runTask parse hasSubmitter faults ⟨some pbTask⟩).2 = some task ↔
      Hands parse hasSubmitter faults pbTask ∧ taskFromProto parse pbTask = .ok task := by
  unfold runTask
  dsimp only
  constructor
  · intro h
    split at h
    · exact nomatch h
    · next hconvert =>
      cases hparsed : taskFromProto parse pbTask with
      | error e =>
        rw [hparsed] at h
        exact nomatch h
      | ok task' =>
        rw [hparsed] at h
        dsimp only at h
        rw [Option.ite_none_right_eq_some] at h
        obtain ⟨hsubmitter, htask⟩ := h
        refine ⟨⟨hsubmitter, Bool.eq_false_iff.mpr hconvert, task', hparsed⟩, ?_⟩
        rw [Option.some.inj htask]
  · rintro ⟨⟨hsubmitter, hconvert, -⟩, hparsed⟩
    rw [hconvert, hparsed, hsubmitter]
    rfl

theorem runTask_hands {parse : String → Except JsonError Json} {hasSubmitter : Bool}
    {faults : RunTaskFaults} {pbTask : PbTask} (h : Hands parse hasSubmitter faults pbTask) :
    ∃ task, taskFromProto parse pbTask = .ok task ∧
      (runTask parse hasSubmitter faults ⟨some pbTask⟩).2 = some task := by
  obtain ⟨task, htask⟩ := h.parsed
  exact ⟨task, htask, runTask_handed.mpr ⟨h, htask⟩⟩

end DistTaskSystem
