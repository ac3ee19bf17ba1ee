import DistTaskSystem.Common.CompleteTask
import DistTaskSystem.Scheduler.DbBatcher
import DistTaskSystem.Scheduler.TaskRepository

/-!
# DTS — status reports

`SchedulerServiceImpl::UpdateTaskStatus`: a SUCCESS report runs the completion
script and queues the status for the batcher, any other report goes through
`HandleTaskFailure` and pushes the task again if it is to be retried. Every
call the function makes can fail on its own (`CallFaults`).
-/

namespace DistTaskSystem

/-- How a Redis command ends. -/
inductive ReplyOutcome where
  | answered
  /-- executed, but the reply is lost -/
  | lost
  /-- never executed -/
  | refused
deriving DecidableEq, Repr

/-- A wrapper of `RedisManager`: every failure becomes `nullopt`. -/
def redisCall {α : Type} (outcome : ReplyOutcome) (cmd : RedisM α) (r : Redis) : Option α × Redis :=
  match outcome with
  | .answered => ((cmd r).1.toOption, (cmd r).2)
  | .lost => (none, (cmd r).2)
  | .refused => (none, r)

/-- The stores the function writes. -/
structure SchedulerState where
  redis : Redis
  db : Db
  /-- the queue of the batcher -/
  queue : List TaskUpdateOp
  /-- the completion scripts that have run to their end, by task and job: kept
  for the statements, no function reads it -/
  scripts : List (String × String) := []

/-- The service's collaborators: which of them were given to the constructor,
and the two functions of the JSON library and of Redis that are not determined
by the program. -/
structure SchedulerService where
  hasRepository : Bool
  hasBatcher : Bool
  parse : String → Except JsonError Json

/-- What happens to each of the calls. -/
structure CallFaults where
  evalSha : ReplyOutcome := .answered
  handleTaskFailure : TxOutcome := .committed
  getTaskById : TxOutcome := .committed
  xadd : ReplyOutcome := .answered

/-- A `grpc::Status`; the response's header never carries an error. -/
inductive RpcStatus where
  | ok
  | internal (msg : String)
deriving DecidableEq, Repr

/-- Branch 1 of `UpdateTaskStatus`. -/
def reportSuccess (svc : SchedulerService) (faults : CallFaults) (ord : MembersOrder)
    (request : UpdateTaskStatusRequest) (s : SchedulerState) : SchedulerState :=
  let script := completeTask ord request.taskId request.jobId
  { s with
    redis := (redisCall faults.evalSha script s.redis).2
    scripts :=
      if faults.evalSha ≠ .refused ∧ (script s.redis).1.isOk then
        s.scripts ++ [(request.taskId, request.jobId)]
      else s.scripts
    -- a failed script is only logged
    queue :=
      if svc.hasBatcher then
        addStatusUpdate s.queue request.taskId request.finalState request.resultJson
          request.errorMsg request.workerId
      else s.queue }

/-- Branch 2 of `UpdateTaskStatus`, with a repository. -/
def reportFailure (svc : SchedulerService) (faults : CallFaults) (now : Int)
    (request : UpdateTaskStatusRequest) (s : SchedulerState) : SchedulerState :=
  let (needRetry, db) := handleTaskFailure faults.handleTaskFailure now request.taskId
    request.errorMsg request.retryCount s.db
  if needRetry then
    match getTaskById svc.parse faults.getTaskById request.taskId db with
    | some task =>
      { s with
        db := db
        redis := (redisCall faults.xadd (xadd kTasks (toXAddArgs task.taskId task.jobId))
          s.redis).2 }
    | none => { s with db := db }
  else { s with db := db }

/-- `UpdateTaskStatus`. -/
def updateTaskStatus (svc : SchedulerService) (faults : CallFaults) (ord : MembersOrder)
    (now : Int) (request : UpdateTaskStatusRequest) (s : SchedulerState) :
    RpcStatus × SchedulerState :=
  if request.taskId = "" then (.ok, s)
  else if request.finalState = .success then (.ok, reportSuccess svc faults ord request s)
  else if svc.hasRepository then (.ok, reportFailure svc faults now request s)
  else (.internal "TaskRepo missing", s)

/-! ## What a report does -/

/-- A wrapper executes the command unless the server is not reached. -/
theorem redisCall_state {α : Type} (outcome : ReplyOutcome) (cmd : RedisM α) (r : Redis) :
    (redisCall outcome cmd r).2 = if outcome = .refused then r else (cmd r).2 := by
  cases outcome <;> rfl

/-- A command that fails leaves nothing, whatever becomes of the reply. -/
theorem redisCall_error {α : Type} (outcome : ReplyOutcome) {cmd : RedisM α} {r : Redis}
    {e : RedisError} (h : cmd r = (.error e, r)) : redisCall outcome cmd r = (none, r) := by
  cases outcome with
  | answered =>
    rw [redisCall, h]
    rfl
  | lost =>
    rw [redisCall, h]
  | refused => rfl

/-- What `GetTaskById` reads of a row once its retry count has gone up. -/
structure TaskRow.Retriable (parse : String → Except JsonError Json) (row : TaskRow) : Prop where
  left : row.run.retryCount.val < row.maxRetry.val
  priority : 0 ≤ row.priority.val
  retryCount : 0 ≤ row.run.retryCount.val + 1
  timeoutMs : 0 ≤ row.timeoutMs.val
  funcParams : ∃ j, parseParams parse row.funcParams = .ok j

/-- A row that may be retried is reset and counts up. -/
theorem TaskRow.afterFailure_retried {row : TaskRow}
    (hleft : row.run.retryCount.val < row.maxRetry.val) (now : Int) (errorMsg : String) :
    (row.afterFailure now errorMsg).state = statePending ∧
      (row.afterFailure now errorMsg).retryCount.val = row.run.retryCount.val + 1 := by
  unfold TaskRow.afterFailure
  rw [dif_pos hleft]
  exact ⟨rfl, rfl⟩

theorem TaskRow.afterFailure_failed {row : TaskRow}
    (hlast : ¬ row.run.retryCount.val < row.maxRetry.val) (now : Int) (errorMsg : String) :
    (row.afterFailure now errorMsg).state = stateFailed := by
  unfold TaskRow.afterFailure
  rw [dif_neg hlast]
  rfl

theorem TaskRow.retriable_iff {parse : String → Except JsonError Json} {row : TaskRow}
    (hleft : row.run.retryCount.val < row.maxRetry.val) (now : Int) (errorMsg : String) :
    ({ row with run := row.afterFailure now errorMsg } : TaskRow).Readable parse ↔
      row.Retriable parse := by
  have hcount := (row.afterFailure_retried hleft now errorMsg).2
  constructor
  · rintro ⟨hpriority, -, hretry, htimeout, hparams⟩
    rw [hcount] at hretry
    exact ⟨hleft, hpriority, hretry, htimeout, hparams⟩
  · rintro ⟨-, hpriority, hretry, htimeout, hparams⟩
    -- the bound is above the count, so it is not negative either
    refine ⟨hpriority, ?_, by rw [hcount]; exact hretry, htimeout, hparams⟩
    show 0 ≤ row.maxRetry.val
    omega

/-- The calls after which a failed task is pushed again. -/
structure PushesAgain (svc : SchedulerService) (faults : CallFaults) (row : TaskRow) (r : Redis) :
    Prop where
  row : row.Retriable svc.parse
  handleTaskFailure : faults.handleTaskFailure = .committed
  getTaskById : faults.getTaskById = .committed
  xadd : faults.xadd ≠ .refused
  tasks : r.IsStream kTasks

section Reports

variable (svc : SchedulerService) (faults : CallFaults) (now : Int)
  {request : UpdateTaskStatusRequest} {s : SchedulerState} {id : Uuid} {row : TaskRow}

theorem addresses_ne_empty {taskId : String} (h : addresses taskId id) : taskId ≠ "" := by
  rintro rfl
  unfold addresses at h
  rw [show uuidIn (paramText "") = none by decide] at h
  exact absurd h (by simp)

/-- **A failure report on its row**: the row goes through `HandleTaskFailure`,
and the task stream gains an entry for the task if every call works. -/
theorem reportFailure_row (h : addresses request.taskId id) (hrow : s.db.task? id = some row) :
    (reportFailure svc faults now request s).db.task? id =
        some (if faults.handleTaskFailure.kept then
          { row with run := row.afterFailure now request.errorMsg } else row) ∧
      (PushesAgain svc faults row s.redis →
        ∃ jobId, (reportFailure svc faults now request s).redis =
          (xadd kTasks (toXAddArgs id.text jobId) s.redis).2) ∧
      (¬ PushesAgain svc faults row s.redis →
        (reportFailure svc faults now request s).redis = s.redis) := by
  obtain ⟨hanswer, hdb⟩ := handleTaskFailure_row h hrow faults.handleTaskFailure now
    request.errorMsg request.retryCount
  unfold reportFailure
  generalize hrun : handleTaskFailure faults.handleTaskFailure now request.taskId request.errorMsg
    request.retryCount s.db = result at hanswer hdb
  obtain ⟨needRetry, db⟩ := result
  dsimp only at hanswer hdb ⊢
  by_cases hretry : faults.handleTaskFailure = .committed ∧
      row.run.retryCount.val < row.maxRetry.val
  · obtain ⟨hcommitted, hleft⟩ := hretry
    have hneed : needRetry = true := by simp [hanswer, hcommitted, hleft]
    rw [hcommitted, TxOutcome.kept] at hdb
    simp only [decide_true, Bool.true_or, if_true] at hdb
    obtain ⟨hfound, hmissing⟩ := getTaskById_row h hdb svc.parse faults.getTaskById
    rw [row.retriable_iff hleft now request.errorMsg] at hfound hmissing
    rw [if_pos hneed]
    by_cases hlookup : faults.getTaskById = .committed ∧ row.Retriable svc.parse
    · -- the row is found again: XADD decides
      obtain ⟨task, htask, hid, -⟩ := hfound hlookup
      rw [htask]
      refine ⟨by rw [hcommitted]; exact hdb, fun hpush => ⟨task.jobId, ?_⟩, fun hpush => ?_⟩
      · show (redisCall faults.xadd _ s.redis).2 = _
        rw [redisCall_state, if_neg hpush.xadd, hid]
      · show (redisCall faults.xadd _ s.redis).2 = _
        rw [redisCall_state]
        by_cases hrefused : faults.xadd = .refused
        · rw [if_pos hrefused]
        · have htype : ¬ s.redis.IsStream kTasks := fun htype =>
            hpush ⟨hlookup.2, hcommitted, hlookup.1, hrefused, htype⟩
          obtain ⟨e, he⟩ := xadd_error htype (toXAddArgs task.taskId task.jobId)
          rw [if_neg hrefused, he]
    · rw [hmissing hlookup]
      exact ⟨by rw [hcommitted]; exact hdb,
        fun hpush => absurd ⟨hpush.getTaskById, hpush.row⟩ hlookup, fun _ => rfl⟩
  · have hneed : needRetry = false := by
      rw [hanswer]
      simp only [Bool.and_eq_false_iff, decide_eq_false_iff_not]
      exact not_and_or.mp hretry
    rw [hneed]
    exact ⟨hdb, fun hpush => absurd ⟨hpush.handleTaskFailure, hpush.row.left⟩ hretry,
      fun _ => rfl⟩

theorem reportFailure_noRetry (h : (handleTaskFailure faults.handleTaskFailure now request.taskId
    request.errorMsg request.retryCount s.db).1 = false) :
    (reportFailure svc faults now request s).redis = s.redis := by
  unfold reportFailure
  generalize handleTaskFailure faults.handleTaskFailure now request.taskId request.errorMsg
    request.retryCount s.db = result at h
  obtain ⟨needRetry, db⟩ := result
  obtain rfl : needRetry = false := h
  rfl

/-- The stream gains at most one entry, for the task the report addresses. -/
theorem reportFailure_redis (request : UpdateTaskStatusRequest) (s : SchedulerState) :
    (reportFailure svc faults now request s).redis = s.redis ∨
      ∃ task jobId, addresses request.taskId task ∧ s.redis.IsStream kTasks ∧
        (reportFailure svc faults now request s).redis =
          (xadd kTasks (toXAddArgs task.text jobId) s.redis).2 := by
  cases hid : uuidIn (paramText request.taskId) with
  | none =>
    -- the cast of the parameter throws, which `HandleTaskFailure` hides
    left
    have htx : handleTaskFailureTx now request.taskId request.errorMsg s.db =
        .error .invalidText := by
      rw [handleTaskFailureTx, castUuid, hid]
      rfl
    apply reportFailure_noRetry
    rw [handleTaskFailure, executeTx_error htx]
    rfl
  | some task =>
    cases hrow : s.db.task? task with
    | none =>
      left
      have htx : handleTaskFailureTx now request.taskId request.errorMsg s.db =
          .ok (false, s.db) := by
        rw [handleTaskFailureTx, castUuid_eq hid]
        simp only [bind, Except.bind, hrow]
        rfl
      apply reportFailure_noRetry
      rw [handleTaskFailure, executeTx_returned htx]
      split <;> rfl
    | some row =>
      obtain ⟨-, hpush, hstay⟩ := reportFailure_row svc faults now hid hrow
      by_cases h : PushesAgain svc faults row s.redis
      · obtain ⟨jobId, hredis⟩ := hpush h
        exact .inr ⟨task, jobId, hid, h.tasks, hredis⟩
      · exact .inl (hstay h)

end Reports

end DistTaskSystem
