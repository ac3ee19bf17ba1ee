import DistTaskSystem.Common.Schema
import DistTaskSystem.Common.Task
import Mathlib.Data.List.AList

/-!
# DTS — the job query handler

`job_query_handler.cpp`: the tasks of a job, the state of each (from the runtime
hashes in Redis, and for those that are missing from the table `task`) and the
state of the job. What Redis answers to the query is `QueryCache`; the handler
writes neither store.

## Results

* `safeStringToInt_toString` — a number that was written in decimal is read back.
* `readReplies_eq`           — the replies are split into details and misses.
* `selectDetails_error`      — the fallback query is refused by the schema.
* `countStates_eq`           — the counters count the states.
-/

namespace DistTaskSystem

/-! ## SafeStringToInt -/

/-- The digits that follow an optional minus. -/
def splitSign : List Char → Bool × List Char
  | '-' :: rest => (true, rest)
  | text => (false, text)

/-- `std::from_chars` for an `int`: the longest run of digits is read, and what follows
it is ignored. -/
def fromChars (text : List Char) : Option Int :=
  let (negative, rest) := splitSign text
  let digits := rest.takeWhile Char.isDigit
  if digits = [] then none
  else
    let magnitude : Int := Nat.ofDigitChars 10 digits 0
    let value := if negative then -magnitude else magnitude
    if -2 ^ 31 ≤ value ∧ value < 2 ^ 31 then some value else none

def safeStringToInt (text : String) (defaultVal : Int := 0) : Int :=
  if text = "" then defaultVal else (fromChars text.toList).getD defaultVal

/-! ## Messages -/

/-- `static_cast<TaskState>` of an `int`. -/
def TaskState.ofInt (n : Int) : TaskState :=
  if n = 0 then .pending
  else if n = 1 then .running
  else if n = 2 then .success
  else if n = 3 then .failed
  else if n = 4 then .timeout
  else if n = 5 then .cancelled
  else if n = 6 then .waitingDeps
  else .unrecognized n

/-- `dts.task.JobState`. -/
inductive JobState where
  | unknown
  | pending
  | running
  | success
  | failed
deriving DecidableEq, Repr

/-- The message `dts.task.TaskRuntimeDetail`. -/
structure TaskRuntimeDetail where
  taskId : String
  state : TaskState := .pending
  workerId : String := ""
  errorMessage : String := ""
  retryCount : Int := 0
  resultPayload : String := ""
deriving DecidableEq, Repr

/-- The message `dts.service.GetJobStatusRequest`. -/
structure GetJobStatusRequest where
  jobId : String
  includeTasks : Bool

/-- The job errors the handler sets. -/
inductive JobErr where
  | jobNotFound (msg : String)
deriving DecidableEq, Repr

/-- The message `dts.service.GetJobStatusResponse`. -/
structure GetJobStatusResponse where
  error : Option JobErr := none
  jobId : String
  state : JobState := .unknown
  totalTasks : Nat := 0
  finishedTasks : Nat := 0
  taskDetails : List TaskRuntimeDetail := []
deriving DecidableEq, Repr

/-! ## Redis -/

/-- A hash of texts, as HGETALL answers it; a missing key is the empty one. -/
abbrev RuntimeHash := AList (fun _ : String => String)

/-- What Redis answers to the query. -/
structure QueryCache where
  /-- SMEMBERS of `JobTasks`, or an exception -/
  jobTasks : String → Option (List String)
  /-- the pipeline answers at all -/
  pipelineUp : Bool
  /-- HGETALL of `TaskRuntime`, or the reply of a key of another type -/
  runtime : String → Option RuntimeHash

/-- The state a detail gets from a hash. -/
def runtimeState (hash : RuntimeHash) : TaskState :=
  match hash.lookup "state" with
  | some text => .ofInt (safeStringToInt text)
  | none => .pending

def cachedDetail (needPayload : Bool) (taskId : String) (hash : RuntimeHash) :
    TaskRuntimeDetail where
  taskId := taskId
  state := runtimeState hash
  workerId := (hash.lookup "worker_id").getD ""
  errorMessage := (hash.lookup "error").getD ""
  retryCount := ((hash.lookup "retries").map safeStringToInt).getD 0
  resultPayload := if needPayload then (hash.lookup "result").getD "" else ""

/-- What the loop over the replies leaves: the details it has added, the ids it has
missed, and whether an exception left it. -/
structure Fetched where
  details : List TaskRuntimeDetail
  missed : List String
  thrown : Bool

/-- The loop over the replies. -/
def readReplies (cache : QueryCache) (needPayload : Bool) : List String → Fetched
  | [] => ⟨[], [], false⟩
  | taskId :: rest =>
    match cache.runtime taskId with
    | none => ⟨[], [], true⟩
    | some hash =>
      let fetched := readReplies cache needPayload rest
      if hash.entries.isEmpty then { fetched with missed := taskId :: fetched.missed }
      else { fetched with details := cachedDetail needPayload taskId hash :: fetched.details }

/-! ## PostgreSQL -/

/-- The columns of `public.task` (`init.sql`). -/
def taskColumns : List String :=
  ["task_id", "job_id", "natural_id", "func_name", "func_params", "required", "shard", "state",
    "priority", "retry_count", "max_retry", "timeout_ms", "pending_dependencies", "error_msg",
    "submit_ts", "start_ts", "finish_ts", "client_id", "result", "worker_id"]

/-- How a SELECT is refused. -/
inductive QueryError where
  /-- `undefined_column` -/
  | undefinedColumn (column : String)
  | sql (e : SqlError)
deriving DecidableEq, Repr

/-- The analysis of a select list, before the query is run. -/
def resolveColumns (columns : List String) : Except QueryError Unit :=
  match columns.find? fun column => column ∉ taskColumns with
  | some column => .error (.undefinedColumn column)
  | none => .ok ()

def queryUuid (text : String) : Except QueryError Uuid :=
  (castUuid text).mapError .sql

/-- `row[column].as<std::optional<std::string>>()`. -/
def TaskRow.optText (row : TaskRow) (column : String) : Option String :=
  if column = "worker_id" then row.run.workerId
  else if column = "error_msg" then row.run.errorMsg
  else if column = "result" then row.run.result
  else none

def rowDetail (needPayload : Bool) (row : TaskRow) : TaskRuntimeDetail where
  taskId := row.taskId.text
  state := .ofInt row.run.state.val
  workerId := (row.optText "worker_id").getD ""
  errorMessage := (row.optText "error_msg").getD ""
  retryCount := row.run.retryCount.val
  resultPayload := if needPayload then (row.optText "result_payload").getD "" else ""

/-- The select list of the fallback query. -/
def detailColumns : List String :=
  ["task_id", "state", "worker_id", "error_msg", "result_payload", "retry_count"]

/-- `SELECT ... FROM task WHERE task_id = ANY($1)`, and the loop over its rows. -/
def selectDetails (needPayload : Bool) (missedTaskIds : List String) (db : Db) :
    Except QueryError (List TaskRuntimeDetail × Db) := do
  resolveColumns detailColumns
  let ids ← missedTaskIds.mapM queryUuid
  let rows := db.tasks.filter fun t => t.taskId ∈ ids
  return (rows.map (rowDetail needPayload), db)

/-- `SELECT task_id FROM task WHERE job_id = $1`. -/
def selectTaskIds (jobId : String) (db : Db) : Except QueryError (List String × Db) := do
  resolveColumns ["task_id"]
  let id ← queryUuid (paramText jobId)
  return ((db.tasks.filter fun t => t.jobId = id).map fun t => t.taskId.text, db)

/-! ## The handler -/

/-- What the infrastructure does to the two transactions. -/
structure QueryFaults where
  taskIds : TxOutcome
  details : TxOutcome

/-- `GetTaskIdsFromRedis`: an exception is logged, and leaves the list empty. -/
def getTaskIdsFromRedis (cache : QueryCache) (jobId : String) : List String :=
  (cache.jobTasks jobId).getD []

/-- `GetTaskIdsFromDB`; an exception leaves it. -/
def getTaskIdsFromDB (outcome : TxOutcome) (jobId : String) (db : Db) : Option (List String) :=
  (executeTx outcome (selectTaskIds jobId) db).returned

def getTaskIds (cache : QueryCache) (outcome : TxOutcome) (jobId : String) (db : Db) :
    Option (List String) :=
  match getTaskIdsFromRedis cache jobId with
  | [] => getTaskIdsFromDB outcome jobId db
  | taskIds => some taskIds

/-- The details of the missed tasks. An exception of the transaction is logged; what
the loop had added before a failing commit stays. -/
def fetchMissed (outcome : TxOutcome) (needPayload : Bool) (missedTaskIds : List String)
    (db : Db) : List TaskRuntimeDetail :=
  if missedTaskIds = [] then []
  else ((executeTx outcome (selectDetails needPayload missedTaskIds) db).assigned).getD []

/-- `FetchTaskDetails`. The `try` is around the transaction alone: a reply that cannot be
read leaves the function. -/
def fetchTaskDetails (cache : QueryCache) (outcome : TxOutcome) (needPayload : Bool)
    (taskIds : List String) (db : Db) : Fetched :=
  let fetched := if cache.pipelineUp then readReplies cache needPayload taskIds
    else ⟨[], taskIds, false⟩
  if fetched.thrown then fetched
  else { fetched with
    details := fetched.details ++ fetchMissed outcome needPayload fetched.missed db }

/-- The counters of the aggregation. -/
structure StateCounts where
  success : Nat
  failed : Nat
  running : Nat
  pending : Nat

def StateCounts.count (counts : StateCounts) (detail : TaskRuntimeDetail) : StateCounts :=
  match detail.state with
  | .success => { counts with success := counts.success + 1 }
  | .failed | .timeout | .cancelled => { counts with failed := counts.failed + 1 }
  | .running => { counts with running := counts.running + 1 }
  | _ => { counts with pending := counts.pending + 1 }

def countStates (details : List TaskRuntimeDetail) : StateCounts :=
  details.foldl StateCounts.count ⟨0, 0, 0, 0⟩

/-- The state of a job of `total` tasks. -/
def StateCounts.jobState (counts : StateCounts) (total : Nat) : JobState :=
  if counts.failed > 0 then .failed
  else if counts.running > 0 then .running
  else if counts.success = total then .success
  else if counts.pending = total then .pending
  else .running

/-- A call of `Handle`: the response as it has been filled, and whether an exception left
the call. -/
structure Answered where
  response : GetJobStatusResponse
  thrown : Bool

/-- `JobQueryHandler::Handle`. -/
def handle (cache : QueryCache) (faults : QueryFaults) (db : Db) (req : GetJobStatusRequest) :
    Answered :=
  match getTaskIds cache faults.taskIds req.jobId db with
  | none => ⟨{ jobId := req.jobId }, true⟩
  | some [] =>
    ⟨{ jobId := req.jobId, error := some (.jobNotFound ("Job not found: " ++ req.jobId)) }, false⟩
  | some taskIds =>
    let fetched := fetchTaskDetails cache faults.details req.includeTasks taskIds db
    let response : GetJobStatusResponse :=
      { jobId := req.jobId, totalTasks := taskIds.length, taskDetails := fetched.details }
    if fetched.thrown then ⟨response, true⟩
    else
      let counts := countStates fetched.details
      ⟨{ response with
          finishedTasks := counts.success + counts.failed
          state := counts.jobState taskIds.length }, false⟩

-- ---------------------------------------------------------------------------
-- Reading a number back
-- ---------------------------------------------------------------------------

theorem takeWhile_toDigits (n : Nat) :
    (Nat.toDigits 10 n).takeWhile Char.isDigit = Nat.toDigits 10 n := by
  refine List.takeWhile_eq_self_iff.mpr fun c hc => ?_
  exact Nat.isDigit_of_mem_toDigits (by decide) (by decide) hc

theorem splitSign_toDigits (n : Nat) :
    splitSign (Nat.toDigits 10 n) = (false, Nat.toDigits 10 n) := by
  unfold splitSign
  split
  · next rest h =>
    have hminus : '-' ∈ Nat.toDigits 10 n := by
      rw [h]
      exact List.mem_cons_self
    exact absurd (Nat.isDigit_of_mem_toDigits (by decide) (by decide) hminus) (by decide)
  · rfl

/-- **A number that was written in decimal is read back**, if it is an `int`. -/
theorem safeStringToInt_toString {v : Int} (h : -2 ^ 31 ≤ v ∧ v < 2 ^ 31) :
    safeStringToInt (toString v) = v := by
  cases v with
  | ofNat n =>
    have htext : (toString (Int.ofNat n)).toList = Nat.toDigits 10 n := Nat.toList_repr
    have hne : toString (Int.ofNat n) ≠ "" := Nat.repr_ne_empty
    rw [safeStringToInt, if_neg hne, htext, fromChars, splitSign_toDigits]
    simp only [takeWhile_toDigits, Nat.toDigits_ne_nil, if_false, Nat.ofDigitChars_ten_toDigits,
      Bool.false_eq_true]
    have hvalue : ((n : Nat) : Int) = Int.ofNat n := rfl
    rw [hvalue, if_pos h]
    rfl
  | negSucc n =>
    have htext : (toString (Int.negSucc n)).toList = '-' :: Nat.toDigits 10 (n + 1) := by
      show ("-" ++ (n + 1).repr).toList = _
      rw [String.toList_append, Nat.toList_repr]
      rfl
    have hne : toString (Int.negSucc n) ≠ "" := by
      intro hempty
      rw [hempty] at htext
      exact absurd htext (by simp)
    rw [safeStringToInt, if_neg hne, htext, fromChars, splitSign]
    simp only [takeWhile_toDigits, Nat.toDigits_ne_nil, if_false, Nat.ofDigitChars_ten_toDigits,
      if_true]
    have hvalue : -((n + 1 : Nat) : Int) = Int.negSucc n := rfl
    rw [hvalue, if_pos h]
    rfl

-- ---------------------------------------------------------------------------
-- The replies
-- ---------------------------------------------------------------------------

/-- **The replies are split** into the details of the hashes that are there and the ids
of those that are not. -/
theorem readReplies_eq {cache : QueryCache} {hash : String → RuntimeHash} (needPayload : Bool)
    {taskIds : List String} (h : ∀ t ∈ taskIds, cache.runtime t = some (hash t)) :
    readReplies cache needPayload taskIds =
      ⟨(taskIds.filter fun t => !(hash t).entries.isEmpty).map fun t =>
          cachedDetail needPayload t (hash t),
        taskIds.filter fun t => (hash t).entries.isEmpty, false⟩ := by
  induction taskIds with
  | nil => rfl
  | cons t rest ih =>
    have hrest := ih fun t' ht' => h t' (List.mem_cons_of_mem _ ht')
    rw [readReplies, h t List.mem_cons_self]
    simp only [hrest]
    by_cases hempty : (hash t).entries.isEmpty
    · rw [if_pos hempty]
      simp [hempty]
    · rw [if_neg hempty]
      simp [hempty]

-- ---------------------------------------------------------------------------
-- The fallback
-- ---------------------------------------------------------------------------

/-- The table has no column `result_payload`. -/
theorem resolveColumns_detailColumns :
    resolveColumns detailColumns = .error (.undefinedColumn "result_payload") := by decide

/-- **The fallback query is refused**, whatever it looks for. -/
theorem selectDetails_error (needPayload : Bool) (missedTaskIds : List String) (db : Db) :
    selectDetails needPayload missedTaskIds db = .error (.undefinedColumn "result_payload") := by
  rw [selectDetails, resolveColumns_detailColumns]
  rfl

theorem fetchMissed_eq (outcome : TxOutcome) (needPayload : Bool) (missedTaskIds : List String)
    (db : Db) : fetchMissed outcome needPayload missedTaskIds db = [] := by
  rw [fetchMissed, executeTx_error (selectDetails_error needPayload missedTaskIds db)]
  split <;> rfl

-- ---------------------------------------------------------------------------
-- The counters
-- ---------------------------------------------------------------------------

/-- A task that has ended without success. -/
def TaskState.isFailed : TaskState → Bool
  | .failed | .timeout | .cancelled => true
  | _ => false

/-- A task that has ended. -/
def TaskState.isFinished (state : TaskState) : Bool :=
  state = .success || state.isFailed

/-- A task that has not started. -/
def TaskState.isPending (state : TaskState) : Bool :=
  !state.isFinished && state ≠ .running

theorem foldl_count (details : List TaskRuntimeDetail) (counts : StateCounts) :
    details.foldl StateCounts.count counts =
      ⟨counts.success + details.countP fun d => d.state = .success,
        counts.failed + details.countP fun d => d.state.isFailed,
        counts.running + details.countP fun d => d.state = .running,
        counts.pending + details.countP fun d => d.state.isPending⟩ := by
  induction details generalizing counts with
  | nil => rfl
  | cons d rest ih =>
    rw [List.foldl_cons, ih]
    simp only [List.countP_cons]
    cases hstate : d.state <;>
      simp [StateCounts.count, hstate, TaskState.isFailed, TaskState.isFinished,
        TaskState.isPending] <;> omega

/-- **The counters count the states.** -/
theorem countStates_eq (details : List TaskRuntimeDetail) :
    countStates details =
      ⟨details.countP fun d => d.state = .success, details.countP fun d => d.state.isFailed,
        details.countP fun d => d.state = .running, details.countP fun d => d.state.isPending⟩ := by
  rw [countStates, foldl_count]
  simp only [Nat.zero_add]

end DistTaskSystem
