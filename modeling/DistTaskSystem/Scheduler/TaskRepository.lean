import DistTaskSystem.Common.Schema
import DistTaskSystem.Common.Task

/-!
# DTS — the task repository

The statements of `task_repository.cpp`. Each function runs one transaction
and hides its failure behind the value it returns; the outcome the
infrastructure gives the transaction is an argument. `now` is
`EXTRACT(EPOCH FROM NOW())`, in seconds.
-/

namespace DistTaskSystem

/-! ## HandleTaskFailure -/

/-- The columns after a failure that is to be retried. -/
def retriedRun (errorMsg : String) (retryCount : SmallInt) (run : TaskRun) : TaskRun :=
  { run with
    state := statePending
    retryCount := retryCount
    workerId := none
    startTs := none
    finishTs := none
    errorMsg := some (paramText errorMsg) }

/-- The columns after the last failure. -/
def failedRun (now : Int) (errorMsg : String) (run : TaskRun) : TaskRun :=
  { run with
    state := stateFailed
    finishTs := some now
    errorMsg := some (paramText errorMsg) }

/-- The logic of the transaction; the answer is `retrying`. -/
def handleTaskFailureTx (now : Int) (taskId errorMsg : String) (db : Db) :
    Except SqlError (Bool × Db) := do
  let id ← castUuid (paramText taskId)
  match db.task? id with
  | none => return (false, db)
  | some row =>
    if row.run.retryCount.val < row.maxRetry.val then
      let retryCount ← castSmallInt (row.run.retryCount.val + 1)
      return (true, db.updateTasks fun t =>
        if t.taskId = id then retriedRun errorMsg retryCount t.run else t.run)
    else
      return (false, db.updateTasks fun t =>
        if t.taskId = id then failedRun now errorMsg t.run else t.run)

/-- `HandleTaskFailure`. The retry count the worker reports is not used. -/
def handleTaskFailure (outcome : TxOutcome) (now : Int) (taskId errorMsg : String)
    (_workerReportedRetry : Int) (db : Db) : Bool × Db :=
  let result := executeTx outcome (handleTaskFailureTx now taskId errorMsg) db
  (result.returned.getD false, result.db)

/-! ## GetTaskById -/

/-- `as<uint32_t>()`. -/
def asUint32 (v : Int) : Except SqlError UInt32 :=
  if 0 ≤ v ∧ v < 2 ^ 32 then .ok (UInt32.ofNat v.toNat) else .error .outOfRange

/-- `nlohmann::json::parse` of a non-empty column. -/
def parseParams (parse : String → Except JsonError Json) (funcParams : Option String) :
    Except SqlError Json :=
  match funcParams with
  | none => .ok .null
  | some text =>
    if text = "" then .ok .null
    else match parse text with
      | .ok j => .ok j
      | .error _ => .error .invalidText

def getTaskByIdTx (parse : String → Except JsonError Json) (taskId : String) (db : Db) :
    Except SqlError (Option Task × Db) := do
  let id ← castUuid (paramText taskId)
  match db.task? id with
  | none => return (none, db)
  | some row =>
    let priority ← asUint32 row.priority.val
    let maxRetry ← asUint32 row.maxRetry.val
    let retryCount ← asUint32 row.run.retryCount.val
    let timeoutMs ← asUint32 row.timeoutMs.val
    let funcParams ← parseParams parse row.funcParams
    return (some {
      taskId := row.taskId.text
      jobId := row.jobId.text
      naturalId := row.naturalId
      funcName := row.funcName
      priority := priority
      maxRetry := maxRetry
      retryCount := retryCount
      timeoutMs := timeoutMs
      funcParams := funcParams }, db)

/-- `GetTaskById`. -/
def getTaskById (parse : String → Except JsonError Json) (outcome : TxOutcome) (taskId : String)
    (db : Db) : Option Task :=
  (executeTx outcome (getTaskByIdTx parse taskId) db).returned.join

/-! ## The other updates -/

def updateTaskToRunningTx (now : Int) (taskId workerId : String) (db : Db) :
    Except SqlError (Bool × Db) := do
  let id ← castUuid (paramText taskId)
  let worker ← castVarchar255 (paramText workerId)
  return (decide (∃ row ∈ db.tasks, row.taskId = id ∧ row.run.state = statePending),
    db.updateTasks fun t =>
      if t.taskId = id ∧ t.run.state = statePending then
        { t.run with state := stateRunning, workerId := some worker, startTs := some now }
      else t.run)

/-- `UpdateTaskToRunning`. The count of the statement is returned also when the
commit fails. -/
def updateTaskToRunning (outcome : TxOutcome) (now : Int) (taskId workerId : String) (db : Db) :
    Bool × Db :=
  let result := executeTx outcome (updateTaskToRunningTx now taskId workerId) db
  (result.assigned.getD false, result.db)

def revertTaskToPendingTx (taskId : String) (db : Db) : Except SqlError (Unit × Db) := do
  let id ← castUuid (paramText taskId)
  return ((), db.updateTasks fun t =>
    if t.taskId = id then
      { t.run with state := statePending, workerId := none, startTs := none }
    else t.run)

/-- `RevertTaskToPending`. -/
def revertTaskToPending (outcome : TxOutcome) (taskId : String) (db : Db) : Bool × Db :=
  let result := executeTx outcome (revertTaskToPendingTx taskId) db
  (!result.thrown, result.db)

def requeueOrphanedTasksTx (deadWorkerId : String) (db : Db) : Except SqlError (Nat × Db) :=
  let orphaned (t : TaskRow) : Bool :=
    decide (t.run.workerId = some (paramText deadWorkerId) ∧ t.run.state = stateRunning)
  .ok (db.tasks.countP orphaned, db.updateTasks fun t =>
    if orphaned t then { t.run with state := statePending, workerId := none, startTs := none }
    else t.run)

/-- `RequeueOrphanedTasks`. As above, the count survives a failing commit. -/
def requeueOrphanedTasks (outcome : TxOutcome) (deadWorkerId : String) (db : Db) : Nat × Db :=
  let result := executeTx outcome (requeueOrphanedTasksTx deadWorkerId) db
  (result.assigned.getD 0, result.db)

/-! ## What the calls do to one row -/

/-- The task a text parameter addresses. -/
def addresses (taskId : String) (id : Uuid) : Prop := uuidIn (paramText taskId) = some id

/-- The id of a task addresses it. -/
theorem addresses_text (id : Uuid) : addresses id.text id := by
  unfold addresses
  rw [paramText_eq id.nul_notMem, uuidIn_text]

section Rows

variable {db : Db} {id : Uuid} {row : TaskRow} {taskId : String}

theorem castUuid_eq (h : addresses taskId id) : castUuid (paramText taskId) = .ok id := by
  rw [castUuid, h]

/-- A row that may be retried counts up, one that may not is marked. -/
def TaskRow.afterFailure (now : Int) (errorMsg : String) (row : TaskRow) : TaskRun :=
  if h : row.run.retryCount.val < row.maxRetry.val then
    retriedRun errorMsg ⟨row.run.retryCount.val + 1, by
      have := row.run.retryCount.property
      have := row.maxRetry.property
      omega⟩ row.run
  else failedRun now errorMsg row.run

theorem handleTaskFailureTx_eq (h : addresses taskId id) (hrow : db.task? id = some row)
    (now : Int) (errorMsg : String) : ∃ f : TaskRow → TaskRun,
      handleTaskFailureTx now taskId errorMsg db =
        .ok (decide (row.run.retryCount.val < row.maxRetry.val), db.updateTasks f) ∧
      f row = row.afterFailure now errorMsg ∧ ∀ t, t.taskId ≠ id → f t = t.run := by
  have hid := Db.task?_taskId hrow
  rw [handleTaskFailureTx, castUuid_eq h]
  simp only [bind, Except.bind, hrow]
  by_cases hretry : row.run.retryCount.val < row.maxRetry.val
  · have hcount : -2 ^ 15 ≤ row.run.retryCount.val + 1 ∧ row.run.retryCount.val + 1 < 2 ^ 15 := by
      have := row.run.retryCount.property
      have := row.maxRetry.property
      omega
    rw [if_pos hretry, castSmallInt, dif_pos hcount]
    refine ⟨_, by simp only [hretry, decide_true]; rfl, ?_, fun t ht => if_neg ht⟩
    rw [if_pos hid, TaskRow.afterFailure, dif_pos hretry]
  · rw [if_neg hretry]
    refine ⟨_, by simp only [hretry, decide_false]; rfl, ?_, fun t ht => if_neg ht⟩
    rw [if_pos hid, TaskRow.afterFailure, dif_neg hretry]

/-- **HandleTaskFailure on its row.** -/
theorem handleTaskFailure_row (h : addresses taskId id) (hrow : db.task? id = some row)
    (outcome : TxOutcome) (now : Int) (errorMsg : String) (n : Int) :
    (handleTaskFailure outcome now taskId errorMsg n db).1 =
        (decide (outcome = .committed) && decide (row.run.retryCount.val < row.maxRetry.val)) ∧
      (handleTaskFailure outcome now taskId errorMsg n db).2.task? id =
        some (if outcome.kept then { row with run := row.afterFailure now errorMsg } else row) := by
  obtain ⟨f, htx, hf, -⟩ := handleTaskFailureTx_eq h hrow now errorMsg
  rw [handleTaskFailure, executeTx_returned htx, executeTx_db htx]
  constructor
  · cases outcome <;> simp
  · show (if outcome.kept = true then db.updateTasks f else db).task? id = _
    by_cases hkept : outcome.kept = true
    · rw [if_pos hkept, if_pos hkept, Db.task?_updateTasks, hrow, Option.map_some, hf]
    · rw [if_neg hkept, if_neg hkept, hrow]

/-- It leaves every other row alone, whatever its arguments are. -/
theorem handleTaskFailure_other (hother : ¬ addresses taskId id) (outcome : TxOutcome) (now : Int)
    (errorMsg : String) (n : Int) :
    (handleTaskFailure outcome now taskId errorMsg n db).2.task? id = db.task? id := by
  rw [handleTaskFailure]
  cases hid : uuidIn (paramText taskId) with
  | none =>
    rw [executeTx_error (e := .invalidText)]
    rw [handleTaskFailureTx, castUuid, hid]
    rfl
  | some id' =>
    have hne : id' ≠ id := fun heq => hother (heq ▸ hid)
    cases hrow : db.task? id' with
    | none =>
      have htx : handleTaskFailureTx now taskId errorMsg db = .ok (false, db) := by
        rw [handleTaskFailureTx, castUuid_eq hid]
        simp only [bind, Except.bind, hrow]
        rfl
      rw [executeTx_db htx]
      split <;> rfl
    | some row' =>
      obtain ⟨f, htx, -, hf⟩ := handleTaskFailureTx_eq hid hrow now errorMsg
      rw [executeTx_db htx]
      split
      · rw [Db.task?_updateTasks]
        cases hrow' : db.task? id with
        | none => rfl
        | some row =>
          have hrowId := Db.task?_taskId hrow'
          rw [Option.map_some, hf row (by rw [hrowId]; exact Ne.symm hne)]
      · rfl

/-- The conversions of `GetTaskById` succeed on the row. -/
structure TaskRow.Readable (parse : String → Except JsonError Json) (row : TaskRow) : Prop where
  priority : 0 ≤ row.priority.val
  maxRetry : 0 ≤ row.maxRetry.val
  retryCount : 0 ≤ row.run.retryCount.val
  timeoutMs : 0 ≤ row.timeoutMs.val
  funcParams : ∃ j, parseParams parse row.funcParams = .ok j

theorem asUint32_ok {v : Int} (h : 0 ≤ v) (hlt : v < 2 ^ 32) :
    asUint32 v = .ok (UInt32.ofNat v.toNat) := if_pos ⟨h, hlt⟩

theorem asUint32_error {v : Int} (h : ¬ 0 ≤ v) : asUint32 v = .error .outOfRange :=
  if_neg fun hv => h hv.1

theorem asUint32_nonneg {v : Int} {u : UInt32} (h : asUint32 v = .ok u) : 0 ≤ v := by
  by_contra hneg
  exact nomatch (asUint32_error hneg).symm.trans h

theorem getTaskByIdTx_eq (h : addresses taskId id) (hrow : db.task? id = some row)
    (parse : String → Except JsonError Json) : getTaskByIdTx parse taskId db = (do
      let priority ← asUint32 row.priority.val
      let maxRetry ← asUint32 row.maxRetry.val
      let retryCount ← asUint32 row.run.retryCount.val
      let timeoutMs ← asUint32 row.timeoutMs.val
      let funcParams ← parseParams parse row.funcParams
      return (some {
        taskId := row.taskId.text
        jobId := row.jobId.text
        naturalId := row.naturalId
        funcName := row.funcName
        priority := priority
        maxRetry := maxRetry
        retryCount := retryCount
        timeoutMs := timeoutMs
        funcParams := funcParams }, db)) := by
  rw [getTaskByIdTx, castUuid_eq h]
  simp only [bind, Except.bind, hrow]

/-- The transaction on a row that can be read. -/
theorem getTaskByIdTx_readable (h : addresses taskId id) (hrow : db.task? id = some row)
    {parse : String → Except JsonError Json} (hread : row.Readable parse) :
    ∃ task, getTaskByIdTx parse taskId db = .ok (some task, db) ∧
      task.taskId = row.taskId.text ∧ task.jobId = row.jobId.text := by
  have hpriority := row.priority.property
  have hmax := row.maxRetry.property
  have hretry := row.run.retryCount.property
  have htimeout := row.timeoutMs.property
  obtain ⟨j, hj⟩ := hread.funcParams
  rw [getTaskByIdTx_eq h hrow, asUint32_ok hread.priority (by omega),
    asUint32_ok hread.maxRetry (by omega), asUint32_ok hread.retryCount (by omega),
    asUint32_ok hread.timeoutMs (by omega), hj]
  exact ⟨_, rfl, rfl, rfl⟩

/-- On another row some conversion throws. -/
theorem getTaskByIdTx_unreadable (h : addresses taskId id) (hrow : db.task? id = some row)
    {parse : String → Except JsonError Json} (hread : ¬ row.Readable parse) :
    ∃ e, getTaskByIdTx parse taskId db = .error e := by
  cases htx : getTaskByIdTx parse taskId db with
  | error e => exact ⟨e, rfl⟩
  | ok result =>
    rw [getTaskByIdTx_eq h hrow] at htx
    obtain ⟨priority, hpriority, htx⟩ := Fallible.bind_eq_ok.mp htx
    obtain ⟨maxRetry, hmax, htx⟩ := Fallible.bind_eq_ok.mp htx
    obtain ⟨retryCount, hretry, htx⟩ := Fallible.bind_eq_ok.mp htx
    obtain ⟨timeoutMs, htimeout, htx⟩ := Fallible.bind_eq_ok.mp htx
    obtain ⟨j, hj, -⟩ := Fallible.bind_eq_ok.mp htx
    exact absurd ⟨asUint32_nonneg hpriority, asUint32_nonneg hmax, asUint32_nonneg hretry,
      asUint32_nonneg htimeout, j, hj⟩ hread

/-- **GetTaskById on a row it can read** finds its ids, and finds nothing
otherwise. -/
theorem getTaskById_row (h : addresses taskId id) (hrow : db.task? id = some row)
    (parse : String → Except JsonError Json) (outcome : TxOutcome) :
    (outcome = .committed ∧ row.Readable parse →
      ∃ task, getTaskById parse outcome taskId db = some task ∧ task.taskId = id.text ∧
        task.jobId = row.jobId.text) ∧
    (¬ (outcome = .committed ∧ row.Readable parse) →
      getTaskById parse outcome taskId db = none) := by
  constructor
  · rintro ⟨rfl, hread⟩
    obtain ⟨task, htx, htask, hjob⟩ := getTaskByIdTx_readable h hrow hread
    rw [getTaskById, executeTx_returned htx, if_pos rfl]
    exact ⟨task, rfl, by rw [htask, Db.task?_taskId hrow], hjob⟩
  · intro hnot
    by_cases hread : row.Readable parse
    · -- the row is fine, so the transaction is not
      have hcommitted : outcome ≠ .committed := fun heq => hnot ⟨heq, hread⟩
      obtain ⟨task, htx, -⟩ := getTaskByIdTx_readable h hrow hread
      rw [getTaskById, executeTx_returned htx, if_neg hcommitted]
      rfl
    · obtain ⟨e, he⟩ := getTaskByIdTx_unreadable h hrow hread
      rw [getTaskById, executeTx_error he]
      rfl

/-- An UPDATE that assigns the old values to a row keeps it. -/
theorem task?_updateTasks_same (hrow : db.task? id = some row) {f : TaskRow → TaskRun}
    (hf : f row = row.run) : (db.updateTasks f).task? id = some row := by
  rw [Db.task?_updateTasks, hrow, Option.map_some, hf]

/-- `UpdateTaskToRunning` moves only pending rows. -/
theorem updateTaskToRunning_row (hrow : db.task? id = some row)
    (hstate : row.run.state ≠ statePending) (outcome : TxOutcome) (now : Int)
    (taskId workerId : String) :
    (updateTaskToRunning outcome now taskId workerId db).2.task? id = some row := by
  rw [updateTaskToRunning]
  cases htx : updateTaskToRunningTx now taskId workerId db with
  | error e => rwa [executeTx_error htx]
  | ok result =>
    obtain ⟨updated, db'⟩ := result
    have hdb' : db'.task? id = some row := by
      rw [updateTaskToRunningTx] at htx
      cases hid : castUuid (paramText taskId) with
      | error e => simp [hid, bind, Except.bind] at htx
      | ok id' =>
        cases hworker : castVarchar255 (paramText workerId) with
        | error e => simp [hid, hworker, bind, Except.bind] at htx
        | ok worker =>
          simp only [hid, hworker, bind, Except.bind, pure, Except.pure, Except.ok.injEq,
            Prod.mk.injEq] at htx
          rw [← htx.2]
          exact task?_updateTasks_same hrow (if_neg fun hcond => hstate hcond.2)
    rw [executeTx_db htx]
    split
    · exact hdb'
    · exact hrow

/-- `RequeueOrphanedTasks` moves only running rows. -/
theorem requeueOrphanedTasks_row (hrow : db.task? id = some row)
    (hstate : row.run.state ≠ stateRunning) (outcome : TxOutcome) (deadWorkerId : String) :
    (requeueOrphanedTasks outcome deadWorkerId db).2.task? id = some row := by
  have htx : ∃ n f, requeueOrphanedTasksTx deadWorkerId db = .ok (n, db.updateTasks f) ∧
      f row = row.run := ⟨_, _, rfl, by simp [hstate]⟩
  obtain ⟨n, f, htx, hf⟩ := htx
  rw [requeueOrphanedTasks, executeTx_db htx]
  split
  · exact task?_updateTasks_same hrow hf
  · exact hrow

/-- `RevertTaskToPending` resets its row whatever state it is in. -/
theorem revertTaskToPending_row (h : addresses taskId id) (hrow : db.task? id = some row)
    (outcome : TxOutcome) : (revertTaskToPending outcome taskId db).2.task? id =
      some (if outcome.kept then { row with run :=
        { row.run with state := statePending, workerId := none, startTs := none } } else row) := by
  have hid := Db.task?_taskId hrow
  have htx : revertTaskToPendingTx taskId db = .ok ((), db.updateTasks fun t =>
      if t.taskId = id then
        { t.run with state := statePending, workerId := none, startTs := none }
      else t.run) := by
    rw [revertTaskToPendingTx, castUuid_eq h]
    rfl
  rw [revertTaskToPending, executeTx_db htx]
  by_cases hkept : outcome.kept = true
  · simp only [if_pos hkept]
    rw [Db.task?_updateTasks, hrow, Option.map_some, if_pos hid]
  · simp only [if_neg hkept]
    exact hrow

theorem revertTaskToPending_other (hrow : db.task? id = some row)
    (hother : ¬ addresses taskId id) (outcome : TxOutcome) :
    (revertTaskToPending outcome taskId db).2.task? id = some row := by
  have hid := Db.task?_taskId hrow
  rw [revertTaskToPending]
  cases hcast : uuidIn (paramText taskId) with
  | none =>
    rw [executeTx_error (e := .invalidText)]
    · exact hrow
    · rw [revertTaskToPendingTx, castUuid, hcast]
      rfl
  | some id' =>
    have hne : id' ≠ id := fun heq => hother (heq ▸ hcast)
    have htx : revertTaskToPendingTx taskId db = .ok ((), db.updateTasks fun t =>
        if t.taskId = id' then
          { t.run with state := statePending, workerId := none, startTs := none }
        else t.run) := by
      rw [revertTaskToPendingTx, castUuid_eq hcast]
      rfl
    rw [executeTx_db htx]
    split
    · exact task?_updateTasks_same hrow (if_neg (by rw [hid]; exact Ne.symm hne))
    · exact hrow

end Rows

end DistTaskSystem
