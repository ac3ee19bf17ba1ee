import DistTaskSystem.Library.Parties
import DistTaskSystem.Library.Runs
import DistTaskSystem.Scheduler.RowUpdates
import DistTaskSystem.Guarantees.Reports

/-!
# DTS — the number of retries

`HandleTaskFailure` tells its caller to push a task again only if its transaction has
counted a retry of it, and no other statement writes `retry_count`. So the row itself
bounds the retries of every history, whatever duplicate reports, reverts and flushes
there are and whatever becomes of the transactions.

A call of `UpdateTaskStatus` that reports a failure is three steps here, between which
the other parties act: the transaction of `HandleTaskFailure`, the one of `GetTaskById`,
and XADD (`FailureCall`).

## Results

* `report_steps`    — the three steps in a row are `reportFailure`.
* `step_counted`    — what every step keeps.
* `retries_bounded` — the bounds of every run.
-/

namespace DistTaskSystem

open Runs

/-- Where a call of `UpdateTaskStatus` stands after `HandleTaskFailure`. -/
inductive FailureCall where
  /-- it has returned true -/
  | lookup (taskId : String)
  /-- `GetTaskById` has found the task -/
  | push (taskId jobId : String)
  | done
deriving DecidableEq

/-- The stores, and the calls of `UpdateTaskStatus` that report a failure. -/
structure FailureReports where
  db : Db
  redis : Redis
  calls : List FailureCall := []
  /-- the ids for which `HandleTaskFailure` returned true, and those XADD was called
  with: kept for the statements, no function reads them -/
  granted : List String := []
  readded : List String := []

/-- A transaction of a scheduler, or a command. -/
inductive FailureEvent where
  | handleTaskFailure (outcome : TxOutcome) (now : Int) (request : UpdateTaskStatusRequest)
  /-- the i-th call goes on -/
  | getTaskById (i : Nat) (outcome : TxOutcome)
  | xadd (i : Nat) (outcome : ReplyOutcome)
  | updateTaskToRunning (outcome : TxOutcome) (now : Int) (taskId workerId : String)
  | revertTaskToPending (outcome : TxOutcome) (taskId : String)
  | requeueOrphanedTasks (outcome : TxOutcome) (deadWorkerId : String)
  | flushBatch (env : FlushEnv) (batch : List TaskUpdateOp)
  /-- somebody else writes to Redis -/
  | redis (r : Redis)

/-- The JSON functions of the repository and of the server. -/
structure JsonEnv where
  parse : String → Except JsonError Json
  jsonbIn : String → Option String

namespace FailureReports

def step (json : JsonEnv) (s : FailureReports) : FailureEvent → Option FailureReports
  | .handleTaskFailure outcome now request =>
    let (needRetry, db) := handleTaskFailure outcome now request.taskId request.errorMsg
      request.retryCount s.db
    some { s with
      db := db
      calls := if needRetry then s.calls ++ [.lookup request.taskId] else s.calls
      granted := if needRetry then s.granted ++ [request.taskId] else s.granted }
  | .getTaskById i outcome =>
    match s.calls[i]? with
    | some (.lookup taskId) =>
      match getTaskById json.parse outcome taskId s.db with
      | some task => some { s with calls := s.calls.set i (.push task.taskId task.jobId) }
      | none => some { s with calls := s.calls.set i .done }
    | _ => none
  | .xadd i outcome =>
    match s.calls[i]? with
    | some (.push taskId jobId) => some { s with
        redis := (redisCall outcome (xadd kTasks (toXAddArgs taskId jobId)) s.redis).2
        calls := s.calls.set i .done
        readded := s.readded ++ [taskId] }
    | _ => none
  | .updateTaskToRunning outcome now taskId workerId =>
    some { s with db := (updateTaskToRunning outcome now taskId workerId s.db).2 }
  | .revertTaskToPending outcome taskId =>
    some { s with db := (revertTaskToPending outcome taskId s.db).2 }
  | .requeueOrphanedTasks outcome deadWorkerId =>
    some { s with db := (requeueOrphanedTasks outcome deadWorkerId s.db).2 }
  | .flushBatch env batch =>
    some { s with db := DistTaskSystem.flushBatch json.jsonbIn env batch s.db }
  | .redis r => some { s with redis := r }

/-- The calls of `HandleTaskFailure` about a task that returned true. -/
def grantedTo (s : FailureReports) (id : Uuid) : Nat :=
  s.granted.countP fun taskId => uuidIn (paramText taskId) = some id

/-- The calls of XADD with a task. -/
def readdedOf (s : FailureReports) (id : Uuid) : Nat :=
  s.readded.countP fun taskId => taskId = id.text

/-- The call may still push the task. -/
def owes (id : Uuid) : FailureCall → Bool
  | .lookup taskId => uuidIn (paramText taskId) = some id
  | .push taskId _ => taskId = id.text
  | .done => false

-- ---------------------------------------------------------------------------
-- The steps and the function
-- ---------------------------------------------------------------------------

/-- The steps of a call that nobody interrupts. -/
def callEvents (faults : CallFaults) (now : Int) (request : UpdateTaskStatusRequest)
    (needRetry found : Bool) : List FailureEvent :=
  .handleTaskFailure faults.handleTaskFailure now request ::
    (if needRetry then .getTaskById 0 faults.getTaskById ::
      (if found then [.xadd 0 faults.xadd] else []) else [])

/-- **The steps in a row are the function.** -/
theorem report_steps (svc : SchedulerService) (jsonbIn : String → Option String)
    (faults : CallFaults) (now : Int) (request : UpdateTaskStatusRequest) (s : SchedulerState) :
    ∃ needRetry found t,
      run (step ⟨svc.parse, jsonbIn⟩) { db := s.db, redis := s.redis }
        (callEvents faults now request needRetry found) = some t ∧
      t.db = (reportFailure svc faults now request s).db ∧
      t.redis = (reportFailure svc faults now request s).redis := by
  unfold reportFailure
  generalize hresult : handleTaskFailure faults.handleTaskFailure now request.taskId
    request.errorMsg request.retryCount s.db = result
  obtain ⟨needRetry, db⟩ := result
  have hfirst : step ⟨svc.parse, jsonbIn⟩ { db := s.db, redis := s.redis }
      (.handleTaskFailure faults.handleTaskFailure now request) = some {
        db := db
        redis := s.redis
        calls := if needRetry then [.lookup request.taskId] else []
        granted := if needRetry then [request.taskId] else [] } := by
    rw [step, hresult]
    rfl
  cases needRetry with
  | false => exact ⟨false, false, _, run_cons.mpr ⟨_, hfirst, rfl⟩, rfl, rfl⟩
  | true =>
    simp only [if_true] at hfirst ⊢
    let asked : FailureReports :=
      ⟨db, s.redis, [.lookup request.taskId], [request.taskId], []⟩
    cases htask : getTaskById svc.parse faults.getTaskById request.taskId db with
    | none =>
      have hsecond : step ⟨svc.parse, jsonbIn⟩ asked (.getTaskById 0 faults.getTaskById) =
          some { asked with calls := [.done] } := by
        simp [step, asked, htask]
      exact ⟨true, false, _, run_cons.mpr ⟨_, hfirst, run_cons.mpr ⟨_, hsecond, rfl⟩⟩, rfl, rfl⟩
    | some task =>
      have hsecond : step ⟨svc.parse, jsonbIn⟩ asked (.getTaskById 0 faults.getTaskById) =
          some { asked with calls := [.push task.taskId task.jobId] } := by
        simp [step, asked, htask]
      exact ⟨true, true, _, run_cons.mpr ⟨_, hfirst, run_cons.mpr ⟨_, hsecond,
        run_cons.mpr ⟨_, rfl, rfl⟩⟩⟩, rfl, rfl⟩

-- ---------------------------------------------------------------------------
-- The invariant
-- ---------------------------------------------------------------------------

/-- The row pays for the retries: what it has counted since is at least the number of
calls that returned true, and each of these pushes the task at most once. -/
structure Counted (id : Uuid) (row₀ : TaskRow) (s : FailureReports) : Prop where
  row : ∃ row, s.db.task? id = some row ∧ row.maxRetry = row₀.maxRetry ∧
    row.run.retryCount.val ≤ row.maxRetry.val ∧
    s.grantedTo id + row₀.run.retryCount.val ≤ row.run.retryCount.val
  pushes : s.readdedOf id + s.calls.countP (owes id) ≤ s.grantedTo id

variable {json : JsonEnv} {id : Uuid} {row₀ : TaskRow} {s t : FailureReports}

/-- An update that leaves the retry count alone. -/
theorem Counted.updates (h : s.Counted id row₀) {db : Db}
    (hdb : s.db.Updates (fun row run => run.retryCount = row.run.retryCount) db) :
    ({ s with db := db } : FailureReports).Counted id row₀ := by
  obtain ⟨row, hrow, hmax, hle, hpaid⟩ := h.row
  obtain ⟨run, hrow', hcount⟩ := hdb.row id row hrow
  refine ⟨⟨_, hrow', hmax, ?_, ?_⟩, h.pushes⟩
  · rw [hcount]
    exact hle
  · rw [hcount]
    exact hpaid

instance (taskId : String) (id : Uuid) : Decidable (addresses taskId id) :=
  inferInstanceAs (Decidable (_ = _))

theorem granted_snoc (id : Uuid) (granted : List String) (taskId : String) :
    (granted ++ [taskId]).countP (fun taskId => uuidIn (paramText taskId) = some id) =
      granted.countP (fun taskId => uuidIn (paramText taskId) = some id) +
        if addresses taskId id then 1 else 0 := by
  rw [List.countP_append, List.countP_singleton]
  simp only [decide_eq_true_eq, addresses]
  congr

theorem calls_snoc (id : Uuid) (calls : List FailureCall) (taskId : String) :
    (calls ++ [FailureCall.lookup taskId]).countP (owes id) =
      calls.countP (owes id) + if addresses taskId id then 1 else 0 := by
  rw [List.countP_append, List.countP_singleton]
  simp only [owes, decide_eq_true_eq, addresses]
  congr

/-- A failure raises the count by at most one, and not above the limit. -/
theorem afterFailure_retryCount {row : TaskRow}
    (hle : row.run.retryCount.val ≤ row.maxRetry.val) (now : Int) (errorMsg : String) :
    row.run.retryCount.val ≤ (row.afterFailure now errorMsg).retryCount.val ∧
      (row.afterFailure now errorMsg).retryCount.val ≤ row.maxRetry.val := by
  by_cases hleft : row.run.retryCount.val < row.maxRetry.val
  · have hcount := (row.afterFailure_retried hleft now errorMsg).2
    omega
  · have hcount : (row.afterFailure now errorMsg).retryCount = row.run.retryCount := by
      rw [TaskRow.afterFailure, dif_neg hleft]
      rfl
    rw [hcount]
    exact ⟨le_refl _, hle⟩

/-- **HandleTaskFailure** counts whenever it returns true, and never above the limit. -/
theorem Counted.handleTaskFailure (h : s.Counted id row₀) {outcome : TxOutcome} {now : Int}
    {request : UpdateTaskStatusRequest}
    (hstep : step json s (.handleTaskFailure outcome now request) = some t) :
    t.Counted id row₀ := by
  obtain ⟨row, hrow, hmax, hle, hpaid⟩ := h.row
  have hpushes := h.pushes
  rw [step] at hstep
  generalize hresult : DistTaskSystem.handleTaskFailure outcome now request.taskId request.errorMsg
    request.retryCount s.db = result at hstep
  obtain ⟨needRetry, db⟩ := result
  obtain rfl := Option.some.inj hstep
  by_cases haddress : addresses request.taskId id
  · obtain ⟨hanswer, hdb⟩ := handleTaskFailure_row haddress hrow outcome now request.errorMsg
      request.retryCount
    rw [hresult] at hanswer hdb
    cases needRetry with
    | true =>
      -- the count has gone up with the answer
      simp only [eq_comm (a := true), Bool.and_eq_true, decide_eq_true_eq] at hanswer
      obtain ⟨rfl, hleft⟩ := hanswer
      have hcount := (row.afterFailure_retried hleft now request.errorMsg).2
      have hgranted := granted_snoc id s.granted request.taskId
      have hcalls := calls_snoc id s.calls request.taskId
      rw [if_pos haddress] at hgranted hcalls
      refine ⟨⟨_, hdb, hmax, ?_, ?_⟩, ?_⟩
      · show (row.afterFailure now request.errorMsg).retryCount.val ≤ row.maxRetry.val
        omega
      · show ((s.granted ++ [request.taskId]).countP _ : Int) + _ ≤
          (row.afterFailure now request.errorMsg).retryCount.val
        rw [hgranted, hcount]
        push_cast
        exact (add_right_comm _ _ _).le.trans (Int.add_le_add_right hpaid 1)
      · show s.readdedOf id + (s.calls ++ [FailureCall.lookup request.taskId]).countP (owes id) ≤
          (s.granted ++ [request.taskId]).countP _
        rw [hgranted, hcalls, ← add_assoc]
        exact Nat.succ_le_succ hpushes
    | false =>
      obtain ⟨hge, hle'⟩ := afterFailure_retryCount hle now request.errorMsg
      by_cases hkept : outcome.kept = true
      · rw [if_pos hkept] at hdb
        exact ⟨⟨_, hdb, hmax, hle', hpaid.trans hge⟩, hpushes⟩
      · rw [if_neg hkept] at hdb
        exact ⟨⟨_, hdb, hmax, hle, hpaid⟩, hpushes⟩
  · have hdb : (DistTaskSystem.handleTaskFailure outcome now request.taskId request.errorMsg
        request.retryCount s.db).2.task? id = s.db.task? id :=
      handleTaskFailure_other haddress outcome now request.errorMsg request.retryCount
    rw [hresult, hrow] at hdb
    cases needRetry with
    | true =>
      -- the answer is about another task
      have hgranted := granted_snoc id s.granted request.taskId
      have hcalls := calls_snoc id s.calls request.taskId
      rw [if_neg haddress, add_zero] at hgranted hcalls
      refine ⟨⟨row, hdb, hmax, hle, ?_⟩, ?_⟩
      · show ((s.granted ++ [request.taskId]).countP _ : Int) + _ ≤ _
        rw [hgranted]
        exact hpaid
      · show s.readdedOf id + (s.calls ++ [FailureCall.lookup request.taskId]).countP (owes id) ≤
          (s.granted ++ [request.taskId]).countP _
        rw [hgranted, hcalls]
        exact hpushes
    | false => exact ⟨⟨row, hdb, hmax, hle, hpaid⟩, hpushes⟩

/-- `GetTaskById` finds a task by its own id. -/
theorem getTaskById_addresses {db : Db} {parse : String → Except JsonError Json}
    {outcome : TxOutcome} {taskId : String} {task : Task}
    (h : getTaskById parse outcome taskId db = some task) (hid : task.taskId = id.text) :
    addresses taskId id := by
  rw [getTaskById] at h
  cases htx : getTaskByIdTx parse taskId db with
  | error e =>
    rw [executeTx_error htx] at h
    cases h
  | ok result =>
    obtain ⟨found, db'⟩ := result
    rw [executeTx_returned htx] at h
    obtain ⟨id', hcast, htx⟩ := Fallible.bind_eq_ok.mp htx
    have haddress : addresses taskId id' := castUuid_eq_ok.mp hcast
    have hfound : found = some task := by
      split at h
      · exact h
      · cases h
    subst hfound
    cases hrow : db.task? id' with
    | none =>
      rw [hrow] at htx
      cases htx
    | some row =>
      rw [hrow] at htx
      obtain ⟨_, -, htx⟩ := Fallible.bind_eq_ok.mp htx
      obtain ⟨_, -, htx⟩ := Fallible.bind_eq_ok.mp htx
      obtain ⟨_, -, htx⟩ := Fallible.bind_eq_ok.mp htx
      obtain ⟨_, -, htx⟩ := Fallible.bind_eq_ok.mp htx
      obtain ⟨_, -, htx⟩ := Fallible.bind_eq_ok.mp htx
      have htask := Option.some.inj (Prod.mk.inj (Except.ok.inj htx)).1
      rw [← htask] at hid
      have hrowId : row.taskId = id := Uuid.text_inj.mp hid
      rw [← hrowId, Db.task?_taskId hrow]
      exact haddress

/-- **Step lemma.** -/
theorem step_counted {e : FailureEvent} (h : s.Counted id row₀)
    (hstep : step json s e = some t) : t.Counted id row₀ := by
  cases e with
  | handleTaskFailure outcome now request => exact h.handleTaskFailure hstep
  | getTaskById i outcome =>
    rw [step] at hstep
    split at hstep
    · next taskId hcall =>
      split at hstep
      · next task htask =>
        obtain rfl := Option.some.inj hstep
        refine ⟨h.row, ?_⟩
        have hset := Parties.countP_set (owes id) (x := .push task.taskId task.jobId) hcall
        have hpushes := h.pushes
        by_cases hid : task.taskId = id.text
        · have haddress := getTaskById_addresses htask hid
          have hlookup : owes id (.lookup taskId) = true := decide_eq_true haddress
          have hpush : owes id (.push task.taskId task.jobId) = true := decide_eq_true hid
          rw [if_pos hlookup, if_pos hpush] at hset
          show s.readdedOf id + (s.calls.set i _).countP (owes id) ≤ s.grantedTo id
          omega
        · have hpush : ¬ owes id (.push task.taskId task.jobId) = true := by simpa [owes] using hid
          rw [if_neg hpush] at hset
          show s.readdedOf id + (s.calls.set i _).countP (owes id) ≤ s.grantedTo id
          omega
      · obtain rfl := Option.some.inj hstep
        refine ⟨h.row, ?_⟩
        have hset := Parties.countP_set (owes id) (x := .done) hcall
        have hpushes := h.pushes
        have hdone : ¬ owes id .done = true := Bool.false_ne_true
        rw [if_neg hdone] at hset
        show s.readdedOf id + (s.calls.set i _).countP (owes id) ≤ s.grantedTo id
        omega
    · exact nomatch hstep
  | xadd i outcome =>
    rw [step] at hstep
    split at hstep
    · next taskId jobId hcall =>
      obtain rfl := Option.some.inj hstep
      refine ⟨h.row, ?_⟩
      have hset := Parties.countP_set (owes id) (x := .done) hcall
      have hpushes := h.pushes
      have hdone : ¬ owes id .done = true := Bool.false_ne_true
      have hreadded : (s.readded ++ [taskId]).countP (fun taskId => taskId = id.text) =
          s.readdedOf id + if owes id (.push taskId jobId) then 1 else 0 := by
        rw [List.countP_append, List.countP_singleton]
        rfl
      rw [if_neg hdone] at hset
      show (s.readded ++ [taskId]).countP (fun taskId => taskId = id.text) +
        (s.calls.set i _).countP (owes id) ≤ s.grantedTo id
      rw [hreadded]
      omega
    · exact nomatch hstep
  | updateTaskToRunning outcome now taskId workerId =>
    obtain rfl := Option.some.inj hstep
    refine h.updates ((updateTaskToRunning_updates outcome now s.db taskId workerId).imp ?_)
    rintro row run (rfl | ⟨-, worker, rfl⟩)
    · rfl
    · rfl
  | revertTaskToPending outcome taskId =>
    obtain rfl := Option.some.inj hstep
    refine h.updates ((revertTaskToPending_updates outcome s.db taskId).imp ?_)
    rintro row run (rfl | rfl)
    · rfl
    · rfl
  | requeueOrphanedTasks outcome deadWorkerId =>
    obtain rfl := Option.some.inj hstep
    refine h.updates ((requeueOrphanedTasks_updates outcome s.db deadWorkerId).imp ?_)
    rintro row run (rfl | rfl)
    · rfl
    · rfl
  | flushBatch env batch =>
    obtain rfl := Option.some.inj hstep
    refine h.updates ((flushBatch_updates s.db json.jsonbIn env batch).imp ?_)
    rintro row run (rfl | ⟨op, -, w, -, -, rfl⟩)
    · rfl
    · rfl
  | redis r =>
    obtain rfl := Option.some.inj hstep
    exact ⟨h.row, h.pushes⟩

/-- **Bounded retries.** For every row whose count is within its limit and every
interleaving of the calls: the count stays within the limit, `HandleTaskFailure` returns
true at most as often as there are retries left, and the task is pushed again at most
that often. -/
theorem retries_bounded {db : Db} {redis : Redis} {row : TaskRow} {events : List FailureEvent}
    (hrow : db.task? id = some row) (hle : row.run.retryCount.val ≤ row.maxRetry.val)
    (hrun : run (step json) { db := db, redis := redis } events = some s) :
    (∃ row', s.db.task? id = some row' ∧ row'.maxRetry = row.maxRetry ∧
      row'.run.retryCount.val ≤ row'.maxRetry.val) ∧
    (s.grantedTo id : Int) ≤ row.maxRetry.val - row.run.retryCount.val ∧
    (s.readdedOf id : Int) ≤ row.maxRetry.val - row.run.retryCount.val := by
  have hstart : ({ db := db, redis := redis } : FailureReports).Counted id row :=
    ⟨⟨row, hrow, rfl, hle, by simp [grantedTo]⟩, le_refl 0⟩
  have hcounted := run_invariant (fun u e v h hstep => step_counted h hstep) hrun hstart
  obtain ⟨row', hrow', hmax, hle', hpaid⟩ := hcounted.row
  have hpushes := hcounted.pushes
  have hmax' : row'.maxRetry.val = row.maxRetry.val := congrArg Subtype.val hmax
  exact ⟨⟨row', hrow', hmax, hle'⟩, by omega, by omega⟩

def failuresOfA : FailureReports where
  db := dbA stateRunning (some "w")
  redis := .empty

/-- The task is reported four times, the second time while the first call is under way; one
reply of XADD is lost, and a success is flushed in between. -/
def fourFailures : List FailureEvent :=
  [.handleTaskFailure .committed 0 failureA, .handleTaskFailure .committed 1 failureA,
    .getTaskById 0 .committed, .updateTaskToRunning .committed 2 taskA.text "v",
    .xadd 0 .lost, .flushBatch {} [⟨taskA.text, .success, "1", "", "w"⟩],
    .handleTaskFailure .committed 3 failureA, .getTaskById 1 .committed, .xadd 1 .answered,
    .handleTaskFailure .committed 4 failureA, .requeueOrphanedTasks .committed "v"]

/-- Three of the four are granted a retry, which is all the task has. -/
theorem retries_bounded_four : ∃ s : FailureReports,
    run (step ⟨fullService.parse, some⟩) failuresOfA fourFailures = some s ∧
    s.granted = [taskA.text, taskA.text, taskA.text] ∧ s.readded = [taskA.text, taskA.text] ∧
    (s.grantedTo taskA : Int) ≤ 3 - 0 ∧ (s.readdedOf taskA : Int) ≤ 3 - 0 := by
  have hrow : failuresOfA.db.task? taskA = some (rowA stateRunning (some "w")) := rfl
  obtain ⟨s, hrun, hseen⟩ : ∃ s : FailureReports,
      run (step ⟨fullService.parse, some⟩) failuresOfA fourFailures = some s ∧
        (s.granted, s.readded) =
          ([taskA.text, taskA.text, taskA.text], [taskA.text, taskA.text]) :=
    Option.map_eq_some_iff.mp (by decide +kernel)
  obtain ⟨hgranted, hreadded⟩ := Prod.mk.inj hseen
  have hbounds := retries_bounded hrow (by decide) hrun
  exact ⟨s, hrun, hgranted, hreadded, hbounds.2.1, hbounds.2.2⟩

end FailureReports

end DistTaskSystem
