import DistTaskSystem.Scheduler.SchedulerService

/-!
# DTS — reports and the flush thread

`UpdateTaskStatus` and the thread of `DbBatcher` work on the same task table:
a failure report reads and writes its row at once, a SUCCESS report queues an
update that overwrites the row when the thread comes to it. `Reporting` is the
system of the two, so that a run is a sequence of reports with the flushes in
some places between them.

## Results

* `Alike`               — two tables that differ only in what a flush writes.
* `Similar.report`       — a report does the same on two such tables.
* `report_task?`        — what a report does to a row.
-/

namespace DistTaskSystem

-- ---------------------------------------------------------------------------
-- The system
-- ---------------------------------------------------------------------------

/-- A report with what happens to the calls it makes. -/
structure StatusReport where
  request : UpdateTaskStatusRequest
  faults : CallFaults := {}
  ord : MembersOrder := .insertion
  now : Int := 0

/-- The stores of the scheduler with the flush thread. -/
structure Reporting where
  redis : Redis
  scripts : List (String × String) := []
  batcher : DbBatcher
  /-- the entries pushed for retries: kept for the statements -/
  readded : List StreamEntry := []

namespace Reporting

def started (redis : Redis) (db : Db) : Reporting := { redis := redis, batcher := .started db }

/-- What a report sees. -/
def sched (s : Reporting) : SchedulerState :=
  { redis := s.redis, db := s.batcher.db, queue := s.batcher.queue, scripts := s.scripts }

/-- One call of `UpdateTaskStatus`. -/
def report (svc : SchedulerService) (r : StatusReport) (s : Reporting) : Reporting :=
  let t := (updateTaskStatus svc r.faults r.ord r.now r.request s.sched).2
  { redis := t.redis
    scripts := t.scripts
    batcher := { s.batcher with
      db := t.db
      queue := t.queue
      enqueued := s.batcher.enqueued ++ t.queue.drop s.batcher.queue.length }
    readded :=
      if r.request.finalState = .success then s.readded
      else s.readded ++
        (t.redis.streamAt kTasks).entries.drop (s.redis.streamAt kTasks).entries.length }

inductive Action where
  | report (r : StatusReport)
  /-- the flush thread, or `Stop` -/
  | batcher (a : BatcherAction)

/-- Updates are queued by reports only. -/
def step (svc : SchedulerService) (jsonbIn : String → Option String) (s : Reporting) :
    Action → Option Reporting
  | .report r => some (s.report svc r)
  | .batcher (.add _) => none
  | .batcher a => (s.batcher.step jsonbIn a).map fun b => { s with batcher := b }

/-- An action of the batcher moves the batcher alone, and adds no update. -/
theorem step_batcher {svc : SchedulerService} {jsonbIn : String → Option String}
    {s t : Reporting} {a : BatcherAction} (h : s.step svc jsonbIn (.batcher a) = some t) :
    (∀ op, a ≠ .add op) ∧ ∃ b, s.batcher.step jsonbIn a = some b ∧ t = { s with batcher := b } := by
  cases a with
  | add op => exact nomatch h
  | _ =>
    rw [step, Option.map_eq_some_iff] at h
    · obtain ⟨b, hb, rfl⟩ := h
      exact ⟨nofun, b, hb, rfl⟩
    · exact nofun

/-- The reports of a run, in order. -/
def reportsOf (actions : List Action) : List StatusReport :=
  actions.filterMap fun a => match a with
    | .report r => some r
    | .batcher _ => none

end Reporting

/-- The update a SUCCESS report queues. -/
def StatusReport.update (r : StatusReport) : TaskUpdateOp :=
  ⟨r.request.taskId, r.request.finalState, r.request.resultJson, r.request.errorMsg,
    r.request.workerId⟩

/-- The report queues an update. -/
def StatusReport.Queues (svc : SchedulerService) (r : StatusReport) : Prop :=
  svc.hasBatcher = true ∧ r.request.finalState = .success ∧ r.request.taskId ≠ ""

/-- The report queues an update of the task. -/
def StatusReport.Finishes (svc : SchedulerService) (r : StatusReport) (id : Uuid) : Prop :=
  r.Queues svc ∧ addresses r.request.taskId id

/-- The report goes through `HandleTaskFailure` on the task, and the transaction
is kept. -/
def StatusReport.FailsTask (svc : SchedulerService) (r : StatusReport) (id : Uuid) : Prop :=
  r.request.finalState ≠ .success ∧ svc.hasRepository = true ∧
    addresses r.request.taskId id ∧ r.faults.handleTaskFailure.kept = true

instance (svc : SchedulerService) (r : StatusReport) : Decidable (r.Queues svc) :=
  inferInstanceAs (Decidable (_ ∧ _))

instance (svc : SchedulerService) (r : StatusReport) (id : Uuid) : Decidable (r.Finishes svc id) :=
  inferInstanceAs (Decidable (_ ∧ uuidIn _ = _))

instance (svc : SchedulerService) (r : StatusReport) (id : Uuid) : Decidable (r.FailsTask svc id) :=
  inferInstanceAs (Decidable (_ ∧ _ ∧ uuidIn _ = _ ∧ _))

-- ---------------------------------------------------------------------------
-- Tables that differ in what a flush writes
-- ---------------------------------------------------------------------------

/-- A row without the columns a flush writes. -/
def TaskRow.core (row : TaskRow) : TaskRow :=
  { row with run := ⟨statePending, row.run.retryCount, none, none, none, none, none⟩ }

theorem TaskRow.core_eq {row row' : TaskRow} (h : row.core = row'.core) :
    row' = { row with run := row'.run } ∧ row'.run.retryCount = row.run.retryCount := by
  cases row
  cases row'
  simp only [core, TaskRow.mk.injEq, TaskRun.mk.injEq, true_and, and_true] at h
  obtain ⟨rfl, rfl, rfl, rfl, rfl, rfl, rfl, rfl, rfl, rfl, hretry⟩ := h
  exact ⟨rfl, hretry.symm⟩

/-- The tables agree on what a flush leaves alone. -/
def Alike (db db' : Db) : Prop :=
  ∀ id, (db.task? id).map TaskRow.core = (db'.task? id).map TaskRow.core

theorem Alike.refl (db : Db) : Alike db db := fun _ => rfl

theorem Alike.symm {db db' : Db} (h : Alike db db') : Alike db' db := fun id => (h id).symm

theorem Alike.trans {db db' db'' : Db} (h : Alike db db') (h' : Alike db' db'') : Alike db db'' :=
  fun id => (h id).trans (h' id)

/-- Both tables have the row or neither has. -/
theorem Alike.cases {db db' : Db} (h : Alike db db') (id : Uuid) :
    (db.task? id = none ∧ db'.task? id = none) ∨
    ∃ row row', db.task? id = some row ∧ db'.task? id = some row' ∧
      row' = { row with run := row'.run } ∧ row'.run.retryCount = row.run.retryCount := by
  have hid := h id
  cases hrow : db.task? id with
  | none =>
    rw [hrow, Option.map_none, eq_comm, Option.map_eq_none_iff] at hid
    exact Or.inl ⟨rfl, hid⟩
  | some row =>
    cases hrow' : db'.task? id with
    | none =>
      rw [hrow, hrow'] at hid
      exact nomatch hid
    | some row' =>
      rw [hrow, hrow', Option.map_some, Option.map_some] at hid
      exact Or.inr ⟨row, row', rfl, rfl, TaskRow.core_eq (Option.some.inj hid)⟩

/-- A committed write keeps the core of its row. -/
theorem StatusWrite.apply_core (now : Int) (w : StatusWrite) (row : TaskRow) :
    ({ row with run := w.apply now row.run } : TaskRow).core = row.core := rfl

/-- **A flush changes no core.** -/
theorem flushBatch_alike (jsonbIn : String → Option String) (env : FlushEnv)
    (batch : List TaskUpdateOp) (db : Db) : Alike (flushBatch jsonbIn env batch db) db := by
  intro id
  cases hrow : db.task? id with
  | none => rw [flushBatch_none hrow]
  | some row =>
    by_cases hcommit : env.Commits jsonbIn batch
    · rcases flushBatch_row hcommit hrow with ⟨_, _, w, _, _, hflush⟩ | ⟨-, hflush⟩
      · rw [hflush, Option.map_some, Option.map_some, w.apply_core]
      · rw [hflush]
    · rw [flushBatch_fails hcommit, hrow]

-- ---------------------------------------------------------------------------
-- The repository on such tables
-- ---------------------------------------------------------------------------

section Repository

variable {db db' : Db}

/-- **HandleTaskFailure on any row.** -/
theorem handleTaskFailure_task? (outcome : TxOutcome) (now : Int) (taskId errorMsg : String)
    (n : Int) (db : Db) (id : Uuid) :
    (handleTaskFailure outcome now taskId errorMsg n db).2.task? id =
      (db.task? id).map fun row =>
        if uuidIn (paramText taskId) = some id ∧ outcome.kept = true then
          { row with run := row.afterFailure now errorMsg }
        else row := by
  by_cases haddr : addresses taskId id
  · cases hrow : db.task? id with
    | some row =>
      obtain ⟨-, hafter⟩ := handleTaskFailure_row haddr hrow outcome now errorMsg n
      have hcond : (uuidIn (paramText taskId) = some id ∧ outcome.kept = true) ↔
          outcome.kept = true := and_iff_right haddr
      rw [hafter, Option.map_some]
      simp only [hcond]
    | none =>
      have htx : handleTaskFailureTx now taskId errorMsg db = .ok (false, db) := by
        rw [handleTaskFailureTx, castUuid_eq haddr]
        simp only [bind, Except.bind, hrow]
        rfl
      rw [handleTaskFailure, executeTx_db htx, ite_self, hrow, Option.map_none]
  · have hcond : ¬ (uuidIn (paramText taskId) = some id ∧ outcome.kept = true) :=
      fun h => haddr h.1
    rw [handleTaskFailure_other haddr]
    simp only [if_neg hcond, Option.map_id']

/-- The answer of `HandleTaskFailure` depends on the core only. -/
theorem handleTaskFailure_answer (h : Alike db db') (outcome : TxOutcome) (now : Int)
    (taskId errorMsg : String) (n : Int) :
    (handleTaskFailure outcome now taskId errorMsg n db).1 =
      (handleTaskFailure outcome now taskId errorMsg n db').1 := by
  cases hid : uuidIn (paramText taskId) with
  | none =>
    have hthrow : ∀ db, handleTaskFailureTx now taskId errorMsg db = .error .invalidText := by
      intro db
      rw [handleTaskFailureTx, castUuid, hid]
      rfl
    rw [handleTaskFailure, handleTaskFailure, executeTx_error (hthrow db),
      executeTx_error (hthrow db')]
    rfl
  | some id =>
    rcases h.cases id with ⟨hrow, hrow'⟩ | ⟨row, row', hrow, hrow', heq, hretry⟩
    · have hnone : ∀ db : Db, db.task? id = none →
          handleTaskFailureTx now taskId errorMsg db = .ok (false, db) := by
        intro db hdb
        rw [handleTaskFailureTx, castUuid_eq hid]
        simp only [bind, Except.bind, hdb]
        rfl
      rw [handleTaskFailure, handleTaskFailure, executeTx_returned (hnone db hrow),
        executeTx_returned (hnone db' hrow')]
    · have hmax : row'.maxRetry = row.maxRetry := by rw [heq]
      rw [(handleTaskFailure_row hid hrow outcome now errorMsg n).1,
        (handleTaskFailure_row hid hrow' outcome now errorMsg n).1, hretry, hmax]

theorem afterFailure_core {row row' : TaskRow} (heq : row' = { row with run := row'.run })
    (hretry : row'.run.retryCount = row.run.retryCount) (now : Int) (errorMsg : String) :
    (row'.afterFailure now errorMsg).retryCount = (row.afterFailure now errorMsg).retryCount ∧
      (row'.afterFailure now errorMsg).state = (row.afterFailure now errorMsg).state := by
  have hmax : row'.maxRetry = row.maxRetry := by rw [heq]
  unfold TaskRow.afterFailure
  by_cases hleft : row.run.retryCount.val < row.maxRetry.val
  · have hleft' : row'.run.retryCount.val < row'.maxRetry.val := by rwa [hretry, hmax]
    rw [dif_pos hleft, dif_pos hleft']
    refine ⟨Subtype.ext ?_, rfl⟩
    show row'.run.retryCount.val + 1 = row.run.retryCount.val + 1
    rw [hretry]
  · have hleft' : ¬ row'.run.retryCount.val < row'.maxRetry.val := by rwa [hretry, hmax]
    rw [dif_neg hleft, dif_neg hleft']
    exact ⟨hretry, rfl⟩

theorem handleTaskFailure_alike (h : Alike db db') (outcome : TxOutcome) (now : Int)
    (taskId errorMsg : String) (n : Int) :
    Alike (handleTaskFailure outcome now taskId errorMsg n db).2
      (handleTaskFailure outcome now taskId errorMsg n db').2 := by
  intro id
  rw [handleTaskFailure_task?, handleTaskFailure_task?]
  rcases h.cases id with ⟨hrow, hrow'⟩ | ⟨row, row', hrow, hrow', heq, hretry⟩
  · rw [hrow, hrow', Option.map_none, Option.map_none]
  · rw [hrow, hrow', Option.map_some, Option.map_some, Option.map_some, Option.map_some]
    refine congrArg some ?_
    split
    · have hcore := (afterFailure_core heq hretry now errorMsg).1
      rw [heq]
      simp only [TaskRow.core, ← heq, hcore]
    · rw [heq]
      simp only [TaskRow.core, hretry]

/-- What a transaction returns is what its logic computes. -/
theorem executeTx_returned_eq {α ε : Type} (outcome : TxOutcome)
    (logic : Db → Except ε (α × Db)) (db : Db) :
    (executeTx outcome logic db).returned =
      if outcome = .committed then (logic db).toOption.map Prod.fst else none := by
  cases htx : logic db with
  | error e =>
    rw [executeTx_error htx]
    exact (ite_self _).symm
  | ok result =>
    obtain ⟨a, db'⟩ := result
    exact executeTx_returned htx outcome

/-- `GetTaskById` reads the core only. -/
theorem getTaskById_alike (h : Alike db db') (parse : String → Except JsonError Json)
    (outcome : TxOutcome) (taskId : String) :
    getTaskById parse outcome taskId db = getTaskById parse outcome taskId db' := by
  have hread : (getTaskByIdTx parse taskId db).toOption.map Prod.fst =
      (getTaskByIdTx parse taskId db').toOption.map Prod.fst := by
    unfold getTaskByIdTx
    cases castUuid (paramText taskId) with
    | error e => rfl
    | ok id =>
      simp only [bind, Except.bind]
      rcases h.cases id with ⟨hrow, hrow'⟩ | ⟨row, row', hrow, hrow', heq, hretry⟩
      · rw [hrow, hrow']
        rfl
      · rw [hrow, hrow', heq]
        simp only [hretry]
        -- the same conversions on both sides, then the table is dropped
        cases asUint32 row.priority.val with
        | error e => rfl
        | ok priority =>
          cases asUint32 row.maxRetry.val with
          | error e => rfl
          | ok maxRetry =>
            cases asUint32 row.run.retryCount.val with
            | error e => rfl
            | ok retryCount =>
              cases asUint32 row.timeoutMs.val with
              | error e => rfl
              | ok timeoutMs =>
                cases parseParams parse row.funcParams with
                | error e => rfl
                | ok funcParams => rfl
  rw [getTaskById, getTaskById, executeTx_returned_eq, executeTx_returned_eq, hread]

end Repository

-- ---------------------------------------------------------------------------
-- A report on such tables
-- ---------------------------------------------------------------------------

theorem reportFailure_alike (svc : SchedulerService) (faults : CallFaults) (now : Int)
    (request : UpdateTaskStatusRequest) {s t : SchedulerState} (hdb : Alike s.db t.db)
    (hredis : s.redis = t.redis) :
    Alike (reportFailure svc faults now request s).db (reportFailure svc faults now request t).db ∧
      (reportFailure svc faults now request s).redis =
        (reportFailure svc faults now request t).redis := by
  have hanswer := handleTaskFailure_answer hdb faults.handleTaskFailure now request.taskId
    request.errorMsg request.retryCount
  have hafter := handleTaskFailure_alike hdb faults.handleTaskFailure now request.taskId
    request.errorMsg request.retryCount
  unfold reportFailure
  generalize handleTaskFailure faults.handleTaskFailure now request.taskId request.errorMsg
    request.retryCount s.db = result at hanswer hafter ⊢
  generalize handleTaskFailure faults.handleTaskFailure now request.taskId request.errorMsg
    request.retryCount t.db = result' at hanswer hafter ⊢
  obtain ⟨needRetry, db⟩ := result
  obtain ⟨needRetry', db'⟩ := result'
  obtain rfl : needRetry = needRetry' := hanswer
  have hafter : Alike db db' := hafter
  cases needRetry with
  | false => exact ⟨hafter, hredis⟩
  | true =>
    have htask := getTaskById_alike hafter svc.parse faults.getTaskById request.taskId
    simp only [if_true]
    rw [← htask]
    cases getTaskById svc.parse faults.getTaskById request.taskId db with
    | none => exact ⟨hafter, hredis⟩
    | some task =>
      refine ⟨hafter, ?_⟩
      show (redisCall faults.xadd _ s.redis).2 = (redisCall faults.xadd _ t.redis).2
      rw [hredis]

/-- The rest of a failure report. -/
theorem reportFailure_rest (svc : SchedulerService) (faults : CallFaults) (now : Int)
    (request : UpdateTaskStatusRequest) (s : SchedulerState) :
    (reportFailure svc faults now request s).scripts = s.scripts ∧
      (reportFailure svc faults now request s).queue = s.queue ∧
      (reportFailure svc faults now request s).db =
        (handleTaskFailure faults.handleTaskFailure now request.taskId request.errorMsg
          request.retryCount s.db).2 := by
  unfold reportFailure
  generalize handleTaskFailure faults.handleTaskFailure now request.taskId request.errorMsg
    request.retryCount s.db = result
  obtain ⟨needRetry, db⟩ := result
  cases needRetry with
  | false => exact ⟨rfl, rfl, rfl⟩
  | true =>
    simp only [if_true]
    cases getTaskById svc.parse faults.getTaskById request.taskId db with
    | none => exact ⟨rfl, rfl, rfl⟩
    | some task => exact ⟨rfl, rfl, rfl⟩

/-- **UpdateTaskStatus does the same whatever has been flushed.** -/
theorem updateTaskStatus_alike (svc : SchedulerService) (r : StatusReport) {s t : SchedulerState}
    (hdb : Alike s.db t.db) (hredis : s.redis = t.redis) (hscripts : s.scripts = t.scripts) :
    Alike (updateTaskStatus svc r.faults r.ord r.now r.request s).2.db
        (updateTaskStatus svc r.faults r.ord r.now r.request t).2.db ∧
      (updateTaskStatus svc r.faults r.ord r.now r.request s).2.redis =
        (updateTaskStatus svc r.faults r.ord r.now r.request t).2.redis ∧
      (updateTaskStatus svc r.faults r.ord r.now r.request s).2.scripts =
        (updateTaskStatus svc r.faults r.ord r.now r.request t).2.scripts := by
  obtain ⟨redis, db, queue, scripts⟩ := s
  obtain ⟨redis', db', queue', scripts'⟩ := t
  obtain rfl : redis = redis' := hredis
  obtain rfl : scripts = scripts' := hscripts
  unfold updateTaskStatus
  by_cases hempty : r.request.taskId = ""
  · simp only [if_pos hempty]
    exact ⟨hdb, trivial, trivial⟩
  · simp only [if_neg hempty]
    by_cases hsuccess : r.request.finalState = .success
    · simp only [if_pos hsuccess]
      exact ⟨hdb, rfl, rfl⟩
    · simp only [if_neg hsuccess]
      by_cases hrepo : svc.hasRepository = true
      · simp only [if_pos hrepo]
        obtain ⟨hafter, hpushed⟩ := reportFailure_alike svc r.faults r.now r.request
          (s := ⟨redis, db, queue, scripts⟩) (t := ⟨redis, db', queue', scripts⟩) hdb rfl
        exact ⟨hafter, hpushed, by rw [(reportFailure_rest ..).1, (reportFailure_rest ..).1]⟩
      · simp only [if_neg hrepo]
        exact ⟨hdb, trivial, trivial⟩

namespace Reporting

/-- The two systems agree on all but what a flush writes and where it stands. -/
structure Similar (s s' : Reporting) : Prop where
  redis : s.redis = s'.redis
  scripts : s.scripts = s'.scripts
  readded : s.readded = s'.readded
  db : Alike s.batcher.db s'.batcher.db

variable {svc : SchedulerService} {s s' s'' : Reporting}

theorem Similar.trans (h : Similar s s') (h' : Similar s' s'') : Similar s s'' :=
  ⟨h.redis.trans h'.redis, h.scripts.trans h'.scripts, h.readded.trans h'.readded,
    h.db.trans h'.db⟩

theorem Similar.report (h : Similar s s') (r : StatusReport) :
    Similar (s.report svc r) (s'.report svc r) := by
  obtain ⟨hdb, hredis, hscripts⟩ :=
    updateTaskStatus_alike svc r (s := s.sched) (t := s'.sched) h.db h.redis h.scripts
  refine ⟨hredis, hscripts, ?_, hdb⟩
  unfold Reporting.report
  simp only [hredis, h.readded, h.redis]

/-- **A report on a row.** Only a failure report that is kept changes it. -/
theorem report_task? (svc : SchedulerService) (r : StatusReport) (s : Reporting) (id : Uuid) :
    (s.report svc r).batcher.db.task? id = (s.batcher.db.task? id).map fun row =>
      if r.FailsTask svc id then
        { row with run := row.afterFailure r.now r.request.errorMsg } else row := by
  show (updateTaskStatus svc r.faults r.ord r.now r.request s.sched).2.db.task? id = _
  unfold updateTaskStatus
  by_cases hempty : r.request.taskId = ""
  · have hnot : ¬ r.FailsTask svc id := fun h => addresses_ne_empty h.2.2.1 hempty
    simp only [if_pos hempty, if_neg hnot, Option.map_id']
    rfl
  · by_cases hsuccess : r.request.finalState = .success
    · have hnot : ¬ r.FailsTask svc id := fun h => h.1 hsuccess
      simp only [if_neg hempty, if_pos hsuccess, if_neg hnot, Option.map_id']
      rfl
    · by_cases hrepo : svc.hasRepository = true
      · have hfails : r.FailsTask svc id ↔ uuidIn (paramText r.request.taskId) = some id ∧
            r.faults.handleTaskFailure.kept = true :=
          ⟨fun h => h.2.2, fun h => ⟨hsuccess, hrepo, h⟩⟩
        simp only [if_neg hempty, if_neg hsuccess, if_pos hrepo, hfails]
        rw [(reportFailure_rest ..).2.2, handleTaskFailure_task?]
        rfl
      · have hnot : ¬ r.FailsTask svc id := fun h => hrepo h.2.1
        simp only [if_neg hempty, if_neg hsuccess, if_neg hrepo, if_neg hnot, Option.map_id']
        rfl

/-- **A report on the queue.** -/
theorem report_queue (svc : SchedulerService) (r : StatusReport) (s : Reporting) :
    (s.report svc r).batcher.queue =
      s.batcher.queue ++ if r.Queues svc then [r.update] else [] := by
  show (updateTaskStatus svc r.faults r.ord r.now r.request s.sched).2.queue = _
  unfold updateTaskStatus
  by_cases hempty : r.request.taskId = ""
  · have hnot : ¬ r.Queues svc := fun h => h.2.2 hempty
    simp only [if_pos hempty, if_neg hnot, List.append_nil]
    rfl
  · by_cases hsuccess : r.request.finalState = .success
    · simp only [if_neg hempty, if_pos hsuccess]
      by_cases hbatcher : svc.hasBatcher = true
      · have hqueues : r.Queues svc := ⟨hbatcher, hsuccess, hempty⟩
        rw [if_pos hqueues, reportSuccess, if_pos hbatcher]
        rfl
      · have hnot : ¬ r.Queues svc := fun h => hbatcher h.1
        rw [if_neg hnot, reportSuccess, if_neg hbatcher, List.append_nil]
        rfl
    · have hnot : ¬ r.Queues svc := fun h => hsuccess h.2.1
      rw [if_neg hempty, if_neg hsuccess, if_neg hnot, List.append_nil]
      by_cases hrepo : svc.hasRepository = true
      · rw [if_pos hrepo]
        exact (reportFailure_rest ..).2.1
      · rw [if_neg hrepo]
        rfl

@[simp] theorem report_batch (svc : SchedulerService) (r : StatusReport) (s : Reporting) :
    (s.report svc r).batcher.batch = s.batcher.batch := rfl

end Reporting

end DistTaskSystem
