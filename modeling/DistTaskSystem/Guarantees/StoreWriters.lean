import DistTaskSystem.ApiServer.FlushBatch
import DistTaskSystem.ApiServer.JobQueryHandler
import DistTaskSystem.Common.CompleteTask
import DistTaskSystem.Guarantees.FlushTiming
import DistTaskSystem.Guarantees.JobOutcome
import DistTaskSystem.Guarantees.JobQuery
import DistTaskSystem.Scheduler.JobService
import DistTaskSystem.Scheduler.RowUpdates

/-!
# DTS — what no component writes

Two parts of the system wait for something that nobody does. The patrol takes
back the tasks a dead worker was running, but `UpdateTaskToRunning`, the only
statement that makes a row RUNNING, has no caller. The query of a job reads the
runtime hashes in Redis first, but no command writes one, and the SELECT behind
them names a column the table does not have. So in every run, whatever fails in
it, the patrol recovers nothing and no job is ever seen to be done.

## Results

* `never_running`         — no row is ever RUNNING, and no patrol changes a row.
* `query_never_finishes`  — a job that is found is in progress, with no task finished.
-/

namespace DistTaskSystem

open Runs TwoRuns

variable {env : JobService} {s s' : Reporting} {a : StoreAction} {actions : List StoreAction}
  {redis : Redis} {db : Db}

-- ---------------------------------------------------------------------------
-- The states of the rows
-- ---------------------------------------------------------------------------

/-- A batch leaves the table, or writes its rows. -/
theorem processBatch_db (jsonbIn : String → Option String) (serialize : PbTask → List UInt8)
    (faults : BatchFaults) (nowTs : Int) (batch : List BatchItem) (db : Db) (r : Redis) :
    (processBatch jsonbIn serialize faults nowTs batch db r).1 = db ∨
      ∃ result, flushDBBatch jsonbIn nowTs batch db = .ok result ∧
        (processBatch jsonbIn serialize faults nowTs batch db r).1 = result.2 := by
  have hdb : (processBatch jsonbIn serialize faults nowTs batch db r).1 = db ∨
      (processBatch jsonbIn serialize faults nowTs batch db r).1 =
        (executeTx faults.tx (flushDBBatch jsonbIn nowTs batch) db).db := by
    rw [processBatch]
    split
    · exact .inl rfl
    · right
      dsimp only
      split
      · rfl
      · split <;> rfl
  rcases hdb with heq | heq
  · exact .inl heq
  · rw [heq]
    cases hflush : flushDBBatch jsonbIn nowTs batch db with
    | error e =>
      rw [executeTx_error hflush]
      exact .inl rfl
    | ok result =>
      obtain ⟨batch', db'⟩ := result
      rw [executeTx_db hflush]
      split
      · exact .inr ⟨_, rfl, rfl⟩
      · exact .inl rfl

/-- A batch leaves Redis, or executes commands of the DAG engine. -/
theorem processBatch_redis (jsonbIn : String → Option String) (serialize : PbTask → List UInt8)
    (faults : BatchFaults) (nowTs : Int) (batch : List BatchItem) (db : Db) (r : Redis) :
    ∃ cmds, (processBatch jsonbIn serialize faults nowTs batch db r).2 = execPipeline cmds r := by
  rw [processBatch]
  split
  · exact ⟨[], rfl⟩
  · dsimp only
    split
    · exact ⟨[], rfl⟩
    · split
      · exact ⟨[], rfl⟩
      · exact ⟨_, rfl⟩

/-- No row is RUNNING, and no update that is held will make one so. -/
structure NoneRunning (s : Reporting) : Prop where
  rows : ∀ id row, s.batcher.db.task? id = some row → row.run.state ≠ stateRunning
  held : ∀ op ∈ s.held, op.state = .success

/-- A call that takes no row to RUNNING. -/
theorem NoneRunning.updates (h : NoneRunning s) {R : TaskRow → TaskRun → Prop}
    (hdb : s.batcher.db.Updates R s'.batcher.db)
    (hR : ∀ row run, row.run.state ≠ stateRunning → R row run → run.state ≠ stateRunning)
    (hheld : ∀ op ∈ s'.held, op.state = .success) : NoneRunning s' := by
  refine ⟨fun id row' hrow' => ?_, hheld⟩
  cases hrow : s.batcher.db.task? id with
  | none => cases (hdb.none id hrow).symm.trans hrow'
  | some row =>
    obtain ⟨run, hafter, hrun⟩ := hdb.row id row hrow
    rw [← Option.some.inj (hafter.symm.trans hrow')]
    exact hR row run (h.rows id row hrow) hrun

/-- A failure takes no row to RUNNING. -/
theorem afterFailure_not_running (row : TaskRow) (now : Int) (errorMsg : String) :
    (row.afterFailure now errorMsg).state ≠ stateRunning := by
  by_cases hleft : row.run.retryCount.val < row.maxRetry.val
  · rw [(row.afterFailure_retried hleft now errorMsg).1]
    decide
  · rw [row.afterFailure_failed hleft now errorMsg]
    decide

/-- A row that was stored with its job is pending or waiting. -/
theorem TaskStored.not_running {jsonbIn : String → Option String} {item : BatchItem}
    {task : PbTask} {row : TaskRow} (h : TaskStored jsonbIn item task row) :
    row.run.state ≠ stateRunning := by
  rw [h.run]
  dsimp only
  split <;> decide

/-- A report. -/
theorem NoneRunning.report (h : NoneRunning s) (r : StatusReport) :
    NoneRunning (s.report env.svc r) := by
  refine ⟨fun id row hrow => ?_, fun op hop => ?_⟩
  · rw [Reporting.report_task?] at hrow
    obtain ⟨row₀, hrow₀, rfl⟩ := Option.map_eq_some_iff.mp hrow
    split
    · exact afterFailure_not_running row₀ r.now r.request.errorMsg
    · exact h.rows id row₀ hrow₀
  · rw [Reporting.held_report] at hop
    rcases List.mem_append.mp hop with hold | hnew
    · exact h.held op hold
    · split at hnew
      · next hqueues =>
        obtain rfl := List.mem_singleton.mp hnew
        exact hqueues.2.1
      · exact absurd hnew List.not_mem_nil

/-- The flush thread: what it writes are states of updates. -/
theorem NoneRunning.batcher (h : NoneRunning s) {a : BatcherAction}
    (hstep : s.step env.svc env.jsonbIn (.batcher a) = some s') : NoneRunning s' := by
  obtain ⟨hadd, b, hb, rfl⟩ := Reporting.step_batcher hstep
  cases DbBatcher.step_moves hb with
  | add op => exact absurd rfl (hadd op)
  | fill timedOut hpoint hqueue =>
    refine ⟨h.rows, fun op hop => h.held op ?_⟩
    show op ∈ s.batcher.batch ++ s.batcher.queue
    rw [← List.take_append_drop (kBatchSize - s.batcher.batch.length) s.batcher.queue,
      ← List.append_assoc]
    exact hop
  | flush env' hpoint hbatch =>
    refine h.updates (flushBatch_updates s.batcher.db env.jsonbIn env' s.batcher.batch) ?_
      fun op hop => h.held op (List.mem_append_right _ hop)
    rintro row run hrow (rfl | ⟨op, hop, w, hw, -, rfl⟩)
    · exact hrow
    · have hsuccess := h.held op (List.mem_append_left _ hop)
      have hstate : w.state = stateSuccess :=
        Reporting.cast_success hsuccess (write_eq_ok hw).2
      show w.state ≠ stateRunning
      rw [hstate]
      decide
  | _ => exact ⟨h.rows, h.held⟩

/-- **Step lemma.** -/
theorem NoneRunning.step (h : NoneRunning s) (hstep : env.step s a = some s') :
    NoneRunning s' := by
  cases a with
  | submit subs faults nowTs =>
    obtain rfl := Option.some.inj hstep
    refine ⟨fun id row hrow => ?_, h.held⟩
    rcases processBatch_db env.jsonbIn env.serialize faults nowTs (subs.map Submission.item)
      s.batcher.db s.redis with hsame | ⟨⟨batch, db'⟩, hflush, hdb⟩
    · exact h.rows id row (by rwa [← hsame])
    · obtain ⟨rows, -, htasks, -, -⟩ := flush_ok hflush
      have hmem : row ∈ db'.tasks := Db.mem_of_task? (by rwa [show db' = _ from hdb.symm])
      rw [htasks] at hmem
      rcases List.mem_append.mp hmem with hold | hnew
      · exact h.rows row.taskId row (Db.task?_of_mem hold)
      · obtain ⟨sub, -, task, -, hstored⟩ := rows.taskOf hnew
        exact hstored.not_running
  | reporting a =>
    cases a with
    | report r =>
      obtain rfl := Option.some.inj hstep
      exact h.report r
    | batcher a => exact h.batcher hstep
  | revert taskId outcome =>
    obtain rfl := Option.some.inj hstep
    refine h.updates (revertTaskToPending_updates outcome s.batcher.db taskId) ?_ h.held
    rintro row run hrow (rfl | rfl)
    · exact hrow
    · exact (by decide : statePending ≠ stateRunning)
  | requeue workerId outcome =>
    obtain rfl := Option.some.inj hstep
    refine h.updates (requeueOrphanedTasks_updates outcome s.batcher.db workerId) ?_ h.held
    rintro row run hrow (rfl | rfl)
    · exact hrow
    · exact (by decide : statePending ≠ stateRunning)
  | pass ms =>
    obtain rfl := Option.some.inj hstep
    exact ⟨h.rows, h.held⟩

/-- The patrol finds nothing to take back. -/
theorem requeueOrphanedTasks_idle (h : ∀ row ∈ db.tasks, row.run.state ≠ stateRunning)
    (outcome : TxOutcome) (workerId : String) :
    requeueOrphanedTasks outcome workerId db = (0, db) := by
  have hnone : ∀ row ∈ db.tasks,
      ¬ (row.run.workerId = some (paramText workerId) ∧ row.run.state = stateRunning) :=
    fun row hrow horphaned => h row hrow horphaned.2
  have htx : requeueOrphanedTasksTx workerId db = .ok (0, db) := by
    refine congrArg Except.ok (Prod.ext ?_ ?_)
    · refine List.countP_eq_zero.mpr fun row hrow => ?_
      rw [decide_eq_true_iff]
      exact hnone row hrow
    · refine (Db.updateTasks_eq_iff.mpr fun row hrow => ?_).trans db.updateTasks_run
      rw [if_neg]
      rw [decide_eq_true_iff]
      exact hnone row hrow
  rw [requeueOrphanedTasks, executeTx_db htx, ite_self]
  cases outcome <;> simp [executeTx, htx]

/-- **Nothing ever runs, as far as the table knows.** In every run of the system from a
table without RUNNING rows, whatever is submitted, reported, flushed or refused, no row is
ever RUNNING; so no patrol takes back a task, whichever worker it finds dead. -/
theorem never_running (hdb : ∀ row ∈ db.tasks, row.run.state ≠ stateRunning)
    (hrun : run env.step (.started redis db) actions = some s) :
    (∀ row ∈ s.batcher.db.tasks, row.run.state ≠ stateRunning) ∧
      ∀ outcome workerId,
        requeueOrphanedTasks outcome workerId s.batcher.db = (0, s.batcher.db) := by
  have hstart : NoneRunning (.started redis db) :=
    ⟨fun id row hrow => hdb row (Db.mem_of_task? hrow), fun op hop => absurd hop List.not_mem_nil⟩
  have hnone := run_invariant (fun u e v h hstep => h.step hstep) hrun hstart
  have hrows : ∀ row ∈ s.batcher.db.tasks, row.run.state ≠ stateRunning := fun row hrow =>
    hnone.rows row.taskId row (Db.task?_of_mem hrow)
  exact ⟨hrows, requeueOrphanedTasks_idle hrows⟩

/-- The state and the retries of every row. -/
def rowStates (s : Reporting) : List (Int × Int) :=
  s.batcher.db.tasks.map fun row => (row.run.state.val, row.run.retryCount.val)

/-- A worker dies when its first task was retried and flushed as a success, its second has
failed, and the third waits. -/
theorem never_running_series : ∃ s,
    run seriesService.step (.started .empty .empty) seriesActions = some s ∧
    rowStates s = [(2, 1), (3, 0), (6, 0)] ∧ (∀ row ∈ s.batcher.db.tasks,
      row.run.state ≠ stateRunning) ∧
    requeueOrphanedTasks .committed "w" s.batcher.db = (0, s.batcher.db) := by
  obtain ⟨s, hrun, hrows⟩ : ∃ s,
      run seriesService.step (.started .empty .empty) seriesActions = some s ∧
        rowStates s = [(2, 1), (3, 0), (6, 0)] := Option.map_eq_some_iff.mp (by decide +kernel)
  obtain ⟨hnone, hidle⟩ := never_running (fun _ hrow => absurd hrow List.not_mem_nil) hrun
  exact ⟨s, hrun, hrows, hnone, hidle _ _⟩

-- ---------------------------------------------------------------------------
-- The keys in Redis
-- ---------------------------------------------------------------------------

/-- `keys::state::TaskRuntime`. -/
def taskRuntimeKey (taskId : String) : String := "dts:task:runtime:" ++ taskId

/-- `keys::state::JobTasks`. -/
def jobTasksKey (jobId : String) : String := "dts:job:tasks:" ++ jobId

/-- The fields of a hash, printed. -/
def RedisHash.texts (h : RedisHash) : RuntimeHash where
  entries := h.entries.map fun e => ⟨e.1, toString e.2⟩
  nodupKeys := by
    have hnodup := h.nodupKeys
    rw [List.NodupKeys, List.keys] at hnodup ⊢
    rwa [List.map_map]

/-- The reply to HGETALL; `none` is WRONGTYPE. -/
def Redis.hgetAll (r : Redis) (key : String) : Option RuntimeHash :=
  match r.keys key with
  | none => some ∅
  | some ⟨.hash h, _⟩ => some h.texts
  | some _ => none

/-- The reply to SMEMBERS. -/
def Redis.smembersReply (r : Redis) (key : String) : Option (List String) :=
  match r.keys key with
  | none => some []
  | some ⟨.set members, _⟩ => some members.members
  | some _ => none

/-- What the query is told, it is told by Redis, at some moment each; a call may also fail. -/
structure QueryCache.ToldBy (cache : QueryCache) (P : Redis → Prop) : Prop where
  jobTasks : ∀ jobId ids, cache.jobTasks jobId = some ids →
    ∃ r, P r ∧ r.smembersReply (jobTasksKey jobId) = some ids
  runtime : ∀ taskId hash, cache.runtime taskId = some hash →
    ∃ r, P r ∧ r.hgetAll (taskRuntimeKey taskId) = some hash

/-- A key of the runtime state, so none of the DAG engine. -/
def RuntimeKey (k : String) : Prop := (∃ id, k = taskRuntimeKey id) ∨ ∃ id, k = jobTasksKey id

theorem RuntimeKey.ne_text {k : String} (h : RuntimeKey k) (key : Key) : k ≠ key.text := by
  rintro rfl
  obtain ⟨x, hx⟩ := key.text_eq
  rcases h with ⟨id, hid⟩ | ⟨id, hid⟩
  · have hstart := start_of_append_eq (hx.symm.trans hid)
    cases key <;> exact absurd hstart (by simp only [Key.start]; decide)
  · have hstart := start_of_append_eq (hx.symm.trans hid)
    cases key <;> exact absurd hstart (by simp only [Key.start]; decide)

/-- Redis holds nothing of the runtime state. -/
def Redis.NoRuntime (r : Redis) : Prop := ∀ k, RuntimeKey k → r.keys k = none

theorem execPipeline_noRuntime {r : Redis} (h : r.NoRuntime) (cmds : List PipeCmd) :
    (execPipeline cmds r).NoRuntime := by
  induction cmds generalizing r with
  | nil => exact h
  | cons cmd rest ih =>
    exact ih fun k hk => (exec_keys_ne (hk.ne_text cmd.key)).trans (h k hk)

theorem completeTask_noRuntime {r : Redis} (h : r.NoRuntime) (ord : MembersOrder)
    (taskId jobId : String) : (completeTask ord taskId jobId r).2.NoRuntime := by
  intro k hk
  refine (unseen_completeTask (fun key hkey α f => unseen_onKey_ne ?_ α f) ord r r rfl).trans
    (h k hk)
  simp only [List.mem_cons, List.not_mem_nil, or_false] at hkey
  rcases hkey with rfl | rfl | rfl | rfl <;> exact (hk.ne_text _).symm

/-- A report, whichever way it goes. -/
theorem report_noRuntime {svc : SchedulerService} (h : s.redis.NoRuntime) (r : StatusReport) :
    (s.report svc r).redis.NoRuntime := by
  show (updateTaskStatus svc r.faults r.ord r.now r.request s.sched).2.redis.NoRuntime
  unfold updateTaskStatus
  split
  · exact h
  · split
    · show (redisCall r.faults.evalSha _ s.redis).2.NoRuntime
      rw [redisCall_state]
      split
      · exact h
      · exact completeTask_noRuntime h r.ord _ _
    · split
      · rcases reportFailure_redis svc r.faults r.now r.request s.sched with
          hsame | ⟨task, jobId, -, -, hpushed⟩
        · exact hsame ▸ h
        · intro k hk
          show (reportFailure svc r.faults r.now r.request s.sched).redis.keys k = none
          rw [hpushed]
          exact (onKey_frame (hk.ne_text .tasks) _).trans (h k hk)
      · exact h

/-- **Step lemma.** -/
theorem noRuntime_step (h : s.redis.NoRuntime) (hstep : env.step s a = some s') :
    s'.redis.NoRuntime := by
  cases a with
  | submit subs faults nowTs =>
    obtain rfl := Option.some.inj hstep
    obtain ⟨cmds, hcmds⟩ := processBatch_redis env.jsonbIn env.serialize faults nowTs
      (subs.map Submission.item) s.batcher.db s.redis
    show (processBatch _ _ _ _ _ _ _).2.NoRuntime
    rw [hcmds]
    exact execPipeline_noRuntime h cmds
  | reporting a =>
    cases a with
    | report r =>
      obtain rfl := Option.some.inj hstep
      exact report_noRuntime h r
    | batcher a =>
      obtain ⟨-, b, -, rfl⟩ := Reporting.step_batcher hstep
      exact h
  | revert taskId outcome =>
    obtain rfl := Option.some.inj hstep
    exact h
  | requeue workerId outcome =>
    obtain rfl := Option.some.inj hstep
    exact h
  | pass ms =>
    obtain rfl := Option.some.inj hstep
    intro k hk
    show (s.redis.advance ms).keys k = none
    rw [Redis.advance_keys, h k hk]
    rfl

-- ---------------------------------------------------------------------------
-- The query
-- ---------------------------------------------------------------------------

/-- Where no runtime hash was ever seen, every id is missed or the call is left. -/
theorem readReplies_details {cache : QueryCache} (needPayload : Bool)
    (h : ∀ taskId hash, cache.runtime taskId = some hash → hash = ∅) (taskIds : List String) :
    (readReplies cache needPayload taskIds).details = [] := by
  induction taskIds with
  | nil => rfl
  | cons taskId rest ih =>
    rw [readReplies]
    cases hreply : cache.runtime taskId with
    | none => rfl
    | some hash =>
      obtain rfl := h taskId hash hreply
      exact ih

/-- And no detail is added from the table either. -/
theorem fetchTaskDetails_details {cache : QueryCache} (outcome : TxOutcome) (needPayload : Bool)
    (h : ∀ taskId hash, cache.runtime taskId = some hash → hash = ∅) (taskIds : List String)
    (db : Db) : (fetchTaskDetails cache outcome needPayload taskIds db).details = [] := by
  have hmissed : ∀ fetched : Fetched, fetched.details = [] →
      (if fetched.thrown then fetched else { fetched with
        details := fetched.details ++ fetchMissed outcome needPayload fetched.missed db }).details =
        [] := by
    intro fetched hnone
    split
    · exact hnone
    · rw [fetchMissed_eq, List.append_nil]
      exact hnone
  refine hmissed (if cache.pipelineUp then readReplies cache needPayload taskIds
    else ⟨[], taskIds, false⟩) ?_
  split
  · exact readReplies_details needPayload h taskIds
  · rfl

/-- Without a detail, a job that has tasks is in progress. -/
theorem jobState_noDetails (n : ℕ) : (countStates []).jobState (n + 1) = .running := by
  have hzero : ∀ counts : StateCounts, counts = ⟨0, 0, 0, 0⟩ →
      counts.jobState (n + 1) = .running := by
    rintro counts rfl
    simp [StateCounts.jobState]
  exact hzero _ rfl

/-- The answers of a query that Redis tells nothing. -/
theorem handle_untold {cache : QueryCache} (faults : QueryFaults) (db : Db)
    (req : GetJobStatusRequest) (hids : getTaskIdsFromRedis cache req.jobId = [])
    (hruntime : ∀ taskId hash, cache.runtime taskId = some hash → hash = ∅) :
    (handle cache faults db req).thrown = true ∨
      (handle cache faults db req).response.error ≠ none ∨
      ∃ n, handle cache faults db req =
        ⟨{ jobId := req.jobId, state := .running, totalTasks := n + 1 }, false⟩ := by
  have htaskIds : getTaskIds cache faults.taskIds req.jobId db =
      getTaskIdsFromDB faults.taskIds req.jobId db := by
    rw [getTaskIds, hids]
  rw [handle, htaskIds]
  cases getTaskIdsFromDB faults.taskIds req.jobId db with
  | none => exact .inl rfl
  | some taskIds =>
    cases taskIds with
    | nil => exact .inr (.inl (Option.some_ne_none _))
    | cons taskId rest =>
      have hdetails := fetchTaskDetails_details faults.details req.includeTasks hruntime
        (taskId :: rest) db
      dsimp only
      split
      · exact .inl rfl
      · refine .inr (.inr ⟨rest.length, ?_⟩)
        rw [hdetails, List.length_cons, jobState_noDetails]
        rfl

/-- **Run lemma.** -/
theorem noRuntime_run (hempty : redis.NoRuntime)
    (hrun : run env.step (.started redis db) actions = some s) : s.redis.NoRuntime :=
  run_invariant (P := fun s : Reporting => s.redis.NoRuntime)
    (fun _ _ _ h hstep => noRuntime_step h hstep) hrun hempty

/-- **No job is ever seen to be done.** Whatever has happened in a run of the system and
whatever the table holds, a query that is answered and finds its job tells that the job is
running and that none of its tasks is finished. -/
theorem query_never_finishes (hempty : redis.NoRuntime) {cache : QueryCache}
    (hcache : cache.ToldBy fun r =>
      ∃ actions s, run env.step (.started redis db) actions = some s ∧ s.redis = r)
    (faults : QueryFaults) (table : Db) (req : GetJobStatusRequest)
    (hanswered : (handle cache faults table req).thrown = false)
    (hfound : (handle cache faults table req).response.error = none) :
    (handle cache faults table req).response.state = .running ∧
      (handle cache faults table req).response.finishedTasks = 0 ∧
      (handle cache faults table req).response.taskDetails = [] ∧
      0 < (handle cache faults table req).response.totalTasks := by
  have hnone : ∀ r, (∃ actions s, run env.step (.started redis db) actions = some s ∧
      s.redis = r) → r.NoRuntime := by
    rintro r ⟨actions, s, hrun, rfl⟩
    exact noRuntime_run hempty hrun
  have hids : getTaskIdsFromRedis cache req.jobId = [] := by
    rw [getTaskIdsFromRedis]
    cases hreply : cache.jobTasks req.jobId with
    | none => rfl
    | some ids =>
      obtain ⟨r, hr, hids⟩ := hcache.jobTasks req.jobId ids hreply
      rw [Redis.smembersReply, hnone r hr _ (.inr ⟨_, rfl⟩)] at hids
      exact (Option.some.inj hids).symm
  have hruntime : ∀ taskId hash, cache.runtime taskId = some hash → hash = ∅ := by
    intro taskId hash hreply
    obtain ⟨r, hr, hhash⟩ := hcache.runtime taskId hash hreply
    rw [Redis.hgetAll, hnone r hr _ (.inl ⟨_, rfl⟩)] at hhash
    exact (Option.some.inj hhash).symm
  rcases handle_untold faults table req hids hruntime with hthrown | herror | ⟨n, hn⟩
  · exact absurd (hanswered.symm.trans hthrown) Bool.false_ne_true
  · exact absurd hfound herror
  · rw [hn]
    exact ⟨rfl, rfl, rfl, Nat.succ_pos n⟩

/-- Redis has neither the ids of the job nor a hash. -/
def untoldCache : QueryCache where
  jobTasks _ := some []
  pipelineUp := true
  runtime _ := some ∅

def seriesQuery : GetJobStatusRequest := ⟨jobX.text, true⟩

/-- What a query of the job tells when it reads the table of the state. -/
def seriesAnswer (s : Reporting) : Answered :=
  handle untoldCache ⟨.committed, .committed⟩ s.batcher.db seriesQuery

/-- A task has succeeded, one has failed and the last is never executed; the job is running. -/
theorem query_never_finishes_series : ∃ s,
    run seriesService.step (.started .empty .empty) seriesActions = some s ∧
    rowStates s = [(2, 1), (3, 0), (6, 0)] ∧ (seriesAnswer s).response.state = .running ∧
    (seriesAnswer s).response.finishedTasks = 0 := by
  obtain ⟨s, hrun, hseen⟩ : ∃ s,
      run seriesService.step (.started .empty .empty) seriesActions = some s ∧
        (rowStates s, (seriesAnswer s).thrown, (seriesAnswer s).response.error) =
          ([(2, 1), (3, 0), (6, 0)], false, none) :=
    Option.map_eq_some_iff.mp (by decide +kernel)
  simp only [Prod.mk.injEq] at hseen
  obtain ⟨hrows, hanswered, hfound⟩ := hseen
  have hnone : s.redis.NoRuntime := noRuntime_run (fun _ _ => rfl) hrun
  have htold : untoldCache.ToldBy fun r => ∃ actions s,
      run seriesService.step (.started .empty .empty) actions = some s ∧ s.redis = r := by
    refine ⟨?_, ?_⟩
    · rintro jobId ids ⟨rfl⟩
      refine ⟨s.redis, ⟨seriesActions, s, hrun, rfl⟩, ?_⟩
      rw [Redis.smembersReply, hnone _ (.inr ⟨jobId, rfl⟩)]
    · rintro taskId hash ⟨rfl⟩
      refine ⟨s.redis, ⟨seriesActions, s, hrun, rfl⟩, ?_⟩
      rw [Redis.hgetAll, hnone _ (.inl ⟨taskId, rfl⟩)]
  have hquery := query_never_finishes (fun _ _ => rfl) htold ⟨.committed, .committed⟩
    s.batcher.db seriesQuery hanswered hfound
  exact ⟨s, hrun, hrows, hquery.1, hquery.2.1⟩

end DistTaskSystem
