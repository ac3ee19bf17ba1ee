import DistTaskSystem.Guarantees.DagEngine

/-!
# DTS — what a status report guarantees

`UpdateTaskStatus` answers OK whenever it reaches its end, although each call
it makes can fail. Two consequences are made exact here:

* `acknowledged_report_iff` — an acknowledged report has taken effect if and
  only if every call it depends on worked;
* `terminal_state_iff` — the state of a finished task is final if and only if
  no unguarded update of its row is kept, and a finished task is pushed again
  by exactly two kinds of reports.
-/

namespace DistTaskSystem

/-! ## Acknowledged reports -/

/-- A SUCCESS report has taken effect: the completion script has run to its end
and the update is queued. -/
structure SuccessTookEffect (ord : MembersOrder) (request : UpdateTaskStatusRequest)
    (s s' : SchedulerState) : Prop where
  ran : s'.scripts = s.scripts ++ [(request.taskId, request.jobId)]
  redis : s'.redis = (completeTask ord request.taskId request.jobId s.redis).2
  queued : s'.queue = s.queue ++ [⟨request.taskId, .success, request.resultJson,
    request.errorMsg, request.workerId⟩]

/-- A report of any other state has taken effect: the row is FAILED, or it was
reset for a retry and the task has a new stream entry. -/
def FailureTookEffect (id : Uuid) (row : TaskRow) (s s' : SchedulerState) : Prop :=
  ∃ row', s'.db.task? id = some row' ∧
    (row'.run.state = stateFailed ∨
      row'.run.state = statePending ∧ row'.run.retryCount.val = row.run.retryCount.val + 1 ∧
        ∃ entry, (s'.redis.streamAt kTasks).entries =
          (s.redis.streamAt kTasks).entries ++ [entry] ∧ entry.taskId? = some id.text)

/-- The effect that goes with the reported state. -/
def TookEffect (ord : MembersOrder) (request : UpdateTaskStatusRequest) (id : Uuid) (row : TaskRow)
    (s s' : SchedulerState) : Prop :=
  (request.finalState = .success ∧ SuccessTookEffect ord request s s') ∨
    (request.finalState ≠ .success ∧ FailureTookEffect id row s s')

/-- The collaborators are there and every call the report depends on works. A
row that is FAILED already needs nothing, and a service without a repository
answers an error. -/
def Dependable (svc : SchedulerService) (faults : CallFaults) (request : UpdateTaskStatusRequest)
    (row : TaskRow) (r : Redis) : Prop :=
  if request.finalState = .success then
    faults.evalSha ≠ .refused ∧ ScriptFits request.taskId request.jobId r ∧ svc.hasBatcher = true
  else if svc.hasRepository = false then True
  else if faults.handleTaskFailure.kept = false then row.run.state = stateFailed
  else row.run.retryCount.val < row.maxRetry.val → PushesAgain svc faults row r

section Acknowledged

variable (svc : SchedulerService) (faults : CallFaults) (ord : MembersOrder) (now : Int)
  {request : UpdateTaskStatusRequest} {s : SchedulerState} {id : Uuid} {row : TaskRow}

theorem isOk_iff {ε α : Type} (x : Except ε α) : x.isOk = true ↔ ∃ a, x = .ok a := by
  cases x <;> simp [Except.isOk, Except.toBool]

theorem reportSuccess_iff (hstate : request.finalState = .success) :
    SuccessTookEffect ord request s (reportSuccess svc faults ord request s) ↔
      faults.evalSha ≠ .refused ∧ ScriptFits request.taskId request.jobId s.redis ∧
        svc.hasBatcher = true := by
  have hfits := (completeTask_run ord request.taskId request.jobId s.redis).1
  rw [← hfits, ← isOk_iff]
  constructor
  · intro heffect
    have hran := heffect.ran
    have hqueued := heffect.queued
    unfold reportSuccess at hran hqueued
    dsimp only at hran hqueued
    -- a log or a queue that did not grow shows that its branch was not taken
    have hscript : faults.evalSha ≠ .refused ∧
        (completeTask ord request.taskId request.jobId s.redis).1.isOk = true := by
      by_contra hno
      rw [if_neg hno] at hran
      exact List.cons_ne_nil _ _ (List.append_right_eq_self.mp hran.symm)
    refine ⟨hscript.1, hscript.2, ?_⟩
    by_contra hno
    rw [if_neg hno] at hqueued
    exact List.cons_ne_nil _ _ (List.append_right_eq_self.mp hqueued.symm)
  · rintro ⟨hevalSha, hscript, hbatcher⟩
    unfold reportSuccess
    refine ⟨if_pos ⟨hevalSha, hscript⟩, ?_, ?_⟩
    · exact (redisCall_state _ _ _).trans (if_neg hevalSha)
    · show (if svc.hasBatcher = true then _ else _) = _
      rw [if_pos hbatcher, addStatusUpdate, hstate]

theorem reportFailure_iff (h : addresses request.taskId id) (hrow : s.db.task? id = some row) :
    FailureTookEffect id row s (reportFailure svc faults now request s) ↔
      if faults.handleTaskFailure.kept = false then row.run.state = stateFailed
      else row.run.retryCount.val < row.maxRetry.val → PushesAgain svc faults row s.redis := by
  obtain ⟨hdb, hpush, hstay⟩ := reportFailure_row svc faults now h hrow
  unfold FailureTookEffect
  rw [hdb]
  by_cases hkept : faults.handleTaskFailure.kept = true
  · rw [if_pos hkept, if_neg (by simp [hkept])]
    by_cases hleft : row.run.retryCount.val < row.maxRetry.val
    · -- the row is PENDING now, so the entry is what is left to ask for
      obtain ⟨hstate, hcount⟩ := row.afterFailure_retried hleft now request.errorMsg
      have hne : statePending ≠ stateFailed := by decide
      constructor
      · rintro ⟨row', hrow', hcase⟩ -
        obtain rfl := Option.some.inj hrow'
        by_contra hno
        rcases hcase with hfailed | ⟨-, -, entry, hentry, -⟩
        · exact hne (hstate.symm.trans hfailed)
        · rw [hstay hno] at hentry
          exact List.cons_ne_nil _ _ (List.append_right_eq_self.mp hentry.symm)
      · intro hpushes
        obtain ⟨jobId, hredis⟩ := hpush (hpushes hleft)
        refine ⟨_, rfl, .inr ⟨hstate, hcount, ?_⟩⟩
        rw [hredis, xadd_ok (hpushes hleft).tasks]
        exact ⟨_, by rw [Redis.streamAt_put_stream]; rfl, taskId?_toXAddArgs _ _ _⟩
    · -- the last failure: the row is FAILED whatever else happens
      exact iff_of_true ⟨_, rfl, .inl (row.afterFailure_failed hleft now request.errorMsg)⟩
        fun hleft' => absurd hleft' hleft
  · rw [if_neg hkept, if_pos (by simpa using hkept)]
    constructor
    · rintro ⟨row', hrow', hcase⟩
      obtain rfl := Option.some.inj hrow'
      rcases hcase with hfailed | ⟨-, hcount, -⟩
      · exact hfailed
      · -- the row is as it was, so it cannot have counted up
        omega
    · intro hfailed
      exact ⟨row, rfl, .inl hfailed⟩

end Acknowledged

/-- **When an acknowledged report has taken effect.** For every report about an
existing task and every pattern of failures: if the answer is OK the report has
taken effect, exactly under the conditions of `Dependable`. -/
theorem acknowledged_report_iff (svc : SchedulerService) (faults : CallFaults)
    (ord : MembersOrder) (now : Int) {request : UpdateTaskStatusRequest} {s : SchedulerState}
    {id : Uuid} {row : TaskRow} (hid : addresses request.taskId id)
    (hrow : s.db.task? id = some row) :
    ((updateTaskStatus svc faults ord now request s).1 = .ok →
      TookEffect ord request id row s (updateTaskStatus svc faults ord now request s).2) ↔
      Dependable svc faults request row s.redis := by
  unfold updateTaskStatus Dependable TookEffect
  rw [if_neg (addresses_ne_empty hid)]
  by_cases hsuccess : request.finalState = .success
  · rw [if_pos hsuccess, if_pos hsuccess, ← reportSuccess_iff svc faults ord hsuccess]
    simp [hsuccess]
  · rw [if_neg hsuccess, if_neg hsuccess]
    cases hrepository : svc.hasRepository with
    | false => simp
    | true =>
      have hiff := reportFailure_iff svc faults now hid hrow
      simp only [hsuccess, Bool.true_eq_false, if_true, if_false, ne_eq, not_false_eq_true,
        false_and, true_and, false_or, forall_const]
      exact hiff

/-! One running task, and reports about it. -/

def rowA (state : SmallInt) (workerId : Option String) : TaskRow where
  taskId := taskA
  jobId := jobX
  naturalId := "a"
  funcName := "f"
  funcParams := none
  priority := ⟨0, smallInt_zero⟩
  maxRetry := ⟨3, smallInt_three⟩
  timeoutMs := ⟨30000, by decide⟩
  pendingDependencies := ⟨0, int4_zero⟩
  submitTs := none
  run := ⟨state, ⟨0, smallInt_zero⟩, none, none, none, none, workerId⟩

def dbA (state : SmallInt) (workerId : Option String) : Db where
  jobs := [⟨jobX, "job", ⟨0, smallInt_zero⟩⟩]
  tasks := [rowA state workerId]
  edges := []
  jobPkey := by simp
  jobIdempotencyKey := by simp
  taskPkey := by simp
  uqJobNaturalId := by simp
  fkTaskToJob := by simp [rowA]
  edgePkey := List.nodup_nil
  fkEdgeToParent := by simp
  fkEdgeToChild := by simp

/-- The service with both of its collaborators. -/
def fullService : SchedulerService := ⟨true, true, fun _ => .ok .null⟩

def failureA : UpdateTaskStatusRequest where
  taskId := taskA.text
  finalState := .failed
  errorMsg := "boom"
  jobId := jobX.text

def runningA : SchedulerState := ⟨.empty, dbA stateRunning (some "w"), [], []⟩

theorem acknowledged_report_iff_taskA :
    TookEffect .insertion failureA taskA (rowA stateRunning (some "w")) runningA
      (updateTaskStatus fullService {} .insertion 0 failureA runningA).2 := by
  have hid : addresses failureA.taskId taskA := addresses_text taskA
  have hrow : runningA.db.task? taskA = some (rowA stateRunning (some "w")) := rfl
  refine (acknowledged_report_iff fullService {} .insertion 0 hid hrow).mpr ?_ rfl
  unfold Dependable
  rw [if_neg (by decide), if_neg (by decide), if_neg (by decide)]
  intro hleft
  exact ⟨⟨hleft, by decide, by decide, by decide, .null, rfl⟩, rfl, rfl, by decide,
    Redis.isStream_of_none rfl⟩

/-- A transaction that throws is taken for a task without retries left: the
report is acknowledged, and the row stays RUNNING without a new entry. -/
theorem failed_transaction_acknowledged :
    addresses failureA.taskId taskA ∧
    runningA.db.task? taskA = some (rowA stateRunning (some "w")) ∧
    (updateTaskStatus fullService { handleTaskFailure := .notRun } .insertion 0 failureA
      runningA).1 = .ok ∧
    ¬ TookEffect .insertion failureA taskA (rowA stateRunning (some "w")) runningA
      (updateTaskStatus fullService { handleTaskFailure := .notRun } .insertion 0 failureA
        runningA).2 := by
  have hid : addresses failureA.taskId taskA := addresses_text taskA
  have hrow : runningA.db.task? taskA = some (rowA stateRunning (some "w")) := rfl
  refine ⟨hid, hrow, rfl, fun heffect => ?_⟩
  rcases heffect with ⟨hsuccess, -⟩ | ⟨-, heffect⟩
  · exact absurd hsuccess (by decide)
  · have hrunning := (reportFailure_iff fullService _ 0 hid hrow).mp heffect
    rw [if_pos (by decide)] at hrunning
    exact absurd hrunning (by decide)

/-! ## Finished tasks -/

/-- A call of one of the four updates, with what becomes of its transaction. -/
inductive RepoCall where
  | handleTaskFailure (outcome : TxOutcome) (now : Int) (taskId errorMsg : String)
      (workerReportedRetry : Int)
  | updateTaskToRunning (outcome : TxOutcome) (now : Int) (taskId workerId : String)
  | revertTaskToPending (outcome : TxOutcome) (taskId : String)
  | requeueOrphanedTasks (outcome : TxOutcome) (deadWorkerId : String)

def RepoCall.run : RepoCall → Db → Db
  | .handleTaskFailure outcome now taskId errorMsg n, db =>
    (DistTaskSystem.handleTaskFailure outcome now taskId errorMsg n db).2
  | .updateTaskToRunning outcome now taskId workerId, db =>
    (DistTaskSystem.updateTaskToRunning outcome now taskId workerId db).2
  | .revertTaskToPending outcome taskId, db =>
    (DistTaskSystem.revertTaskToPending outcome taskId db).2
  | .requeueOrphanedTasks outcome deadWorkerId, db =>
    (DistTaskSystem.requeueOrphanedTasks outcome deadWorkerId db).2

/-- The database after a sequence of calls. -/
def runCalls (calls : List RepoCall) (db : Db) : Db := calls.foldl (fun db call => call.run db) db

/-- The call is guarded, or misses the row, or is not kept. An unguarded
failure leaves the state of one kind of row alone: a FAILED one without
retries. -/
def RepoCall.Harmless (id : Uuid) (row : TaskRow) : RepoCall → Prop
  | .handleTaskFailure outcome _ taskId _ _ => outcome.kept = true → addresses taskId id →
    row.run.state = stateFailed ∧ ¬ row.run.retryCount.val < row.maxRetry.val
  | .revertTaskToPending outcome taskId => outcome.kept = true → ¬ addresses taskId id
  | .updateTaskToRunning .. => True
  | .requeueOrphanedTasks .. => True

/-- SUCCESS or FAILED. -/
def TaskRow.Finished (row : TaskRow) : Prop :=
  row.run.state = stateSuccess ∨ row.run.state = stateFailed

/-- What `Harmless` depends on. -/
structure SameStage (row row' : TaskRow) : Prop where
  state : row'.run.state = row.run.state
  retryCount : row'.run.retryCount = row.run.retryCount
  maxRetry : row'.maxRetry = row.maxRetry

theorem SameStage.harmless {row row' : TaskRow} (h : SameStage row row') (id : Uuid)
    (call : RepoCall) : call.Harmless id row' ↔ call.Harmless id row := by
  cases call with
  | handleTaskFailure outcome now taskId errorMsg n =>
    unfold RepoCall.Harmless
    rw [h.state, h.retryCount, h.maxRetry]
  | _ => exact Iff.rfl

section Finished

variable {db : Db} {id : Uuid} {row : TaskRow}

/-- **One call on a finished row** leaves the state alone exactly if it is
harmless. -/
theorem RepoCall.run_row (hrow : db.task? id = some row) (hfinished : row.Finished)
    (call : RepoCall) : ∃ row', (call.run db).task? id = some row' ∧
      (call.Harmless id row → SameStage row row') ∧
      (¬ call.Harmless id row → row'.run.state ≠ row.run.state) := by
  have hpending : row.run.state ≠ statePending := by
    intro heq
    rcases hfinished with h | h <;> exact absurd (h.symm.trans heq) (by decide)
  have hrunning : row.run.state ≠ stateRunning := by
    intro heq
    rcases hfinished with h | h <;> exact absurd (h.symm.trans heq) (by decide)
  cases call with
  | handleTaskFailure outcome now taskId errorMsg n =>
    unfold RepoCall.run RepoCall.Harmless
    dsimp only
    by_cases haddr : addresses taskId id
    · refine ⟨_, (handleTaskFailure_row haddr hrow outcome now errorMsg n).2, ?_⟩
      by_cases hkept : outcome.kept = true
      · rw [if_pos hkept]
        by_cases hleft : row.run.retryCount.val < row.maxRetry.val
        · -- reset to PENDING, which a finished row is not
          refine ⟨fun h => absurd hleft (h hkept haddr).2, fun _ heq => hpending ?_⟩
          exact heq.symm.trans (row.afterFailure_retried hleft now errorMsg).1
        · have hfailed := row.afterFailure_failed hleft now errorMsg
          refine ⟨fun h => ⟨hfailed.trans (h hkept haddr).1.symm, ?_, rfl⟩, fun h heq => h ?_⟩
          · show (row.afterFailure now errorMsg).retryCount = row.run.retryCount
            unfold TaskRow.afterFailure
            rw [dif_neg hleft]
            rfl
          · exact fun _ _ => ⟨heq.symm.trans hfailed, hleft⟩
      · rw [if_neg hkept]
        exact ⟨fun _ => ⟨rfl, rfl, rfl⟩, fun h => absurd (fun hk => absurd hk hkept) h⟩
    · rw [handleTaskFailure_other haddr, hrow]
      exact ⟨row, rfl, fun _ => ⟨rfl, rfl, rfl⟩, fun h => absurd (fun _ ha => absurd ha haddr) h⟩
  | updateTaskToRunning outcome now taskId workerId =>
    exact ⟨row, updateTaskToRunning_row hrow hpending outcome now taskId workerId,
      fun _ => ⟨rfl, rfl, rfl⟩, fun h => absurd trivial h⟩
  | revertTaskToPending outcome taskId =>
    unfold RepoCall.run RepoCall.Harmless
    dsimp only
    by_cases haddr : addresses taskId id
    · refine ⟨_, revertTaskToPending_row haddr hrow outcome, ?_⟩
      by_cases hkept : outcome.kept = true
      · rw [if_pos hkept]
        exact ⟨fun h => absurd haddr (h hkept), fun _ heq => hpending heq.symm⟩
      · rw [if_neg hkept]
        exact ⟨fun _ => ⟨rfl, rfl, rfl⟩, fun h => absurd (fun hk => absurd hk hkept) h⟩
    · exact ⟨row, revertTaskToPending_other hrow haddr outcome, fun _ => ⟨rfl, rfl, rfl⟩,
        fun h => absurd (fun _ => haddr) h⟩
  | requeueOrphanedTasks outcome deadWorkerId =>
    exact ⟨row, requeueOrphanedTasks_row hrow hrunning outcome deadWorkerId,
      fun _ => ⟨rfl, rfl, rfl⟩, fun h => absurd trivial h⟩

/-- The state of the row, if the row is there. -/
def stateOf (db : Db) (id : Uuid) : Option SmallInt := (db.task? id).map fun row => row.run.state

theorem SameStage.finished {row row' : TaskRow} (h : SameStage row row') (hrow : row.Finished) :
    row'.Finished := by
  unfold TaskRow.Finished
  rw [h.state]
  exact hrow

/-- A run of harmless calls keeps the state. -/
theorem runCalls_state (hrow : db.task? id = some row) (hfinished : row.Finished)
    (calls : List RepoCall) (hharmless : ∀ call ∈ calls, call.Harmless id row) :
    stateOf (runCalls calls db) id = some row.run.state := by
  induction calls generalizing db row with
  | nil =>
    unfold stateOf runCalls
    rw [List.foldl_nil, hrow, Option.map_some]
  | cons call rest ih =>
    obtain ⟨hcall, hrest⟩ := List.forall_mem_cons.mp hharmless
    obtain ⟨row₁, hrow₁, hsame, -⟩ := call.run_row hrow hfinished
    have hstage := hsame hcall
    rw [← hstage.state]
    exact ih hrow₁ (hstage.finished hfinished) fun c hc => (hstage.harmless id c).mpr (hrest c hc)

/-- A run that keeps the state all along consists of harmless calls. -/
theorem harmless_of_runCalls (hrow : db.task? id = some row) (hfinished : row.Finished)
    (calls : List RepoCall)
    (hfinal : ∀ done, done <+: calls → stateOf (runCalls done db) id = some row.run.state) :
    ∀ call ∈ calls, call.Harmless id row := by
  induction calls generalizing db row with
  | nil => exact fun call hcall => absurd hcall List.not_mem_nil
  | cons call rest ih =>
    obtain ⟨row₁, hrow₁, hsame, hchange⟩ := call.run_row hrow hfinished
    -- the first call alone is a run as well
    have hfirst : row₁.run.state = row.run.state := by
      have hone := hfinal [call] ⟨rest, rfl⟩
      unfold stateOf at hone
      rw [show runCalls [call] db = call.run db from rfl, hrow₁, Option.map_some] at hone
      exact Option.some.inj hone
    have hcall : call.Harmless id row := by
      by_contra hno
      exact hchange hno hfirst
    have hstage := hsame hcall
    have hrest := ih hrow₁ (hstage.finished hfinished) fun done hdone => by
      obtain ⟨later, rfl⟩ := hdone
      have hlonger := hfinal (call :: done) ⟨later, rfl⟩
      rw [hfirst]
      exact hlonger
    exact List.forall_mem_cons.mpr
      ⟨hcall, fun c hc => (hstage.harmless id c).mp (hrest c hc)⟩

end Finished

/-! ### Finished tasks and the stream -/

section Stream

variable (svc : SchedulerService) (faults : CallFaults) (ord : MembersOrder) (now : Int)
  {request : UpdateTaskStatusRequest} {s : SchedulerState} {id : Uuid} {row : TaskRow}

/-- The report pushes the task: as a child that its parent's completion
releases, or as a failed task that has retries left. -/
def Pushed (request : UpdateTaskStatusRequest) (id : Uuid) (row : TaskRow) (r : Redis) : Prop :=
  if request.finalState = .success then
    request.taskId ≠ "" ∧ faults.evalSha ≠ .refused ∧
      id.text ∈ scriptPushes ord request.taskId request.jobId r
  else svc.hasRepository = true ∧ addresses request.taskId id ∧ PushesAgain svc faults row r

theorem streamCount_eq (r : Redis) (jobId t : String) :
    streamCount r t = (view jobId r).ready.count t := rfl

theorem streamCount_reportSuccess :
    streamCount (reportSuccess svc faults ord request s).redis id.text =
        streamCount s.redis id.text ↔
      ¬ (faults.evalSha ≠ .refused ∧
        id.text ∈ scriptPushes ord request.taskId request.jobId s.redis) := by
  have hready := (completeTask_run ord request.taskId request.jobId s.redis).2
  show streamCount (redisCall faults.evalSha _ s.redis).2 id.text = _ ↔ _
  rw [redisCall_state]
  by_cases hrefused : faults.evalSha = .refused
  · simp [hrefused]
  · rw [if_neg hrefused, streamCount_eq _ request.jobId, hready, List.count_append,
      streamCount_eq _ request.jobId]
    simp [hrefused, List.count_eq_zero]

theorem streamCount_reportFailure (hrow : s.db.task? id = some row) :
    streamCount (reportFailure svc faults now request s).redis id.text =
        streamCount s.redis id.text ↔
      ¬ (addresses request.taskId id ∧ PushesAgain svc faults row s.redis) := by
  by_cases h : addresses request.taskId id
  · obtain ⟨-, hpush, hstay⟩ := reportFailure_row svc faults now h hrow
    by_cases hpushes : PushesAgain svc faults row s.redis
    · obtain ⟨jobId, hredis⟩ := hpush hpushes
      rw [hredis, xadd_ok hpushes.tasks]
      simp [streamCount, Stream.add, h, hpushes]
    · rw [hstay hpushes]
      simp [hpushes]
  · refine iff_of_true ?_ fun hpush => h hpush.1
    rcases reportFailure_redis svc faults now request s with
      hredis | ⟨task, jobId, htask, hstream, hredis⟩
    · rw [hredis]
    · -- the new entry is about the addressed task, which is another one
      have hne : task.text ≠ id.text := by
        intro heq
        rw [Uuid.text_inj] at heq
        exact h (heq ▸ htask)
      rw [hredis, xadd_ok hstream]
      simp [streamCount, Stream.add, hne]

end Stream

/-- **Which updates a finished task is safe from.** Over every run of the four
repository calls the state of a finished row is final exactly if each call is
harmless, and a report adds no stream entry for a task whose row is SUCCESS
exactly if it does not push it. -/
theorem terminal_state_iff {db : Db} {id : Uuid} {row : TaskRow} (hrow : db.task? id = some row)
    (hfinished : row.Finished) :
    (∀ calls : List RepoCall,
      (∀ done, done <+: calls → stateOf (runCalls done db) id = some row.run.state) ↔
        ∀ call ∈ calls, call.Harmless id row) ∧
    (row.run.state = stateSuccess → ∀ (svc : SchedulerService) (faults : CallFaults)
      (ord : MembersOrder) (now : Int) (request : UpdateTaskStatusRequest) (redis : Redis)
      (queue : List TaskUpdateOp) (scripts : List (String × String)),
      streamCount (updateTaskStatus svc faults ord now request ⟨redis, db, queue, scripts⟩).2.redis
          id.text = streamCount redis id.text ↔
        ¬ Pushed svc faults ord request id row redis) := by
  constructor
  · intro calls
    exact ⟨harmless_of_runCalls hrow hfinished calls, fun hharmless done hdone =>
      runCalls_state hrow hfinished done fun call hcall => hharmless call (hdone.subset hcall)⟩
  · intro _ svc faults ord now request redis queue scripts
    unfold updateTaskStatus Pushed
    by_cases hempty : request.taskId = ""
    · rw [if_pos hempty]
      have haddr : ¬ addresses request.taskId id := fun h => addresses_ne_empty h hempty
      by_cases hsuccess : request.finalState = .success
      · simp [hempty, hsuccess]
      · simp [hsuccess, haddr]
    · rw [if_neg hempty]
      by_cases hsuccess : request.finalState = .success
      · rw [if_pos hsuccess, if_pos hsuccess]
        simpa [hempty] using streamCount_reportSuccess svc faults ord
      · rw [if_neg hsuccess, if_neg hsuccess]
        cases hrepository : svc.hasRepository with
        | false => simp
        | true => simpa using streamCount_reportFailure svc faults now hrow

theorem terminal_state_iff_guarded :
    stateOf (runCalls [.updateTaskToRunning .committed 0 taskA.text "w2",
        .requeueOrphanedTasks .committed "w"] (dbA stateSuccess (some "w"))) taskA =
      some stateSuccess := by
  have hrow : (dbA stateSuccess (some "w")).task? taskA = some (rowA stateSuccess (some "w")) :=
    rfl
  have hguarded := ((terminal_state_iff hrow (.inl rfl)).1
    [.updateTaskToRunning .committed 0 taskA.text "w2",
      .requeueOrphanedTasks .committed "w"]).mpr fun call hcall => by
    rcases List.mem_pair.mp hcall with rfl | rfl <;> trivial
  exact hguarded _ (List.prefix_refl _)

/-- A late failure report takes a SUCCESS row back to PENDING and pushes the
task again. -/
theorem late_failure_reopens :
    (rowA stateSuccess (some "w")).Finished ∧
    (dbA stateSuccess (some "w")).task? taskA = some (rowA stateSuccess (some "w")) ∧
    stateOf (runCalls [.handleTaskFailure .committed 0 failureA.taskId failureA.errorMsg 0]
      (dbA stateSuccess (some "w"))) taskA = some statePending ∧
    streamCount (updateTaskStatus fullService {} .insertion 0 failureA
      ⟨.empty, dbA stateSuccess (some "w"), [], []⟩).2.redis taskA.text = 1 := by
  have hid : addresses failureA.taskId taskA := addresses_text taskA
  have hrow : (dbA stateSuccess (some "w")).task? taskA = some (rowA stateSuccess (some "w")) :=
    rfl
  refine ⟨.inl rfl, hrow, ?_, ?_⟩
  · have hreset := (handleTaskFailure_row hid hrow .committed 0 failureA.errorMsg 0).2
    unfold stateOf
    show Option.map _ ((handleTaskFailure .committed 0 failureA.taskId failureA.errorMsg 0
      (dbA stateSuccess (some "w"))).2.task? taskA) = _
    rw [hreset]
    rfl
  · obtain ⟨-, hpush, -⟩ := reportFailure_row fullService {} 0
      (s := ⟨.empty, dbA stateSuccess (some "w"), [], []⟩) hid hrow
    have hstream : Redis.empty.IsStream kTasks := Redis.isStream_of_none rfl
    obtain ⟨jobId, hredis⟩ := hpush
      ⟨⟨by decide, by decide, by decide, by decide, .null, rfl⟩, rfl, rfl, by decide, hstream⟩
    show streamCount (reportFailure fullService {} 0 failureA _).redis taskA.text = 1
    rw [hredis, xadd_ok hstream]
    simp [streamCount, Stream.add, Redis.streamAt_of_none, Redis.empty, Stream.empty]

end DistTaskSystem
