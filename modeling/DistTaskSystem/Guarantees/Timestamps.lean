import DistTaskSystem.Library.Runs
import DistTaskSystem.Scheduler.RowUpdates
import DistTaskSystem.Guarantees.FlushTiming
import DistTaskSystem.Guarantees.Submission

/-!
# DTS — the timestamps of a task

Three columns of a task say when it was submitted, started and finished. The server
writes the first one from its own clock, in milliseconds; the statements of the
scheduler write the other two as `EXTRACT(EPOCH FROM NOW())::BIGINT`, which counts
seconds. So the start and the finish of a task are in order, and the submission is
before them only if the clock has reached a thousand times what it read then.

## Results

* `exec_mem`, `exec_mem_of_mem` — what a call makes of every row, and which rows are new.
* `start_le_finish`   — two of the columns are in order after every run.
* `timestamps_iff`    — all three are exactly if no call stamps a row too early.
* `stamped_too_early` — on a clock that counts from 1970 every stamp is too early.
-/

namespace DistTaskSystem

open Runs

-- ---------------------------------------------------------------------------
-- The system
-- ---------------------------------------------------------------------------

/-- `duration_cast<milliseconds>` of a clock that counts microseconds. -/
def clockMillis (clock : Nat) : Int := (clock / 1000 : Nat)

/-- `EXTRACT(EPOCH FROM NOW())::BIGINT`: the cast rounds. -/
def clockSeconds (clock : Nat) : Int := ((clock + 500000) / 1000000 : Nat)

/-- The calls that write a timestamp, with what becomes of their transactions. -/
inductive TableCall where
  | flushDBBatch (outcome : TxOutcome) (batch : List BatchItem)
  | updateTaskToRunning (outcome : TxOutcome) (taskId workerId : String)
  | handleTaskFailure (outcome : TxOutcome) (taskId errorMsg : String) (retryCount : Int)
  | flushBatch (outcome : TxOutcome) (choice : JoinChoice) (batch : List TaskUpdateOp)

namespace TableCall

/-- A flush completes tasks: `AddStatusUpdate` is called for SUCCESS reports only. -/
def Completes : TableCall → Prop
  | .flushBatch _ _ batch => ∀ op ∈ batch, op.state = .success
  | _ => True

instance : DecidablePred Completes
  | .flushDBBatch _ _ => .isTrue trivial
  | .updateTaskToRunning _ _ _ => .isTrue trivial
  | .handleTaskFailure _ _ _ _ => .isTrue trivial
  | .flushBatch _ _ batch => inferInstanceAs (Decidable (∀ op ∈ batch, op.state = .success))

/-- The tables after a call at the given time. -/
def exec (jsonbIn : String → Option String) (clock : Nat) (db : Db) : TableCall → Db
  | .flushDBBatch outcome batch =>
    (executeTx outcome (DistTaskSystem.flushDBBatch jsonbIn (clockMillis clock) batch) db).db
  | .updateTaskToRunning outcome taskId workerId =>
    (DistTaskSystem.updateTaskToRunning outcome (clockSeconds clock) taskId workerId db).2
  | .handleTaskFailure outcome taskId errorMsg retryCount =>
    (DistTaskSystem.handleTaskFailure outcome (clockSeconds clock) taskId errorMsg retryCount db).2
  | .flushBatch outcome choice batch =>
    DistTaskSystem.flushBatch jsonbIn ⟨outcome, choice, clockSeconds clock⟩ batch db

end TableCall

/-- A call and the clock it reads. -/
structure TimedCall where
  clock : Nat
  call : TableCall

/-- The tables, and the clock at the last call. -/
structure TimedTables where
  db : Db
  clock : Nat := 0

/-- The clock does not go back. -/
def TimedTables.step (jsonbIn : String → Option String) (s : TimedTables) (a : TimedCall) :
    Option TimedTables :=
  if s.clock ≤ a.clock ∧ a.call.Completes then some ⟨a.call.exec jsonbIn a.clock s.db, a.clock⟩
  else none

-- ---------------------------------------------------------------------------
-- Order
-- ---------------------------------------------------------------------------

/-- The timestamps a row has are in order. -/
structure TaskRow.InOrder (row : TaskRow) : Prop where
  submitStart : ∀ submit ∈ row.submitTs, ∀ start ∈ row.run.startTs, submit ≤ start
  submitFinish : ∀ submit ∈ row.submitTs, ∀ finish ∈ row.run.finishTs, submit ≤ finish
  startFinish : ∀ start ∈ row.run.startTs, ∀ finish ∈ row.run.finishTs, start ≤ finish

/-- What holds of the start and the finish of every row; the clock reads `now`. -/
structure TaskRow.Dated (now : Int) (row : TaskRow) : Prop where
  started : ∀ start ∈ row.run.startTs, start ≤ now
  finished : ∀ finish ∈ row.run.finishTs, finish ≤ now
  pending : row.run.state = statePending → row.run.finishTs = none
  startFinish : ∀ start ∈ row.run.startTs, ∀ finish ∈ row.run.finishTs, start ≤ finish

/-- What a call that stamps a row makes of it. -/
inductive Stamped (now : Int) (row : TaskRow) : TaskRun → Prop where
  | started (hpending : row.run.state = statePending) (worker : String) :
      Stamped now row (startedRun now worker row.run)
  | failed (errorMsg : String) : Stamped now row (failedRun now errorMsg row.run)
  | completed {w : StatusWrite} (hstate : w.state = stateSuccess) :
      Stamped now row (w.apply now row.run)

/-- What any other call makes of it. -/
inductive Unstamped (row : TaskRow) : TaskRun → Prop where
  | kept : Unstamped row row.run
  | retried (errorMsg : String) (retryCount : SmallInt) :
      Unstamped row (retriedRun errorMsg retryCount row.run)

/-- A row as it is inserted. -/
structure TaskRow.Inserted (submit : Int) (row : TaskRow) : Prop where
  submitTs : row.submitTs = some submit
  startTs : row.run.startTs = none
  finishTs : row.run.finishTs = none

section Rows

variable {now now' : Int} {row : TaskRow} {run : TaskRun}

theorem TaskRow.Dated.mono (h : row.Dated now) (hle : now ≤ now') : row.Dated now' where
  started start hstart := le_trans (h.started start hstart) hle
  finished finish hfinish := le_trans (h.finished finish hfinish) hle
  pending := h.pending
  startFinish := h.startFinish

theorem TaskRow.dated_of_none (hstart : row.run.startTs = none)
    (hfinish : row.run.finishTs = none) : row.Dated now := by
  refine ⟨?_, ?_, fun _ => hfinish, ?_⟩
  · rw [hstart]
    exact nofun
  · rw [hfinish]
    exact nofun
  · rw [hstart]
    exact nofun

theorem TaskRow.inOrder_of_none (hstart : row.run.startTs = none)
    (hfinish : row.run.finishTs = none) : row.InOrder := by
  refine ⟨fun _ _ => ?_, fun _ _ => ?_, ?_⟩
  · rw [hstart]
    exact nofun
  · rw [hfinish]
    exact nofun
  · rw [hstart]
    exact nofun

/-- A task that is started has not finished. -/
theorem TaskRow.Dated.start (h : row.Dated now) (hpending : row.run.state = statePending)
    (worker : String) : { row with run := startedRun now worker row.run }.Dated now := by
  have hfinish := h.pending hpending
  refine ⟨?_, h.finished, fun _ => hfinish, ?_⟩
  · rintro start ⟨rfl⟩
    exact le_refl now
  · intro start _ finish hmem
    exact nomatch hfinish.symm.trans hmem

/-- A task that finishes now was started before. -/
theorem TaskRow.Dated.finish (h : row.Dated now) (hstart : run.startTs = row.run.startTs)
    (hfinish : run.finishTs = some now) (hstate : run.state ≠ statePending) :
    { row with run := run }.Dated now := by
  have hnow : ∀ finish ∈ run.finishTs, finish = now := fun finish hmem =>
    Option.some.inj (hmem.symm.trans hfinish)
  refine ⟨?_, fun finish hmem => (hnow finish hmem).le, fun hpending => absurd hpending hstate, ?_⟩
  · show ∀ start ∈ run.startTs, start ≤ now
    rw [hstart]
    exact h.started
  · show ∀ start ∈ run.startTs, ∀ finish ∈ run.finishTs, start ≤ finish
    rw [hstart]
    intro start hmem finish hmem'
    rw [hnow finish hmem']
    exact h.started start hmem

theorem TaskRow.Dated.stamped (h : row.Dated now) (hrun : Stamped now row run) :
    { row with run := run }.Dated now := by
  cases hrun with
  | started hpending worker => exact h.start hpending worker
  | failed errorMsg => exact h.finish rfl rfl (by decide : stateFailed ≠ statePending)
  | completed hstate =>
    refine h.finish rfl rfl fun hpending => ?_
    exact absurd (hstate.symm.trans hpending) (by decide)

/-- A retry clears both columns. -/
theorem TaskRow.Dated.unstamped (h : row.Dated now) (hrun : Unstamped row run) :
    { row with run := run }.Dated now := by
  cases hrun with
  | kept => exact h
  | retried errorMsg retryCount => exact dated_of_none rfl rfl

theorem TaskRow.InOrder.unstamped (h : row.InOrder) (hrun : Unstamped row run) :
    { row with run := run }.InOrder := by
  cases hrun with
  | kept => exact h
  | retried errorMsg retryCount => exact inOrder_of_none rfl rfl

theorem TaskRow.InOrder.finish_iff (h : row.InOrder) (hdated : { row with run := run }.Dated now)
    (hstart : run.startTs = row.run.startTs) (hfinish : run.finishTs = some now) :
    { row with run := run }.InOrder ↔ ∀ submit ∈ row.submitTs, submit ≤ now := by
  constructor
  · exact fun horder submit hsubmit => horder.submitFinish submit hsubmit now hfinish
  · intro hbefore
    refine ⟨?_, ?_, hdated.startFinish⟩
    · show ∀ submit ∈ row.submitTs, ∀ start ∈ run.startTs, submit ≤ start
      rw [hstart]
      exact h.submitStart
    · intro submit hsubmit finish hmem
      rw [Option.some.inj (hmem.symm.trans hfinish)]
      exact hbefore submit hsubmit

/-- **A stamp keeps the order** exactly if the task was submitted before it. -/
theorem TaskRow.InOrder.stamped_iff (h : row.InOrder) (hdated : row.Dated now)
    (hrun : Stamped now row run) :
    { row with run := run }.InOrder ↔ ∀ submit ∈ row.submitTs, submit ≤ now := by
  have hafter := hdated.stamped hrun
  cases hrun with
  | started hpending worker =>
    constructor
    · exact fun horder submit hsubmit => horder.submitStart submit hsubmit now rfl
    · intro hbefore
      refine ⟨?_, h.submitFinish, hafter.startFinish⟩
      rintro submit hsubmit start ⟨rfl⟩
      exact hbefore submit hsubmit
  | failed errorMsg => exact h.finish_iff hafter rfl rfl
  | completed hstate => exact h.finish_iff hafter rfl rfl

end Rows

-- ---------------------------------------------------------------------------
-- What a call does to the rows
-- ---------------------------------------------------------------------------

namespace TableCall

variable {jsonbIn : String → Option String} {clock : Nat} {db : Db} {call : TableCall}

/-- The call writes the clock into the row. -/
def Stamps (jsonbIn : String → Option String) (row : TaskRow) : TableCall → Prop
  | .flushDBBatch _ _ => False
  | .updateTaskToRunning outcome taskId workerId =>
    outcome.kept = true ∧ addresses taskId row.taskId ∧
      (∃ worker, castVarchar255 (paramText workerId) = .ok worker) ∧
      row.run.state = statePending
  | .handleTaskFailure outcome taskId _ _ =>
    outcome.kept = true ∧ addresses taskId row.taskId ∧
      ¬ row.run.retryCount.val < row.maxRetry.val
  | .flushBatch outcome _ batch =>
    (outcome.kept = true ∧ ∀ op ∈ batch, op.Valid jsonbIn) ∧
      ∃ op ∈ batch, addresses op.taskId row.taskId

/-- What the call makes of a row that was there. -/
def Leaves (jsonbIn : String → Option String) (now : Int) (call : TableCall) (row : TaskRow)
    (run : TaskRun) : Prop :=
  (call.Stamps jsonbIn row ∧ Stamped now row run) ∨
    (¬ call.Stamps jsonbIn row ∧ Unstamped row run)

/-- `UpdateTaskToRunning` starts the rows it stamps and keeps the others. -/
theorem updateTaskToRunning_leaves (jsonbIn : String → Option String) (outcome : TxOutcome)
    (now : Int) (taskId workerId : String) (db : Db) :
    db.Updates (fun row run =>
        ((updateTaskToRunning outcome taskId workerId).Stamps jsonbIn row ∧
          ∃ worker, run = startedRun now worker row.run) ∨
        (¬ (updateTaskToRunning outcome taskId workerId).Stamps jsonbIn row ∧ run = row.run))
      (DistTaskSystem.updateTaskToRunning outcome now taskId workerId db).2 := by
  rw [DistTaskSystem.updateTaskToRunning]
  cases htx : updateTaskToRunningTx now taskId workerId db with
  | error e =>
    rw [executeTx_error htx]
    refine .refl db fun row => .inr ⟨?_, rfl⟩
    rintro ⟨-, hid, ⟨worker, hworker⟩, -⟩
    rw [updateTaskToRunningTx, castUuid_eq hid, hworker] at htx
    cases htx
  | ok result =>
    obtain ⟨updated, db'⟩ := result
    rw [executeTx_db htx]
    by_cases hkept : outcome.kept = true
    · rw [if_pos hkept]
      obtain ⟨id, hcast, htx⟩ := Fallible.bind_eq_ok.mp htx
      obtain ⟨worker, hworker, htx⟩ := Fallible.bind_eq_ok.mp htx
      obtain ⟨-, rfl⟩ := Prod.mk.inj (Except.ok.inj htx)
      have haddress : addresses taskId id := castUuid_eq_ok.mp hcast
      refine .update db fun row => ?_
      split
      · next hcond =>
        refine .inl ⟨⟨hkept, ?_, ⟨worker, hworker⟩, hcond.2⟩, worker, rfl⟩
        rw [hcond.1]
        exact haddress
      · next hcond =>
        refine .inr ⟨?_, rfl⟩
        rintro ⟨-, hid, -, hpending⟩
        exact hcond ⟨Option.some.inj (hid.symm.trans haddress), hpending⟩
    · rw [if_neg hkept]
      exact .refl db fun row => .inr ⟨fun h => hkept h.1, rfl⟩

theorem exec_updateTaskToRunning (outcome : TxOutcome) (now : Int) (taskId workerId : String) :
    db.Updates ((updateTaskToRunning outcome taskId workerId).Leaves jsonbIn now)
      (DistTaskSystem.updateTaskToRunning outcome now taskId workerId db).2 := by
  refine (updateTaskToRunning_leaves jsonbIn outcome now taskId workerId db).imp ?_
  rintro row run (⟨hstamps, worker, rfl⟩ | ⟨hnot, rfl⟩)
  · exact .inl ⟨hstamps, .started hstamps.2.2.2 worker⟩
  · exact .inr ⟨hnot, .kept⟩

theorem exec_handleTaskFailure (outcome : TxOutcome) (now : Int) (taskId errorMsg : String)
    (n : Int) :
    db.Updates ((handleTaskFailure outcome taskId errorMsg n).Leaves jsonbIn now)
      (DistTaskSystem.handleTaskFailure outcome now taskId errorMsg n db).2 := by
  refine ⟨fun id row hrow => ?_, (handleTaskFailure_updates outcome now db taskId errorMsg n).none⟩
  have hid := Db.task?_taskId hrow
  by_cases haddress : addresses taskId id
  · rw [(handleTaskFailure_row haddress hrow outcome now errorMsg n).2]
    by_cases hkept : outcome.kept = true
    · rw [if_pos hkept]
      refine ⟨_, rfl, ?_⟩
      unfold TaskRow.afterFailure
      split
      · next hretry => exact .inr ⟨fun h => h.2.2 hretry, .retried errorMsg _⟩
      · next hlast => exact .inl ⟨⟨hkept, hid ▸ haddress, hlast⟩, .failed errorMsg⟩
    · rw [if_neg hkept]
      exact ⟨row.run, rfl, .inr ⟨fun h => hkept h.1, .kept⟩⟩
  · rw [handleTaskFailure_other haddress]
    exact ⟨row.run, hrow, .inr ⟨fun h => haddress (hid ▸ h.2.1), .kept⟩⟩

theorem exec_flushBatch (outcome : TxOutcome) (choice : JoinChoice) (now : Int)
    {batch : List TaskUpdateOp} (hsuccess : ∀ op ∈ batch, op.state = .success) :
    db.Updates ((flushBatch outcome choice batch).Leaves jsonbIn now)
      (DistTaskSystem.flushBatch jsonbIn ⟨outcome, choice, now⟩ batch db) := by
  refine ⟨fun id row hrow => ?_, fun id hnone => flushBatch_none hnone⟩
  have hid := Db.task?_taskId hrow
  by_cases hcommit : (⟨outcome, choice, now⟩ : FlushEnv).Commits jsonbIn batch
  · rcases flushBatch_row hcommit hrow with ⟨op, hop, w, hw, hwid, hrow'⟩ | ⟨hother, hrow'⟩
    · obtain ⟨haddress, hcast⟩ := write_eq_ok hw
      have hstamps : (flushBatch outcome choice batch).Stamps jsonbIn row :=
        ⟨hcommit, op, hop, by rw [hid, ← hwid]; exact haddress⟩
      exact ⟨_, hrow', .inl ⟨hstamps,
        .completed (Reporting.cast_success (hsuccess op hop) hcast)⟩⟩
    · refine ⟨row.run, hrow', .inr ⟨?_, .kept⟩⟩
      rintro ⟨-, op, hop, haddress⟩
      exact hother op hop (hid ▸ haddress)
  · rw [flushBatch_fails hcommit]
    exact ⟨row.run, hrow, .inr ⟨fun h => hcommit h.1, .kept⟩⟩

/-- A batch adds rows that were inserted at the time of the call. -/
theorem flushDBBatch_inserted {submit : Int} {batch batch' : List BatchItem} {db' : Db}
    (h : DistTaskSystem.flushDBBatch jsonbIn submit batch db = .ok (batch', db')) :
    ∃ rows, db'.tasks = db.tasks ++ rows ∧ ∀ row ∈ rows, row.Inserted submit := by
  unfold DistTaskSystem.flushDBBatch at h
  split at h
  · obtain ⟨-, rfl⟩ := Prod.mk.inj (Except.ok.inj h)
    exact ⟨[], (List.append_nil _).symm, fun row hrow => absurd hrow List.not_mem_nil⟩
  obtain ⟨jobs, -, h⟩ := Fallible.bind_eq_ok.mp h
  obtain ⟨db₁, hdb₁, h⟩ := Fallible.bind_eq_ok.mp h
  obtain ⟨written, hwritten, h⟩ := Fallible.bind_eq_ok.mp h
  obtain ⟨rows, hrows, h⟩ := Fallible.bind_eq_ok.mp h
  obtain ⟨db₂, hdb₂, h⟩ := Fallible.bind_eq_ok.mp h
  rw [sql_eq_ok] at hdb₁ hrows hdb₂
  have htasks : db₂.tasks = db.tasks ++ rows.flatten := by
    rw [(Db.insertTasks_ok hdb₂).2.1, (Db.insertJobs_ok hdb₁).2.1]
  have hinserted : ∀ row ∈ rows.flatten, row.Inserted submit := by
    intro row hrow
    obtain ⟨itemRows, hitemRows, hrow⟩ := List.mem_flatten.mp hrow
    -- the row is a line of an item, and the line was written with the time of the call
    obtain ⟨item, hitem, hcasts⟩ := Fallible.exists_left (Fallible.mapM_eq_ok.mp hrows) hitemRows
    obtain ⟨line, hline, hcast⟩ := Fallible.exists_left (Fallible.mapM_eq_ok.mp hcasts) hrow
    obtain ⟨item₀, -, hlines⟩ := Fallible.exists_left (Fallible.mapM_eq_ok.mp hwritten) hitem
    obtain ⟨task, -, htask⟩ := Fallible.exists_left (itemLines_eq_ok hlines).1 hline
    obtain ⟨uuid, -, htask⟩ := Fallible.bind_eq_ok.mp htask
    have hsubmit : line.submitTs = submit := by rw [← Except.ok.inj htask]
    rw [castTask] at hcast
    simp only [Fallible.bind_eq_ok] at hcast
    obtain ⟨_, -, _, -, _, -, _, -, _, -, _, -, _, -, _, -, _, -, _, -, _, -, _, -, hcast⟩ := hcast
    obtain rfl := Except.ok.inj hcast
    exact ⟨congrArg some hsubmit, rfl, rfl⟩
  split at h
  · obtain ⟨lines, -, h⟩ := Fallible.bind_eq_ok.mp h
    obtain ⟨edges, -, h⟩ := Fallible.bind_eq_ok.mp h
    obtain ⟨db₃, hdb₃, h⟩ := Fallible.bind_eq_ok.mp h
    rw [sql_eq_ok] at hdb₃
    obtain ⟨-, rfl⟩ := Prod.mk.inj (Except.ok.inj h)
    exact ⟨_, by rw [(Db.insertEdges_ok hdb₃).2.1, htasks], hinserted⟩
  · obtain ⟨-, rfl⟩ := Prod.mk.inj (Except.ok.inj h)
    exact ⟨_, htasks, hinserted⟩

theorem exec_flushDBBatch (jsonbIn : String → Option String) (outcome : TxOutcome) (clock : Nat)
    (batch : List BatchItem) (db : Db) :
    ∃ rows, ((flushDBBatch outcome batch).exec jsonbIn clock db).tasks = db.tasks ++ rows ∧
      ∀ row ∈ rows, row.Inserted (clockMillis clock) := by
  have hsame : ∃ rows, db.tasks = db.tasks ++ rows ∧
      ∀ row ∈ rows, row.Inserted (clockMillis clock) :=
    ⟨[], (List.append_nil _).symm, fun row hrow => absurd hrow List.not_mem_nil⟩
  rw [exec]
  cases htx : DistTaskSystem.flushDBBatch jsonbIn (clockMillis clock) batch db with
  | error e =>
    rw [executeTx_error htx]
    exact hsame
  | ok result =>
    obtain ⟨batch', db'⟩ := result
    rw [executeTx_db htx]
    split
    · exact flushDBBatch_inserted htx
    · exact hsame

/-- The calls of the scheduler insert nothing. -/
theorem exec_updates (jsonbIn : String → Option String) (clock : Nat) (db : Db)
    (hcompletes : call.Completes) (hcall : ∀ outcome batch, call ≠ .flushDBBatch outcome batch) :
    db.Updates (call.Leaves jsonbIn (clockSeconds clock)) (call.exec jsonbIn clock db) := by
  cases call with
  | flushDBBatch outcome batch => exact absurd rfl (hcall outcome batch)
  | updateTaskToRunning outcome taskId workerId =>
    exact exec_updateTaskToRunning outcome _ taskId workerId
  | handleTaskFailure outcome taskId errorMsg n =>
    exact exec_handleTaskFailure outcome _ taskId errorMsg n
  | flushBatch outcome choice batch => exact exec_flushBatch outcome choice _ hcompletes

/-- **What a call makes of a row.** -/
theorem exec_mem (jsonbIn : String → Option String) (clock : Nat) (hcompletes : call.Completes)
    {row : TaskRow} (hrow : row ∈ db.tasks) :
    ∃ run, { row with run := run } ∈ (call.exec jsonbIn clock db).tasks ∧
      call.Leaves jsonbIn (clockSeconds clock) row run := by
  by_cases hcall : ∃ outcome batch, call = .flushDBBatch outcome batch
  · obtain ⟨outcome, batch, rfl⟩ := hcall
    obtain ⟨rows, htasks, -⟩ := exec_flushDBBatch jsonbIn outcome clock batch db
    refine ⟨row.run, ?_, .inr ⟨id, .kept⟩⟩
    rw [htasks]
    exact List.mem_append_left _ hrow
  · exact (exec_updates jsonbIn clock db hcompletes fun outcome batch heq =>
      hcall ⟨outcome, batch, heq⟩).mem hrow

/-- **Which rows there are after a call.** -/
theorem exec_mem_of_mem (hcompletes : call.Completes) {row' : TaskRow}
    (hrow' : row' ∈ (call.exec jsonbIn clock db).tasks) :
    row'.Inserted (clockMillis clock) ∨ ∃ row ∈ db.tasks, ∃ run,
      row' = { row with run := run } ∧ call.Leaves jsonbIn (clockSeconds clock) row run := by
  by_cases hcall : ∃ outcome batch, call = .flushDBBatch outcome batch
  · obtain ⟨outcome, batch, rfl⟩ := hcall
    obtain ⟨rows, htasks, hinserted⟩ := exec_flushDBBatch jsonbIn outcome clock batch db
    rw [htasks] at hrow'
    rcases List.mem_append.mp hrow' with hrow' | hrow'
    · exact .inr ⟨row', hrow', row'.run, rfl, .inr ⟨id, .kept⟩⟩
    · exact .inl (hinserted row' hrow')
  · exact .inr ((exec_updates jsonbIn clock db hcompletes fun outcome batch heq =>
      hcall ⟨outcome, batch, heq⟩).mem_of_mem hrow')

end TableCall

-- ---------------------------------------------------------------------------
-- Runs
-- ---------------------------------------------------------------------------

/-- What a flush is given: in every run of the reports and the flush thread the updates
held are those of SUCCESS reports. -/
theorem Reporting.held_success {svc : SchedulerService} {jsonbIn : String → Option String}
    {redis : Redis} {db : Db} {s : Reporting} {actions : List Reporting.Action}
    (hrun : run (Reporting.step svc jsonbIn) (Reporting.started redis db) actions = some s) :
    ∀ op ∈ s.held, op.state = .success := by
  refine run_invariant (P := fun s => ∀ op ∈ s.held, op.state = .success) ?_ hrun
    fun op hop => absurd hop List.not_mem_nil
  intro s a t h hstep
  cases a with
  | report r =>
    obtain rfl := Option.some.inj hstep
    intro op hop
    rw [Reporting.held_report] at hop
    rcases List.mem_append.mp hop with hop | hop
    · exact h op hop
    · split at hop
      · next hqueues =>
        obtain rfl := List.mem_singleton.mp hop
        exact hqueues.2.1
      · exact absurd hop List.not_mem_nil
  | batcher a =>
    obtain ⟨hadd, b, hb, rfl⟩ := Reporting.step_batcher hstep
    cases DbBatcher.step_moves hb with
    | add op => exact absurd rfl (hadd op)
    | fill timedOut hpoint hqueue =>
      intro op hop
      refine h op ?_
      rwa [Reporting.held, List.append_assoc, List.take_append_drop] at hop
    | flush env hpoint hbatch => exact fun op hop => h op (List.mem_append_right _ hop)
    | _ => exact h

namespace TimedTables

variable {jsonbIn : String → Option String} {s t u : TimedTables} {a : TimedCall}
  {calls : List TimedCall}

theorem step_eq_some : s.step jsonbIn a = some t ↔
    (s.clock ≤ a.clock ∧ a.call.Completes) ∧ t = ⟨a.call.exec jsonbIn a.clock s.db, a.clock⟩ := by
  rw [step]
  split
  · next hcall =>
    rw [Option.some.injEq, eq_comm]
    exact (and_iff_right hcall).symm
  · next hcall => exact iff_of_false (fun h => nomatch h) fun h => hcall h.1

theorem clockSeconds_mono {clock clock' : Nat} (h : clock ≤ clock') :
    clockSeconds clock ≤ clockSeconds clock' := by
  unfold clockSeconds
  omega

theorem clockMillis_mono {clock clock' : Nat} (h : clock ≤ clock') :
    clockMillis clock ≤ clockMillis clock' := by
  unfold clockMillis
  omega

/-- The rows are what they can be at the time of the last call. -/
def Dated (s : TimedTables) : Prop := ∀ row ∈ s.db.tasks, row.Dated (clockSeconds s.clock)

def InOrder (s : TimedTables) : Prop := ∀ row ∈ s.db.tasks, row.InOrder

/-- The call stamps no row that was submitted later: its clock, in seconds, has reached
the `submit_ts` of the row. -/
def InTime (jsonbIn : String → Option String) (s : TimedTables) (a : TimedCall) : Prop :=
  ∀ row ∈ s.db.tasks, a.call.Stamps jsonbIn row →
    ∀ submit ∈ row.submitTs, submit ≤ clockSeconds a.clock

/-- **Step lemma.** -/
theorem step_dated (h : s.Dated) (hstep : s.step jsonbIn a = some t) : t.Dated := by
  obtain ⟨⟨hclock, hcompletes⟩, rfl⟩ := step_eq_some.mp hstep
  intro row' hrow'
  rcases TableCall.exec_mem_of_mem hcompletes hrow' with
    hinserted | ⟨row, hrow, run, rfl, ⟨-, hstamped⟩ | ⟨-, hunstamped⟩⟩
  · exact TaskRow.dated_of_none hinserted.startTs hinserted.finishTs
  · exact ((h row hrow).mono (clockSeconds_mono hclock)).stamped hstamped
  · exact ((h row hrow).mono (clockSeconds_mono hclock)).unstamped hunstamped

/-- **A step keeps the order exactly if it is in time.** -/
theorem step_inOrder_iff (hdated : s.Dated) (h : s.InOrder) (hstep : s.step jsonbIn a = some t) :
    t.InOrder ↔ InTime jsonbIn s a := by
  obtain ⟨⟨hclock, hcompletes⟩, rfl⟩ := step_eq_some.mp hstep
  have hnow : ∀ row ∈ s.db.tasks, row.Dated (clockSeconds a.clock) := fun row hrow =>
    (hdated row hrow).mono (clockSeconds_mono hclock)
  constructor
  · intro horder row hrow hstamps
    obtain ⟨run, hrow', ⟨-, hstamped⟩ | ⟨hnot, -⟩⟩ :=
      TableCall.exec_mem jsonbIn a.clock hcompletes hrow
    · exact ((h row hrow).stamped_iff (hnow row hrow) hstamped).mp (horder _ hrow')
    · exact absurd hstamps hnot
  · intro htime row' hrow'
    rcases TableCall.exec_mem_of_mem hcompletes hrow' with
      hinserted | ⟨row, hrow, run, rfl, ⟨hstamps, hstamped⟩ | ⟨-, hunstamped⟩⟩
    · exact TaskRow.inOrder_of_none hinserted.startTs hinserted.finishTs
    · exact ((h row hrow).stamped_iff (hnow row hrow) hstamped).mpr (htime row hrow hstamps)
    · exact (h row hrow).unstamped hunstamped

/-- The clock and the submissions are no earlier than a time. -/
def SubmittedSince (first : Nat) (s : TimedTables) : Prop :=
  first ≤ s.clock ∧
    ∀ row ∈ s.db.tasks, ∃ submit, row.submitTs = some submit ∧ clockMillis first ≤ submit

theorem step_submittedSince {first : Nat} (h : s.SubmittedSince first)
    (hstep : s.step jsonbIn a = some t) : t.SubmittedSince first := by
  obtain ⟨⟨hclock, hcompletes⟩, rfl⟩ := step_eq_some.mp hstep
  refine ⟨le_trans h.1 hclock, fun row' hrow' => ?_⟩
  rcases TableCall.exec_mem_of_mem hcompletes hrow' with hinserted | ⟨row, hrow, run, rfl, -⟩
  · exact ⟨_, hinserted.submitTs, clockMillis_mono (le_trans h.1 hclock)⟩
  · exact h.2 row hrow

/-- What holds without a condition: a task is not finished before it was started. -/
theorem start_le_finish (hrun : run (step jsonbIn) { db := .empty } calls = some u) :
    ∀ row ∈ u.db.tasks, ∀ start ∈ row.run.startTs, ∀ finish ∈ row.run.finishTs,
      start ≤ finish := by
  have hdated : u.Dated := run_invariant (fun s a t h hstep => step_dated h hstep) hrun
    fun row hrow => absurd hrow List.not_mem_nil
  exact fun row hrow => (hdated row hrow).startFinish

/-- **Timestamps in order.** For every sequence of calls under a clock that does not go
back: the timestamps of all rows are in order in every state reached exactly if each
call that starts, fails or completes a task comes when the clock in seconds has reached
the `submit_ts` of the task, which is in milliseconds. -/
theorem timestamps_iff (hrun : run (step jsonbIn) { db := .empty } calls = some u) :
    (∀ before t, before <+: calls → run (step jsonbIn) { db := .empty } before = some t →
      ∀ row ∈ t.db.tasks, row.InOrder) ↔
    Along (step jsonbIn) (InTime jsonbIn) { db := .empty } calls := by
  have hnone : ∀ row, row ∉ ({ db := .empty } : TimedTables).db.tasks := fun row =>
    List.not_mem_nil
  exact (along_iff_reached (I := Dated) (P := InOrder) (fun s a t h hstep => step_dated h hstep)
    (fun s a t hdated h hstep => step_inOrder_iff hdated h hstep) hrun
    (fun row hrow => absurd hrow (hnone row)) fun row hrow => absurd hrow (hnone row)).symm

/-- **Every stamp is too early** on a clock that, counted in seconds, never reaches what
it read at first in milliseconds: no row that was started or finished is in order. -/
theorem stamped_too_early {first : Nat} (hrun : run (step jsonbIn) ⟨.empty, first⟩ calls = some u)
    (hclock : clockSeconds u.clock < clockMillis first) :
    ∀ row ∈ u.db.tasks, row.run.startTs.isSome ∨ row.run.finishTs.isSome → ¬ row.InOrder := by
  have hdated : u.Dated := run_invariant (fun s a t h hstep => step_dated h hstep) hrun
    fun row hrow => absurd hrow List.not_mem_nil
  have hsince : u.SubmittedSince first :=
    run_invariant (fun s a t h hstep => step_submittedSince h hstep) hrun
      ⟨le_refl first, fun row hrow => absurd hrow List.not_mem_nil⟩
  intro row hrow hstamp horder
  obtain ⟨submit, hsubmit, hle⟩ := hsince.2 row hrow
  rcases hstamp with hstart | hfinish
  · obtain ⟨start, hstart⟩ := Option.isSome_iff_exists.mp hstart
    have hbefore := horder.submitStart submit hsubmit start hstart
    have hnow := (hdated row hrow).started start hstart
    omega
  · obtain ⟨finish, hfinish⟩ := Option.isSome_iff_exists.mp hfinish
    have hbefore := horder.submitFinish submit hsubmit finish hfinish
    have hnow := (hdated row hrow).finished finish hfinish
    omega

-- ---------------------------------------------------------------------------
-- One task
-- ---------------------------------------------------------------------------

/-- A request with one task is written. -/
def submitLone (clock : Nat) : TimedCall :=
  ⟨clock, .flushDBBatch .committed [(lone "k" jobX taskA).item]⟩

/-- Its task is started. -/
def startA (clock : Nat) : TimedCall :=
  ⟨clock, .updateTaskToRunning .committed taskA.text "w"⟩

theorem step_submitLone (clock : Nat) : ∃ db row,
    step jsonbOne { db := .empty } (submitLone clock) = some ⟨db, clock⟩ ∧
      row ∈ db.tasks ∧ row.taskId = taskA ∧ row.run.state = statePending ∧
      ∀ row' ∈ db.tasks, row'.Inserted (clockMillis clock) := by
  have hvalid : ∀ sub ∈ [lone "k" jobX taskA], sub.req.Storable jsonbOne := by
    intro sub hsub
    obtain rfl := List.mem_singleton.mp hsub
    exact loneRequest_storable (by decide)
  obtain ⟨batch, db, hflush⟩ := (flush_ok_iff (clockMillis clock)
    (freshIds_empty (by decide) (by decide))).mpr
      ⟨hvalid, keysFree_of_new (by decide) fun _ _ => List.not_mem_nil⟩
  have hexec : (submitLone clock).call.exec jsonbOne clock .empty = db := by
    rw [submitLone, TableCall.exec]
    exact executeTx_db hflush .committed
  obtain ⟨rows, -, htasks, -⟩ := flush_ok hflush
  obtain ⟨taskRows, htaskRows, hstored⟩ := Fallible.exists_right rows.task List.mem_cons_self
  obtain ⟨row, hrow, htask⟩ := Fallible.exists_right hstored List.mem_cons_self
  refine ⟨db, row, ?_, ?_, Uuid.text_inj.mp htask.taskId, by rw [htask.run]; rfl, ?_⟩
  · exact step_eq_some.mpr ⟨⟨Nat.zero_le clock, trivial⟩, by rw [← hexec]; rfl⟩
  · rw [htasks]
    exact List.mem_append_right _ (List.mem_flatten.mpr ⟨taskRows, htaskRows, hrow⟩)
  · obtain ⟨added, hadded, hinserted⟩ := TableCall.exec_flushDBBatch jsonbOne .committed clock
      [(lone "k" jobX taskA).item] .empty
    intro row' hrow'
    have hmem : row' ∈ Db.empty.tasks ++ added := by
      rw [← hadded]
      exact hexec ▸ hrow'
    exact hinserted row' ((List.mem_append.mp hmem).resolve_left List.not_mem_nil)

/-- The task is submitted and started. -/
theorem run_startA (clock clock' : Nat) (hle : clock ≤ clock') : ∃ db u row,
    step jsonbOne { db := .empty } (submitLone clock) = some ⟨db, clock⟩ ∧
      (∀ row' ∈ db.tasks, row'.Inserted (clockMillis clock)) ∧
      run (step jsonbOne) { db := .empty } [submitLone clock, startA clock'] = some u ∧
      row ∈ u.db.tasks ∧ row.submitTs = some (clockMillis clock) ∧
      row.run.startTs = some (clockSeconds clock') := by
  obtain ⟨db, row, hfirst, hrow, hid, hpending, hinserted⟩ := step_submitLone clock
  have hsecond : step jsonbOne ⟨db, clock⟩ (startA clock') = some ⟨(updateTaskToRunning .committed
      (clockSeconds clock') taskA.text "w" db).2, clock'⟩ :=
    step_eq_some.mpr ⟨⟨hle, trivial⟩, rfl⟩
  have hstamps : (TableCall.updateTaskToRunning .committed taskA.text "w").Stamps jsonbOne row := by
    refine ⟨rfl, ?_, ⟨"w", by decide⟩, hpending⟩
    rw [hid]
    exact addresses_text taskA
  obtain ⟨run, hrow', ⟨-, worker, rfl⟩ | ⟨hnot, -⟩⟩ :=
    (TableCall.updateTaskToRunning_leaves jsonbOne .committed (clockSeconds clock') taskA.text "w"
      db).mem hrow
  · have hrun := run_cons.mpr ⟨_, hfirst, run_cons.mpr ⟨_, hsecond, run_nil⟩⟩
    exact ⟨db, _, _, hfirst, hinserted, hrun, hrow', (hinserted row hrow).submitTs, rfl⟩
  · exact absurd hstamps hnot

/-- The condition at work, on a clock that starts at 0. -/
theorem timestamps_iff_startA : ∃ u,
    run (step jsonbOne) { db := .empty } [submitLone 0, startA 2000000] = some u ∧
      (∃ row ∈ u.db.tasks, row.submitTs = some 0 ∧ row.run.startTs = some 2) ∧
      ∀ row ∈ u.db.tasks, row.InOrder := by
  obtain ⟨db, u, row, hfirst, hinserted, hrun, hrow, hsubmit, hstart⟩ :=
    run_startA 0 2000000 (by decide)
  have halong : Along (step jsonbOne) (InTime jsonbOne) { db := .empty }
      [submitLone 0, startA 2000000] := by
    refine (along_cons hfirst).mpr ⟨fun row hrow => absurd hrow List.not_mem_nil, ?_, ?_⟩
    · intro row' hrow' _ submit hmem
      have hzero := (hinserted row' hrow').submitTs.symm.trans hmem
      obtain rfl := Option.some.inj hzero
      decide
    · exact fun _ _ => trivial
  exact ⟨u, hrun, ⟨row, hrow, hsubmit, hstart⟩,
    (timestamps_iff hrun).mpr halong _ u (List.prefix_refl _) hrun⟩

/-- **Started before it was submitted**: in November 2023 a task is started five seconds
after its submission. -/
theorem start_before_submission : ∃ u,
    run (step jsonbOne) { db := .empty }
      [submitLone 1700000000000000, startA 1700000005000000] = some u ∧
    ∃ row ∈ u.db.tasks, row.submitTs = some 1700000000000 ∧
      row.run.startTs = some 1700000005 ∧ ¬ row.InOrder := by
  obtain ⟨db, u, row, -, -, hrun, hrow, hsubmit, hstart⟩ :=
    run_startA 1700000000000000 1700000005000000 (by decide)
  refine ⟨u, hrun, row, hrow, hsubmit, hstart, fun horder => ?_⟩
  exact absurd (horder.submitStart _ hsubmit _ hstart) (by decide)

end TimedTables

end DistTaskSystem
