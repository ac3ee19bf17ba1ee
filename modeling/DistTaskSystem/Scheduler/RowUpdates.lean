import DistTaskSystem.Scheduler.DbBatcher
import DistTaskSystem.Scheduler.TaskRepository

/-!
# DTS — the updates of a row

Every statement of the scheduler on the task table, the flushes of the batcher
included, is an UPDATE: it finds each row where it was and may give new values to the
columns that change. What a call can have made of a row is stated once for each of
them (`Db.Updates`), whatever its arguments are and however its transaction ends.

## Results

* `handleTaskFailure_updates` and its neighbours — one lemma for each call.
-/

namespace DistTaskSystem

/-- The tables have the same rows, and `R` tells what each may have become. -/
structure Db.Updates (R : TaskRow → TaskRun → Prop) (db db' : Db) : Prop where
  row : ∀ id row, db.task? id = some row →
    ∃ run, db'.task? id = some { row with run := run } ∧ R row run
  none : ∀ id, db.task? id = none → db'.task? id = none

namespace Db

variable {R R' : TaskRow → TaskRun → Prop} {db db' : Db}

theorem Updates.imp (h : db.Updates R db') (hR : ∀ row run, R row run → R' row run) :
    db.Updates R' db' where
  row id row hrow := by
    obtain ⟨run, hrow', hrun⟩ := h.row id row hrow
    exact ⟨run, hrow', hR row run hrun⟩
  none := h.none

theorem Updates.refl (db : Db) (h : ∀ row, R row row.run) : db.Updates R db where
  row _ row hrow := ⟨row.run, hrow, h row⟩
  none _ hnone := hnone

theorem Updates.update (db : Db) {f : TaskRow → TaskRun} (h : ∀ row, R row (f row)) :
    db.Updates R (db.updateTasks f) where
  row id row hrow := ⟨f row, by rw [task?_updateTasks, hrow, Option.map_some], h row⟩
  none id hnone := by rw [task?_updateTasks, hnone, Option.map_none]

/-- Every row is still there. -/
theorem Updates.mem (h : db.Updates R db') {row : TaskRow} (hrow : row ∈ db.tasks) :
    ∃ run, { row with run := run } ∈ db'.tasks ∧ R row run := by
  obtain ⟨run, hrow', hrun⟩ := h.row row.taskId row (task?_of_mem hrow)
  exact ⟨run, mem_of_task? hrow', hrun⟩

/-- No row is new. -/
theorem Updates.mem_of_mem (h : db.Updates R db') {row' : TaskRow} (hrow' : row' ∈ db'.tasks) :
    ∃ row ∈ db.tasks, ∃ run, row' = { row with run := run } ∧ R row run := by
  have hfound := task?_of_mem hrow'
  cases hrow : db.task? row'.taskId with
  | none => exact nomatch hfound.symm.trans (h.none _ hrow)
  | some row =>
    obtain ⟨run, hafter, hrun⟩ := h.row _ row hrow
    exact ⟨row, mem_of_task? hrow, run, Option.some.inj (hfound.symm.trans hafter), hrun⟩

/-- A transaction that is not kept changes nothing. -/
theorem Updates.executeTx {α ε : Type} {logic : Db → Except ε (α × Db)}
    (h : ∀ row, R row row.run)
    (hlogic : ∀ a db', logic db = .ok (a, db') → db.Updates R db') (outcome : TxOutcome) :
    db.Updates R (executeTx outcome logic db).db := by
  cases htx : logic db with
  | error e =>
    rw [executeTx_error htx]
    exact .refl db h
  | ok result =>
    obtain ⟨a, db'⟩ := result
    rw [executeTx_db htx]
    split
    · exact hlogic a db' htx
    · exact .refl db h

end Db

-- ---------------------------------------------------------------------------
-- The calls
-- ---------------------------------------------------------------------------

section Calls

variable (outcome : TxOutcome) (now : Int) (db : Db)

/-- The columns of a task that was started. -/
def startedRun (now : Int) (worker : String) (run : TaskRun) : TaskRun :=
  { run with state := stateRunning, workerId := some worker, startTs := some now }

/-- The columns of a task that was taken back. -/
def revertedRun (run : TaskRun) : TaskRun :=
  { run with state := statePending, workerId := none, startTs := none }

/-- `HandleTaskFailure` leaves a row alone, or handles the failure of its task. -/
theorem handleTaskFailure_updates (taskId errorMsg : String) (n : Int) :
    db.Updates (fun row run => run = row.run ∨ run = row.afterFailure now errorMsg)
      (handleTaskFailure outcome now taskId errorMsg n db).2 := by
  refine ⟨fun id row hrow => ?_, fun id hnone => ?_⟩
  · by_cases haddress : addresses taskId id
    · rw [(handleTaskFailure_row haddress hrow outcome now errorMsg n).2]
      split
      · exact ⟨_, rfl, .inr rfl⟩
      · exact ⟨row.run, rfl, .inl rfl⟩
    · rw [handleTaskFailure_other haddress]
      exact ⟨row.run, hrow, .inl rfl⟩
  · by_cases haddress : addresses taskId id
    · have htx : handleTaskFailureTx now taskId errorMsg db = .ok (false, db) := by
        rw [handleTaskFailureTx, castUuid_eq haddress]
        simp only [bind, Except.bind, hnone]
        rfl
      rw [handleTaskFailure, executeTx_db htx, ite_self]
      exact hnone
    · rw [handleTaskFailure_other haddress]
      exact hnone

/-- `UpdateTaskToRunning` starts pending tasks. -/
theorem updateTaskToRunning_updates (taskId workerId : String) :
    db.Updates (fun row run => run = row.run ∨
        (row.run.state = statePending ∧ ∃ worker, run = startedRun now worker row.run))
      (updateTaskToRunning outcome now taskId workerId db).2 := by
  refine .executeTx (fun row => .inl rfl) (fun updated db' htx => ?_) outcome
  obtain ⟨id, -, htx⟩ := Fallible.bind_eq_ok.mp htx
  obtain ⟨worker, -, htx⟩ := Fallible.bind_eq_ok.mp htx
  obtain ⟨-, rfl⟩ := Prod.mk.inj (Except.ok.inj htx)
  refine .update db fun row => ?_
  split
  · next hcond => exact .inr ⟨hcond.2, worker, rfl⟩
  · exact .inl rfl

theorem revertTaskToPending_updates (taskId : String) :
    db.Updates (fun row run => run = row.run ∨ run = revertedRun row.run)
      (revertTaskToPending outcome taskId db).2 := by
  refine .executeTx (fun row => .inl rfl) (fun a db' htx => ?_) outcome
  obtain ⟨id, -, htx⟩ := Fallible.bind_eq_ok.mp htx
  obtain ⟨-, rfl⟩ := Prod.mk.inj (Except.ok.inj htx)
  refine .update db fun row => ?_
  split
  · exact .inr rfl
  · exact .inl rfl

theorem requeueOrphanedTasks_updates (deadWorkerId : String) :
    db.Updates (fun row run => run = row.run ∨ run = revertedRun row.run)
      (requeueOrphanedTasks outcome deadWorkerId db).2 := by
  refine .executeTx (fun row => .inl rfl) (fun a db' htx => ?_) outcome
  obtain ⟨-, rfl⟩ := Prod.mk.inj (Except.ok.inj htx)
  refine .update db fun row => ?_
  split
  · exact .inr rfl
  · exact .inl rfl

/-- A flush leaves a row alone, or writes an op of the batch that addresses it. -/
theorem flushBatch_updates (jsonbIn : String → Option String) (env : FlushEnv)
    (batch : List TaskUpdateOp) :
    db.Updates (fun row run => run = row.run ∨ ∃ op ∈ batch, ∃ w, op.write jsonbIn = .ok w ∧
        w.taskId = row.taskId ∧ run = w.apply env.now row.run)
      (flushBatch jsonbIn env batch db) := by
  refine ⟨fun id row hrow => ?_, fun id hnone => flushBatch_none hnone⟩
  by_cases hcommit : env.Commits jsonbIn batch
  · rcases flushBatch_row hcommit hrow with ⟨op, hop, w, hw, hwid, hrow'⟩ | ⟨-, hrow'⟩
    · exact ⟨_, hrow', .inr ⟨op, hop, w, hw, hwid.trans (Db.task?_taskId hrow).symm, rfl⟩⟩
    · exact ⟨row.run, hrow', .inl rfl⟩
  · rw [flushBatch_fails hcommit]
    exact ⟨row.run, hrow, .inl rfl⟩

end Calls

end DistTaskSystem
