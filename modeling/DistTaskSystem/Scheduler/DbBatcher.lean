import DistTaskSystem.Common.Schema
import DistTaskSystem.Common.Task
import DistTaskSystem.Library.Runs

/-!
# DTS — the write-behind batcher

`AddStatusUpdate` puts an update into the memory queue from which the flush
thread writes to the task table (`db_batcher.cpp`).

The threads are a transition system: the callers of `AddStatusUpdate` and
`Stop`, and the flush thread, whose position in `RunLoop` is part of the state
(`LoopPoint`). A critical section is one step. What is read outside the mutex
is a step of its own: the loop condition reads `stop_flag_` first and `queue_`
only if it is set.

## Results

* `fillBatch_eq`    — what the transfer loop moves.
* `flushTx_ok_iff`  — the statement fails when one of its rows does not cast.
* `step_moves`      — everything an action can do, guards included.
-/

namespace DistTaskSystem

/-- `TaskUpdateOp`. -/
structure TaskUpdateOp where
  taskId : String
  state : TaskState
  resultJson : String
  errorMsg : String
  workerId : String
deriving DecidableEq, Repr

/-- `AddStatusUpdate`: the queue afterwards. -/
def addStatusUpdate (queue : List TaskUpdateOp) (taskId : String) (state : TaskState)
    (resultJson errorMsg workerId : String) : List TaskUpdateOp :=
  queue ++ [⟨taskId, state, resultJson, errorMsg, workerId⟩]

/-- `kBatchSize`. -/
def kBatchSize : Nat := 1000

-- ---------------------------------------------------------------------------
-- FlushBatch
-- ---------------------------------------------------------------------------

/-- A row of the VALUES list after the casts of the statement. -/
structure StatusWrite where
  taskId : Uuid
  state : SmallInt
  result : String
  errorMsg : String
  workerId : String
deriving DecidableEq

/-- The casts of one row. `tx.quote` ends a text at its first NUL. -/
def TaskUpdateOp.write (jsonbIn : String → Option String) (op : TaskUpdateOp) :
    Except SqlError StatusWrite := do
  let taskId ← castUuid (paramText op.taskId)
  let state ← castSmallInt op.state.toInt
  let result ← castJsonb jsonbIn (paramText (if op.resultJson = "" then "{}" else op.resultJson))
  let workerId ← castVarchar255 (paramText op.workerId)
  return ⟨taskId, state, result, paramText op.errorMsg, workerId⟩

/-- The update is valid on its own. -/
def TaskUpdateOp.Valid (jsonbIn : String → Option String) (op : TaskUpdateOp) : Prop :=
  ∃ w, op.write jsonbIn = .ok w

instance (jsonbIn : String → Option String) (op : TaskUpdateOp) : Decidable (op.Valid jsonbIn) :=
  match h : op.write jsonbIn with
  | .ok w => .isTrue ⟨w, h⟩
  | .error _ => .isFalse (by rintro ⟨w, hw⟩; exact nomatch h.symm.trans hw)

/-- Which of several rows that join with a task `UPDATE ... FROM` applies: the
server does not say. -/
structure JoinChoice where
  index : Uuid → Nat → Nat
  lt : ∀ id n, 0 < n → index id n < n

/-- The first one. -/
def JoinChoice.first : JoinChoice := ⟨fun _ _ => 0, fun _ _ h => h⟩

def JoinChoice.pick (choice : JoinChoice) (id : Uuid) (writes : List StatusWrite) :
    Option StatusWrite :=
  writes[choice.index id writes.length]?

/-- The SET list. -/
def StatusWrite.apply (now : Int) (w : StatusWrite) (run : TaskRun) : TaskRun :=
  { run with
    state := w.state
    result := some w.result
    errorMsg := some w.errorMsg
    workerId := some w.workerId
    finishTs := some now }

/-- The row a write leaves behind. -/
def flushedRun (choice : JoinChoice) (now : Int) (writes : List StatusWrite) (t : TaskRow) :
    TaskRun :=
  match choice.pick t.taskId (writes.filter fun w => w.taskId = t.taskId) with
  | some w => w.apply now t.run
  | none => t.run

/-- The logic of the transaction. -/
def flushTx (jsonbIn : String → Option String) (choice : JoinChoice) (now : Int)
    (batch : List TaskUpdateOp) (db : Db) : Except SqlError (Unit × Db) := do
  let writes ← batch.mapM (TaskUpdateOp.write jsonbIn)
  return ((), db.updateTasks (flushedRun choice now writes))

/-- What the server and the clock add to one flush. -/
structure FlushEnv where
  outcome : TxOutcome := .committed
  choice : JoinChoice := .first
  now : Int := 0

/-- `FlushBatch`: the task table afterwards. An exception is only logged. -/
def flushBatch (jsonbIn : String → Option String) (env : FlushEnv) (batch : List TaskUpdateOp)
    (db : Db) : Db :=
  if batch = [] then db
  else (executeTx env.outcome (flushTx jsonbIn env.choice env.now batch) db).db

/-- The flush commits the batch: every row casts and the server keeps the
transaction. -/
def FlushEnv.Commits (jsonbIn : String → Option String) (env : FlushEnv)
    (batch : List TaskUpdateOp) : Prop :=
  env.outcome.kept = true ∧ ∀ op ∈ batch, op.Valid jsonbIn

instance (jsonbIn : String → Option String) (env : FlushEnv) (batch : List TaskUpdateOp) :
    Decidable (env.Commits jsonbIn batch) :=
  inferInstanceAs (Decidable (_ ∧ _))

-- ---------------------------------------------------------------------------
-- RunLoop
-- ---------------------------------------------------------------------------

/-- The loop that moves the front of the queue to the batch. -/
def fillBatch : List TaskUpdateOp → List TaskUpdateOp → List TaskUpdateOp × List TaskUpdateOp
  | [], batch => (batch, [])
  | op :: rest, batch =>
    if batch.length < kBatchSize then fillBatch rest (batch ++ [op]) else (batch, op :: rest)

/-- Where the flush thread stands in `RunLoop`. -/
inductive LoopPoint where
  /-- before the loop condition reads `stop_flag_` -/
  | testStop
  /-- before it reads `queue_`, `stop_flag_` being set -/
  | testQueue
  /-- in `wait_for` -/
  | waiting
  /-- the batch is filled and the mutex released -/
  | flushing
  | exited
deriving DecidableEq, Repr

/-- A `DbBatcher` with its table. -/
structure DbBatcher where
  db : Db
  queue : List TaskUpdateOp := []
  batch : List TaskUpdateOp := []
  stopFlag : Bool := false
  point : LoopPoint := .testStop
  /-- the first call of `Stop` has returned -/
  stopReturned : Bool := false
  /-- the updates enqueued, the batches passed to `FlushBatch` and the updates of
  committed transactions so far: kept for the statements, no function reads
  them -/
  enqueued : List TaskUpdateOp := []
  flushed : List (List TaskUpdateOp) := []
  committed : List TaskUpdateOp := []

/-- The batcher after `Start`. -/
def DbBatcher.started (db : Db) : DbBatcher := { db := db }

inductive BatcherAction where
  | add (op : TaskUpdateOp)
  /-- `Stop` sets the flag; a later call returns at its first line -/
  | stop
  /-- the loop condition reads a variable -/
  | test
  /-- `wait_for` returns, by its timeout or because its predicate holds -/
  | wake (timedOut : Bool)
  | flush (env : FlushEnv)
  /-- the thread is joined and `Stop` returns -/
  | join

namespace DbBatcher

/-- The predicate of `wait_for`. -/
def ready (s : DbBatcher) : Bool := decide (kBatchSize ≤ s.queue.length) || s.stopFlag

/-- The critical section of `RunLoop`. -/
def collect (s : DbBatcher) : DbBatcher :=
  if s.queue = [] then { s with point := if s.stopFlag then .exited else .testStop }
  else
    let (batch, queue) := fillBatch s.queue s.batch
    { s with batch := batch, queue := queue, point := .flushing }

/-- The end of an iteration of `RunLoop`. -/
def flushOnce (jsonbIn : String → Option String) (env : FlushEnv) (s : DbBatcher) : DbBatcher :=
  if s.batch = [] then { s with point := .testStop }
  else { s with
    db := flushBatch jsonbIn env s.batch s.db
    batch := []
    point := .testStop
    flushed := s.flushed ++ [s.batch]
    committed := if env.Commits jsonbIn s.batch then s.committed ++ s.batch else s.committed }

def step (jsonbIn : String → Option String) (s : DbBatcher) : BatcherAction → Option DbBatcher
  | .add op => some { s with
      queue := addStatusUpdate s.queue op.taskId op.state op.resultJson op.errorMsg op.workerId
      enqueued := s.enqueued ++ [op] }
  | .stop => some { s with stopFlag := true }
  | .test =>
    match s.point with
    | .testStop => some { s with point := if s.stopFlag then .testQueue else .waiting }
    | .testQueue => some { s with point := if s.queue = [] then .exited else .waiting }
    | _ => none
  | .wake timedOut => if s.point = .waiting ∧ (timedOut || s.ready) then some s.collect else none
  | .flush env => if s.point = .flushing then some (s.flushOnce jsonbIn env) else none
  | .join => if s.stopFlag ∧ s.point = .exited then some { s with stopReturned := true } else none

end DbBatcher

-- ---------------------------------------------------------------------------
-- What a flush writes
-- ---------------------------------------------------------------------------

/-- The loop takes from the front of the queue until the batch is full. -/
theorem fillBatch_eq (queue batch : List TaskUpdateOp) :
    fillBatch queue batch =
      (batch ++ queue.take (kBatchSize - batch.length),
        queue.drop (kBatchSize - batch.length)) := by
  induction queue generalizing batch with
  | nil => simp [fillBatch]
  | cons op rest ih =>
    rw [fillBatch]
    by_cases hroom : batch.length < kBatchSize
    · have hsub : kBatchSize - batch.length = (kBatchSize - (batch ++ [op]).length) + 1 := by
        rw [List.length_append, List.length_singleton]
        omega
      rw [if_pos hroom, ih, hsub, List.take_succ_cons, List.drop_succ_cons, List.append_assoc]
      rfl
    · have hsub : kBatchSize - batch.length = 0 := by omega
      rw [if_neg hroom, hsub]
      simp

section Flush

variable {jsonbIn : String → Option String} {batch : List TaskUpdateOp} {db : Db}

/-- One row that does not cast is enough for the statement to fail. -/
theorem flushTx_ok_iff (choice : JoinChoice) (now : Int) :
    (∃ db', flushTx jsonbIn choice now batch db = .ok ((), db')) ↔
      ∀ op ∈ batch, op.Valid jsonbIn := by
  constructor
  · rintro ⟨db', h⟩ op hop
    obtain ⟨writes, hwrites, -⟩ := Fallible.bind_eq_ok.mp h
    obtain ⟨w, -, hw⟩ := Fallible.exists_right (Fallible.mapM_eq_ok.mp hwrites) hop
    exact ⟨w, hw⟩
  · intro h
    obtain ⟨writes, hwrites⟩ := Fallible.mapM_total h
    exact ⟨_, Fallible.bind_eq_ok.mpr ⟨writes, hwrites, rfl⟩⟩

/-- A row is written for the task its op addresses. -/
theorem write_eq_ok {op : TaskUpdateOp} {w : StatusWrite} (h : op.write jsonbIn = .ok w) :
    uuidIn (paramText op.taskId) = some w.taskId ∧ castSmallInt op.state.toInt = .ok w.state := by
  obtain ⟨taskId, hid, h⟩ := Fallible.bind_eq_ok.mp h
  obtain ⟨state, hstate, h⟩ := Fallible.bind_eq_ok.mp h
  obtain ⟨result, -, h⟩ := Fallible.bind_eq_ok.mp h
  obtain ⟨workerId, -, h⟩ := Fallible.bind_eq_ok.mp h
  obtain rfl := Except.ok.inj h
  exact ⟨castUuid_eq_ok.mp hid, hstate⟩

/-- The writes of a batch, one for each op. -/
abbrev Writes (jsonbIn : String → Option String) (batch : List TaskUpdateOp)
    (writes : List StatusWrite) : Prop :=
  List.Forall₂ (fun op w => op.write jsonbIn = .ok w) batch writes

/-- **A committed flush** is one UPDATE of the table. -/
theorem flushBatch_commits {env : FlushEnv} (db : Db) (h : env.Commits jsonbIn batch)
    (hne : batch ≠ []) : ∃ writes, Writes jsonbIn batch writes ∧
      flushBatch jsonbIn env batch db = db.updateTasks (flushedRun env.choice env.now writes) := by
  obtain ⟨hkept, hvalid⟩ := h
  obtain ⟨writes, hwrites⟩ := Fallible.mapM_total hvalid
  have htx : flushTx jsonbIn env.choice env.now batch db =
      .ok ((), db.updateTasks (flushedRun env.choice env.now writes)) :=
    Fallible.bind_eq_ok.mpr ⟨writes, hwrites, rfl⟩
  refine ⟨writes, Fallible.mapM_eq_ok.mp hwrites, ?_⟩
  rw [flushBatch, if_neg hne, executeTx_db htx, if_pos hkept]

/-- A flush that does not commit leaves the table alone. -/
theorem flushBatch_fails {env : FlushEnv} (h : ¬ env.Commits jsonbIn batch) :
    flushBatch jsonbIn env batch db = db := by
  rw [flushBatch]
  split
  · rfl
  · cases htx : flushTx jsonbIn env.choice env.now batch db with
    | error e => rw [executeTx_error htx]
    | ok result =>
      obtain ⟨⟨⟩, db'⟩ := result
      have hvalid := (flushTx_ok_iff env.choice env.now).mp ⟨db', htx⟩
      have hlost : ¬ env.outcome.kept = true := fun hkept => h ⟨hkept, hvalid⟩
      rw [executeTx_db htx, if_neg hlost]

/-- What the UPDATE makes of a row: the values of an op of the batch that
addresses it, if there is one. -/
theorem flushedRun_cases {writes : List StatusWrite} (h : Writes jsonbIn batch writes)
    (choice : JoinChoice) (now : Int) (row : TaskRow) :
    (∃ op ∈ batch, ∃ w, op.write jsonbIn = .ok w ∧ w.taskId = row.taskId ∧
      flushedRun choice now writes row = w.apply now row.run) ∨
    ((∀ op ∈ batch, uuidIn (paramText op.taskId) ≠ some row.taskId) ∧
      flushedRun choice now writes row = row.run) := by
  have hjoin : ∀ w, w ∈ writes.filter (fun w => w.taskId = row.taskId) ↔
      w ∈ writes ∧ w.taskId = row.taskId := by
    intro w
    rw [List.mem_filter, decide_eq_true_eq]
  unfold flushedRun
  cases hpick : choice.pick row.taskId (writes.filter fun w => w.taskId = row.taskId) with
  | some w =>
    obtain ⟨hw, hid⟩ := (hjoin w).mp (List.mem_of_getElem? hpick)
    obtain ⟨op, hop, hwrite⟩ := Fallible.exists_left h hw
    exact Or.inl ⟨op, hop, w, hwrite, hid, rfl⟩
  | none =>
    refine Or.inr ⟨fun op hop hid => ?_, rfl⟩
    -- the op would be a candidate, so something would have been picked
    obtain ⟨w, hw, hwrite⟩ := Fallible.exists_right h hop
    have hwid : w.taskId = row.taskId :=
      Option.some.inj ((write_eq_ok hwrite).1.symm.trans hid)
    have hpos := List.length_pos_of_mem ((hjoin w).mpr ⟨hw, hwid⟩)
    have hlt := choice.lt row.taskId _ hpos
    have hge := List.getElem?_eq_none_iff.mp hpick
    omega

/-- **A committed flush on a row**: it writes the values of an op of the batch
that addresses the row, and leaves the row alone if there is none. -/
theorem flushBatch_row {env : FlushEnv} {id : Uuid} {row : TaskRow}
    (h : env.Commits jsonbIn batch) (hrow : db.task? id = some row) :
    (∃ op ∈ batch, ∃ w, op.write jsonbIn = .ok w ∧ w.taskId = id ∧
      (flushBatch jsonbIn env batch db).task? id =
        some { row with run := w.apply env.now row.run }) ∨
    ((∀ op ∈ batch, uuidIn (paramText op.taskId) ≠ some id) ∧
      (flushBatch jsonbIn env batch db).task? id = some row) := by
  have hid := Db.task?_taskId hrow
  by_cases hne : batch = []
  · refine Or.inr ⟨?_, ?_⟩
    · rw [hne]
      exact fun op hop => absurd hop List.not_mem_nil
    · rw [flushBatch, if_pos hne]
      exact hrow
  · obtain ⟨writes, hwrites, hdb⟩ := flushBatch_commits db h hne
    have htask : (flushBatch jsonbIn env batch db).task? id =
        some { row with run := flushedRun env.choice env.now writes row } := by
      rw [hdb, Db.task?_updateTasks, hrow, Option.map_some]
    rcases flushedRun_cases hwrites env.choice env.now row with
      ⟨op, hop, w, hwrite, hwid, hrun⟩ | ⟨hnone, hrun⟩
    · exact Or.inl ⟨op, hop, w, hwrite, hwid.trans hid, by rw [htask, hrun]⟩
    · refine Or.inr ⟨?_, by rw [htask, hrun]⟩
      rw [← hid]
      exact hnone

/-- A flush adds no row. -/
theorem flushBatch_none {env : FlushEnv} {id : Uuid} (hrow : db.task? id = none) :
    (flushBatch jsonbIn env batch db).task? id = none := by
  by_cases h : env.Commits jsonbIn batch ∧ batch ≠ []
  · obtain ⟨writes, -, hdb⟩ := flushBatch_commits db h.1 h.2
    rw [hdb, Db.task?_updateTasks, hrow, Option.map_none]
  · by_cases hne : batch = []
    · rw [flushBatch, if_pos hne]
      exact hrow
    · rw [flushBatch_fails fun hcommit => h ⟨hcommit, hne⟩]
      exact hrow

/-- Where a row comes from that is found after a committed flush. -/
theorem flushBatch_row_cases {env : FlushEnv} {id : Uuid} {row : TaskRow}
    (h : env.Commits jsonbIn batch) (hrow : (flushBatch jsonbIn env batch db).task? id = some row) :
    (∃ op ∈ batch, uuidIn (paramText op.taskId) = some id ∧
      castSmallInt op.state.toInt = .ok row.run.state) ∨
    ((∀ op ∈ batch, uuidIn (paramText op.taskId) ≠ some id) ∧ db.task? id = some row) := by
  cases hrow₀ : db.task? id with
  | none => exact nomatch (flushBatch_none hrow₀).symm.trans hrow
  | some row₀ =>
    rcases flushBatch_row h hrow₀ with ⟨op, hop, w, hw, hwid, hflush⟩ | ⟨hother, hflush⟩
    · obtain ⟨hid, hstate⟩ := write_eq_ok hw
      obtain rfl := Option.some.inj (hflush.symm.trans hrow)
      exact Or.inl ⟨op, hop, hwid ▸ hid, hstate⟩
    · obtain rfl := Option.some.inj (hflush.symm.trans hrow)
      exact Or.inr ⟨hother, rfl⟩

end Flush

-- ---------------------------------------------------------------------------
-- What an action does
-- ---------------------------------------------------------------------------

namespace DbBatcher

/-- The moves of the batcher, one for each branch of the code. -/
inductive Moves (jsonbIn : String → Option String) (s : DbBatcher) :
    BatcherAction → DbBatcher → Prop
  | add (op : TaskUpdateOp) : Moves jsonbIn s (.add op)
      { s with queue := s.queue ++ [op], enqueued := s.enqueued ++ [op] }
  | stop : Moves jsonbIn s .stop { s with stopFlag := true }
  | goOn (hpoint : s.point = .testStop) (hstop : s.stopFlag = false) :
      Moves jsonbIn s .test { s with point := .waiting }
  | askQueue (hpoint : s.point = .testStop) (hstop : s.stopFlag = true) :
      Moves jsonbIn s .test { s with point := .testQueue }
  | leave (hpoint : s.point = .testQueue) (hqueue : s.queue = []) :
      Moves jsonbIn s .test { s with point := .exited }
  | drain (hpoint : s.point = .testQueue) (hqueue : s.queue ≠ []) :
      Moves jsonbIn s .test { s with point := .waiting }
  | idle (timedOut : Bool) (hpoint : s.point = .waiting) (hqueue : s.queue = [])
      (hstop : s.stopFlag = false) :
      Moves jsonbIn s (.wake timedOut) { s with point := .testStop }
  | quit (timedOut : Bool) (hpoint : s.point = .waiting) (hqueue : s.queue = [])
      (hstop : s.stopFlag = true) :
      Moves jsonbIn s (.wake timedOut) { s with point := .exited }
  | fill (timedOut : Bool) (hpoint : s.point = .waiting) (hqueue : s.queue ≠ []) :
      Moves jsonbIn s (.wake timedOut) { s with
        batch := s.batch ++ s.queue.take (kBatchSize - s.batch.length)
        queue := s.queue.drop (kBatchSize - s.batch.length)
        point := .flushing }
  | skip (env : FlushEnv) (hpoint : s.point = .flushing) (hbatch : s.batch = []) :
      Moves jsonbIn s (.flush env) { s with point := .testStop }
  | flush (env : FlushEnv) (hpoint : s.point = .flushing) (hbatch : s.batch ≠ []) :
      Moves jsonbIn s (.flush env) { s with
        db := flushBatch jsonbIn env s.batch s.db
        batch := []
        point := .testStop
        flushed := s.flushed ++ [s.batch]
        committed := if env.Commits jsonbIn s.batch then s.committed ++ s.batch else s.committed }
  | join (hstop : s.stopFlag = true) (hpoint : s.point = .exited) :
      Moves jsonbIn s .join { s with stopReturned := true }

variable {jsonbIn : String → Option String} {s t : DbBatcher} {a : BatcherAction}

/-- **Inversion.** An action of the batcher is one of its moves. -/
theorem step_moves (h : s.step jsonbIn a = some t) : Moves jsonbIn s a t := by
  cases a with
  | add op =>
    obtain rfl := Option.some.inj h
    exact .add op
  | stop =>
    obtain rfl := Option.some.inj h
    exact .stop
  | test =>
    rw [step] at h
    split at h
    · next hpoint =>
      obtain rfl := Option.some.inj h
      split
      · next hstop => exact .askQueue hpoint hstop
      · next hstop => exact .goOn hpoint (Bool.eq_false_iff.mpr hstop)
    · next hpoint =>
      obtain rfl := Option.some.inj h
      split
      · next hqueue => exact .leave hpoint hqueue
      · next hqueue => exact .drain hpoint hqueue
    · exact nomatch h
  | wake timedOut =>
    rw [step] at h
    split at h
    · next hwake =>
      obtain rfl := Option.some.inj h
      rw [collect]
      split
      · next hqueue =>
        split
        · next hstop => exact .quit timedOut hwake.1 hqueue hstop
        · next hstop => exact .idle timedOut hwake.1 hqueue (Bool.eq_false_iff.mpr hstop)
      · next hqueue =>
        rw [fillBatch_eq]
        exact .fill timedOut hwake.1 hqueue
    · exact nomatch h
  | flush env =>
    rw [step] at h
    split at h
    · next hpoint =>
      obtain rfl := Option.some.inj h
      rw [flushOnce]
      split
      · next hbatch => exact .skip env hpoint hbatch
      · next hbatch => exact .flush env hpoint hbatch
    · exact nomatch h
  | join =>
    rw [step] at h
    split at h
    · next hjoin =>
      obtain rfl := Option.some.inj h
      exact .join hjoin.1 hjoin.2
    · exact nomatch h

end DbBatcher

end DistTaskSystem
