import DistTaskSystem.Guarantees.Reports
import DistTaskSystem.Guarantees.WriteBehind
import DistTaskSystem.Library.JoinUpdate

/-!
# DTS — one UPDATE for a batch

`FlushBatch` writes a batch with one `UPDATE ... FROM (VALUES ...)`. A row that joins
with several of the VALUES takes one of them, whichever the server comes across, while
the updates in the order of the queue leave the last one.

## Results

* `flushEach_eq`          — the updates one after the other.
* `flushBatch_choice_iff` — when one way of choosing gives the same.
* `bulk_flush_iff`        — when every one does.
-/

namespace DistTaskSystem

open JoinUpdate

/-- The updates of a batch one after the other, at the same instant. -/
def flushEach (jsonbIn : String → Option String) (now : Int) (batch : List TaskUpdateOp)
    (db : Db) : Db :=
  batch.foldl (fun db op => flushBatch jsonbIn { now := now } [op] db) db

/-- The updates of the batch about a task all write the same. -/
def Unanimous (jsonbIn : String → Option String) (batch : List TaskUpdateOp) (id : Uuid) : Prop :=
  ∀ op ∈ batch, ∀ op' ∈ batch, ∀ w w', op.write jsonbIn = .ok w → op'.write jsonbIn = .ok w' →
    w.taskId = id → w'.taskId = id → w = w'

section Bulk

variable {jsonbIn : String → Option String} {batch : List TaskUpdateOp} {now : Int} {db : Db}

/-- The values of a row are those of the write that came last. -/
theorem StatusWrite.apply_apply (w w' : StatusWrite) (run : TaskRun) :
    w.apply now (w'.apply now run) = w.apply now run := rfl

/-- The values a row has taken tell which write they are from. -/
theorem StatusWrite.apply_inj {w w' : StatusWrite} {run : TaskRun} (hid : w.taskId = w'.taskId) :
    w.apply now run = w'.apply now run ↔ w = w' := by
  constructor
  · intro h
    obtain ⟨taskId, state, result, errorMsg, workerId⟩ := w
    obtain ⟨taskId', state', result', errorMsg', workerId'⟩ := w'
    simp only [StatusWrite.apply, TaskRun.mk.injEq, Option.some.injEq, true_and] at h
    obtain ⟨rfl, rfl, rfl, rfl⟩ := h
    obtain rfl : taskId = taskId' := hid
    rfl
  · exact fun h => h ▸ rfl

theorem flushedRun_eq (choice : JoinChoice) (writes : List StatusWrite) (row : TaskRow) :
    flushedRun choice now writes row = applyTo (StatusWrite.apply now) row.run
      (choice.pick row.taskId (joined StatusWrite.taskId row.taskId writes)) := by
  unfold flushedRun joined
  cases choice.pick row.taskId _ <;> rfl

/-- A batch of valid updates is one UPDATE, also if it is empty. -/
theorem flushBatch_eq {writes : List StatusWrite} (h : Writes jsonbIn batch writes) (db : Db)
    (choice : JoinChoice) : flushBatch jsonbIn { choice := choice, now := now } batch db =
      db.updateTasks (flushedRun choice now writes) := by
  cases h with
  | nil => exact db.updateTasks_run.symm
  | @cons op w ops writes hop hrest =>
    have htx : flushTx jsonbIn choice now (op :: ops) db =
        .ok ((), db.updateTasks (flushedRun choice now (w :: writes))) :=
      Fallible.bind_eq_ok.mpr ⟨_, Fallible.mapM_eq_ok.mpr (.cons hop hrest), rfl⟩
    rw [flushBatch, if_neg (List.cons_ne_nil _ _), executeTx_db htx]
    rfl

/-- **The updates one after the other** leave each row the last one about it. -/
theorem flushEach_eq {writes : List StatusWrite} (h : Writes jsonbIn batch writes) (db : Db) :
    flushEach jsonbIn now batch db = db.updateTasks fun row =>
      applyTo (StatusWrite.apply now) row.run
        (joined StatusWrite.taskId row.taskId writes).getLast? := by
  have hfold : flushEach jsonbIn now batch db = db.updateTasks fun row =>
      writes.foldl (applyOne StatusWrite.taskId (StatusWrite.apply now) row.taskId) row.run := by
    induction h generalizing db with
    | nil => exact db.updateTasks_run.symm
    | @cons op w ops writes hop hrest ih =>
      have hone : flushBatch jsonbIn { now := now } [op] db = db.updateTasks fun row =>
          applyOne StatusWrite.taskId (StatusWrite.apply now) row.taskId row.run w := by
        rw [flushBatch_eq (.cons hop .nil)]
        refine Db.updateTasks_eq_iff.mpr fun row _ => ?_
        rw [flushedRun_eq, joined_cons, applyOne]
        split <;> rfl
      rw [flushEach, List.foldl_cons, hone]
      exact (ih _).trans (Db.updateTasks_updateTasks db _ _)
  rw [hfold]
  simp only [foldl_applyOne StatusWrite.apply_apply]

/-- **One way of choosing** gives the same exactly if it takes the last write of each
stored task. -/
theorem flushBatch_choice_iff {writes : List StatusWrite} (h : Writes jsonbIn batch writes)
    (choice : JoinChoice) :
    flushBatch jsonbIn { choice := choice, now := now } batch db = flushEach jsonbIn now batch db ↔
      ∀ row ∈ db.tasks, choice.pick row.taskId (joined StatusWrite.taskId row.taskId writes) =
        (joined StatusWrite.taskId row.taskId writes).getLast? := by
  rw [flushBatch_eq h, flushEach_eq h, Db.updateTasks_eq_iff]
  refine forall₂_congr fun row _ => ?_
  rw [flushedRun_eq]
  cases hjoin : joined StatusWrite.taskId row.taskId writes with
  | nil => exact iff_of_true rfl rfl
  | cons first rest =>
    have hkey : ∀ w ∈ first :: rest, w.taskId = row.taskId :=
      fun w hw => (mem_joined.mp (hjoin ▸ hw)).2
    have hlt := choice.lt row.taskId (first :: rest).length (Nat.succ_pos _)
    rw [JoinChoice.pick, List.getElem?_eq_getElem hlt,
      List.getLast?_eq_some_getLast (List.cons_ne_nil first rest), Option.some.injEq]
    refine StatusWrite.apply_inj ?_
    rw [hkey _ (List.getElem_mem hlt), hkey _ (List.getLast_mem _)]

/-- The choice of the i-th candidate, where there are so many. -/
def JoinChoice.nth (i : Nat) : JoinChoice where
  index _ n := if i < n then i else 0
  lt _ n hn := by
    split
    · assumption
    · exact hn

theorem unanimous_iff {writes : List StatusWrite} (h : Writes jsonbIn batch writes) (id : Uuid) :
    Unanimous jsonbIn batch id ↔ ∀ w ∈ joined StatusWrite.taskId id writes,
      ∀ w' ∈ joined StatusWrite.taskId id writes, w = w' := by
  constructor
  · intro hall w hw w' hw'
    obtain ⟨hw, hid⟩ := mem_joined.mp hw
    obtain ⟨hw', hid'⟩ := mem_joined.mp hw'
    obtain ⟨op, hop, hwrite⟩ := Fallible.exists_left h hw
    obtain ⟨op', hop', hwrite'⟩ := Fallible.exists_left h hw'
    exact hall op hop op' hop' w w' hwrite hwrite' hid hid'
  · intro hall op hop op' hop' w w' hwrite hwrite' hid hid'
    obtain ⟨v, hv, hv'⟩ := Fallible.exists_right h hop
    obtain rfl := Except.ok.inj (hwrite.symm.trans hv')
    obtain ⟨v', hv', hv''⟩ := Fallible.exists_right h hop'
    obtain rfl := Except.ok.inj (hwrite'.symm.trans hv'')
    exact hall w (mem_joined.mpr ⟨hv, hid⟩) w' (mem_joined.mpr ⟨hv', hid'⟩)

/-- **When the bulk flush is the updates one by one.** For every table and every batch of
valid updates: whichever candidates the server chooses, the result is that of the updates
in order, exactly if the updates about each stored task are unanimous. -/
theorem bulk_flush_iff (hvalid : ∀ op ∈ batch, op.Valid jsonbIn) (now : Int) (db : Db) :
    (∀ choice, flushBatch jsonbIn { choice := choice, now := now } batch db =
      flushEach jsonbIn now batch db) ↔
    ∀ row ∈ db.tasks, Unanimous jsonbIn batch row.taskId := by
  obtain ⟨writes, hmap⟩ := Fallible.mapM_total hvalid
  have hwrites : Writes jsonbIn batch writes := Fallible.mapM_eq_ok.mp hmap
  constructor
  · intro h row hrow
    refine (unanimous_iff hwrites row.taskId).mpr ((picks_last_iff _).mp fun i hi => ?_)
    -- the server may as well choose the i-th candidate
    have hpick := (flushBatch_choice_iff hwrites (.nth i)).mp (h (.nth i)) row hrow
    have hindex : (JoinChoice.nth i).index row.taskId
        (joined StatusWrite.taskId row.taskId writes).length = i := if_pos hi
    rwa [JoinChoice.pick, hindex] at hpick
  · intro h choice
    refine (flushBatch_choice_iff hwrites choice).mpr fun row hrow => ?_
    have hsame := (picks_last_iff _).mpr ((unanimous_iff hwrites row.taskId).mp (h row hrow))
    cases hjoin : joined StatusWrite.taskId row.taskId writes with
    | nil => rfl
    | cons first rest =>
      rw [hjoin] at hsame
      exact hsame _ (choice.lt row.taskId _ (Nat.succ_pos _))

end Bulk

open DbBatcher

/-- The report of a worker that has run the task. -/
def doneBy (workerId : String) : TaskUpdateOp := { doneUpdate taskA with workerId }

theorem doneBy_write {workerId : String}
    (hworker : castVarchar255 (paramText workerId) = .ok workerId) :
    (doneBy workerId).write jsonbEmpty =
      .ok ⟨taskA, stateSuccess, "{}", paramText "", workerId⟩ := by
  have hid : castUuid (paramText taskA.text) = .ok taskA := by
    rw [paramText_eq taskA.nul_notMem, castUuid_text]
  have hresult : castJsonb jsonbEmpty (paramText "{}") = .ok "{}" := by decide
  refine Fallible.bind_eq_ok.mpr ⟨taskA, hid, Fallible.bind_eq_ok.mpr ⟨stateSuccess, rfl, ?_⟩⟩
  exact Fallible.bind_eq_ok.mpr ⟨"{}", hresult, Fallible.bind_eq_ok.mpr ⟨workerId, hworker, rfl⟩⟩

/-- A report that was delivered twice. -/
theorem bulk_flush_iff_repeated :
    (∀ op ∈ [doneBy "w", doneBy "w"], op.Valid jsonbEmpty) ∧
    ∀ choice, flushBatch jsonbEmpty { choice := choice, now := 5 } [doneBy "w", doneBy "w"]
        (dbA stateRunning (some "w")) =
      flushEach jsonbEmpty 5 [doneBy "w", doneBy "w"] (dbA stateRunning (some "w")) := by
  have hvalid : ∀ op ∈ [doneBy "w", doneBy "w"], op.Valid jsonbEmpty := by
    intro op hop
    obtain rfl : op = doneBy "w" := by simpa using hop
    exact ⟨_, doneBy_write (by decide)⟩
  refine ⟨hvalid, (bulk_flush_iff hvalid 5 (dbA stateRunning (some "w"))).mpr ?_⟩
  intro row hrow op hop op' hop' w w' hwrite hwrite' hid hid'
  obtain rfl : op = doneBy "w" := by simpa using hop
  obtain rfl : op' = doneBy "w" := by simpa using hop'
  exact Except.ok.inj (hwrite.symm.trans hwrite')

/-- Two workers have run the task and both reports are in the batch: the server may keep
the first one. -/
theorem first_report_kept :
    (∀ op ∈ [doneBy "w", doneBy "v"], op.Valid jsonbEmpty) ∧
    flushBatch jsonbEmpty { choice := .first, now := 5 } [doneBy "w", doneBy "v"]
        (dbA stateRunning (some "w")) ≠
      flushEach jsonbEmpty 5 [doneBy "w", doneBy "v"] (dbA stateRunning (some "w")) := by
  have hfirst := doneBy_write (show castVarchar255 (paramText "w") = .ok "w" by decide)
  have hsecond := doneBy_write (show castVarchar255 (paramText "v") = .ok "v" by decide)
  have hwrites : Writes jsonbEmpty [doneBy "w", doneBy "v"] _ := .cons hfirst (.cons hsecond .nil)
  constructor
  · intro op hop
    rcases List.mem_pair.mp hop with rfl | rfl
    · exact ⟨_, hfirst⟩
    · exact ⟨_, hsecond⟩
  · intro heq
    have hpick := (flushBatch_choice_iff hwrites .first).mp heq (rowA stateRunning (some "w"))
      (List.mem_singleton_self _)
    exact absurd hpick (by decide)

end DistTaskSystem
