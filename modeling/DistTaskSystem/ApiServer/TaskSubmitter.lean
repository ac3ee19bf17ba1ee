import DistTaskSystem.ApiServer.BatchItem
import DistTaskSystem.Common.Schema

/-!
# DTS — writing a batch

`FlushDBBatch` copies a whole batch into the three tables inside one
transaction: the jobs through a temporary table that drops repeated keys, the
tasks and the edges unconditionally. `ProcessBatch` runs it and then sends the
Redis commands of all items in one pipeline; what fails is logged and
forgotten.

`castTask_iff` says when the server accepts the line of a task, and which row
it becomes.
-/

namespace DistTaskSystem

/-! ## FlushDBBatch -/

/-- One line of the COPY into the temporary table. -/
def copyJob (item : BatchItem) : Except SqlError JobRow := do
  let jobId ← castUuid item.ctx.jobId
  let idempotencyKey ← castText item.req.idempotencyKey
  return ⟨jobId, idempotencyKey, statePending⟩

/-- The values written to the COPY into `task`. -/
structure TaskLine where
  taskId : String
  jobId : String
  naturalId : String
  funcName : String
  funcParams : String
  priority : UInt32
  state : Int
  pendingDependencies : Int
  maxRetry : UInt32
  retryCount : Int
  timeoutMs : UInt32
  submitTs : Int

/-- The loop over the edges of an item: `dep_count`. -/
def depCount (edges : List TaskEdge) : CountMap :=
  edges.foldl (fun counts edge => counts.increment edge.childNaturalId) .empty

/-- The loop over the tasks of an item: the ids it adds to `entry_task_ids`, and the lines. -/
def writeTasks (nowTs : Int) (item : BatchItem) :
    CountMap → List PbTask → Except SubmitError (List String × List TaskLine)
  | _, [] => .ok ([], [])
  | counts, task :: rest => do
    let uuid ← item.ctx.at task.naturalId
    let (pending, counts) := counts.access task.naturalId
    -- 0 is PENDING, 6 is WAITING
    let initialState : Int := if pending = 0 then 0 else 6
    let line : TaskLine := {
      taskId := uuid
      jobId := item.ctx.jobId
      naturalId := task.naturalId
      funcName := task.funcName
      funcParams := task.funcParams
      priority := task.priority
      state := initialState
      pendingDependencies := pending
      maxRetry := task.maxRetry
      retryCount := 0
      timeoutMs := task.timeoutMs
      submitTs := nowTs }
    let (entries, lines) ← writeTasks nowTs item counts rest
    return (if pending = 0 then uuid :: entries else entries, line :: lines)

/-- The lines of an item; the entry tasks are noted in its context. -/
def itemLines (nowTs : Int) (item : BatchItem) :
    Except SubmitError (BatchItem × List TaskLine) := do
  let (entries, lines) ← writeTasks nowTs item (depCount item.req.edges) item.req.tasks
  return ({ item with ctx :=
    { item.ctx with entryTaskIds := item.ctx.entryTaskIds ++ entries } }, lines)

/-- What the server makes of a line: it parses every value into its column. -/
def castTask (jsonbIn : String → Option String) (line : TaskLine) : Except SqlError TaskRow := do
  let taskId ← castUuid line.taskId
  let jobId ← castUuid line.jobId
  let naturalId ← castText line.naturalId
  let funcName ← castText line.funcName
  let params ← castText line.funcParams
  let funcParams ← castJsonb jsonbIn params
  let priority ← castSmallInt line.priority.toNat
  let state ← castSmallInt line.state
  let pendingDependencies ← castInt4 line.pendingDependencies
  let maxRetry ← castSmallInt line.maxRetry.toNat
  let retryCount ← castSmallInt line.retryCount
  let timeoutMs ← castInt4 line.timeoutMs.toNat
  return {
    taskId := taskId
    jobId := jobId
    naturalId := naturalId
    funcName := funcName
    funcParams := some funcParams
    priority := priority
    maxRetry := maxRetry
    timeoutMs := timeoutMs
    pendingDependencies := pendingDependencies
    submitTs := some line.submitTs
    run := ⟨state, retryCount, none, none, none, none, none⟩ }

/-- The body of the loop over the edges of an item. -/
def edgeLine (item : BatchItem) (edge : TaskEdge) : Except SubmitError (String × String) := do
  let parent ← item.ctx.at edge.parentNaturalId
  let child ← item.ctx.at edge.childNaturalId
  return (parent, child)

def castEdge (line : String × String) : Except SqlError EdgeRow := do
  let parent ← castUuid line.1
  let child ← castUuid line.2
  return ⟨parent, child⟩

/-- A statement of the transaction. -/
def sql {α : Type} (x : Except SqlError α) : Except SubmitError α := x.mapError .sql

/-- `FlushDBBatch`: the batch with its entry tasks noted, and the tables. -/
def flushDBBatch (jsonbIn : String → Option String) (nowTs : Int) (batch : List BatchItem)
    (db : Db) : Except SubmitError (List BatchItem × Db) :=
  if batch = [] then .ok (batch, db)
  else do
    let tmpJobs ← sql (batch.mapM copyJob)
    let db ← sql (tmpJobs.foldlM Db.insertJob db)
    let written ← batch.mapM (itemLines nowTs)
    let taskRows ← sql (written.mapM fun item => item.2.mapM (castTask jsonbIn))
    let db ← sql (taskRows.flatten.foldlM Db.insertTask db)
    if batch.any fun item => !item.req.edges.isEmpty then
      let edgeLines ← batch.mapM fun item => item.req.edges.mapM (edgeLine item)
      let edgeRows ← sql (edgeLines.mapM fun lines => lines.mapM castEdge)
      let db ← sql (edgeRows.flatten.foldlM Db.insertEdge db)
      return (written.map Prod.fst, db)
    else return (written.map Prod.fst, db)

/-! ## What the loops count -/

/-- `dep_count` holds the in-degrees. -/
theorem count_depCount (edges : List TaskEdge) (n : String) :
    (depCount edges).count n = inDegree edges n := by
  have hfold : ∀ counts : CountMap, (edges.foldl (fun counts edge =>
      counts.increment edge.childNaturalId) counts).count n =
        counts.count n + inDegree edges n := by
    induction edges with
    | nil => exact fun counts => rfl
    | cons edge rest ih =>
      intro counts
      rw [List.foldl_cons, ih, CountMap.count_increment, inDegree_cons, Nat.add_assoc]
  rw [depCount, hfold, CountMap.count_empty, Nat.zero_add]

/-- The line of a task, from its in-degree. -/
def taskLine (nowTs : Int) (item : BatchItem) (task : PbTask) : Except SubmitError TaskLine := do
  let uuid ← item.ctx.at task.naturalId
  let pending := inDegree item.req.edges task.naturalId
  return {
    taskId := uuid
    jobId := item.ctx.jobId
    naturalId := task.naturalId
    funcName := task.funcName
    funcParams := task.funcParams
    priority := task.priority
    state := if pending = 0 then 0 else 6
    pendingDependencies := pending
    maxRetry := task.maxRetry
    retryCount := 0
    timeoutMs := task.timeoutMs
    submitTs := nowTs }

/-- The ids of the lines without dependencies. -/
def entryIds (lines : List TaskLine) : List String :=
  (lines.filter fun line => line.pendingDependencies = 0).map TaskLine.taskId

/-- The loop writes the line of every task. -/
theorem writeTasks_eq (nowTs : Int) {item : BatchItem} {counts : CountMap} (tasks : List PbTask)
    (h : ∀ n, counts.count n = inDegree item.req.edges n) :
    writeTasks nowTs item counts tasks =
      (tasks.mapM (taskLine nowTs item)).map fun lines => (entryIds lines, lines) := by
  induction tasks generalizing counts with
  | nil => rfl
  | cons task rest ih =>
    have hcounts : ∀ n, (counts.access task.naturalId).2.count n = inDegree item.req.edges n :=
      fun n => by rw [CountMap.count_access, h]
    have hrest := ih hcounts
    have hpending : (counts.access task.naturalId).1 = inDegree item.req.edges task.naturalId :=
      h task.naturalId
    rw [writeTasks, List.mapM_cons, taskLine]
    cases item.ctx.at task.naturalId with
    | error e => rfl
    | ok uuid =>
      simp only [bind, Except.bind, pure, Except.pure, hpending, hrest]
      cases rest.mapM (taskLine nowTs item) with
      | error e => rfl
      | ok lines =>
        simp only [Except.map, entryIds, List.filter_cons, Int.natCast_eq_zero, decide_eq_true_eq]
        split <;> rfl

theorem itemLines_eq_mapM (nowTs : Int) (item : BatchItem) : itemLines nowTs item = do
    let lines ← item.req.tasks.mapM (taskLine nowTs item)
    return ({ item with ctx :=
      { item.ctx with entryTaskIds := item.ctx.entryTaskIds ++ entryIds lines } }, lines) := by
  rw [itemLines, writeTasks_eq nowTs item.req.tasks (count_depCount item.req.edges)]
  cases item.req.tasks.mapM (taskLine nowTs item) <;> rfl

/-! ## One line -/

/-- The columns of `task` can hold the values of a task. -/
structure PbTask.Storable (jsonbIn : String → Option String) (task : PbTask) : Prop where
  naturalId : nulFree task.naturalId = true
  funcName : nulFree task.funcName = true
  funcParamsText : nulFree task.funcParams = true
  funcParams : (jsonbIn task.funcParams).isSome = true
  priority : task.priority.toNat < 2 ^ 15
  maxRetry : task.maxRetry.toNat < 2 ^ 15
  timeoutMs : task.timeoutMs.toNat < 2 ^ 31

/-- The row of a task. -/
structure TaskStored (jsonbIn : String → Option String) (item : BatchItem) (task : PbTask)
    (row : TaskRow) : Prop where
  taskId : row.taskId.text = item.ctx.uuidOf task.naturalId
  jobId : row.jobId.text = item.ctx.jobId
  naturalId : row.naturalId = task.naturalId
  funcName : row.funcName = task.funcName
  funcParams : row.funcParams = jsonbIn task.funcParams
  priority : row.priority.val = task.priority.toNat
  maxRetry : row.maxRetry.val = task.maxRetry.toNat
  timeoutMs : row.timeoutMs.val = task.timeoutMs.toNat
  pendingDependencies : row.pendingDependencies.val = inDegree item.req.edges task.naturalId
  submitTs : row.submitTs.isSome
  run : row.run = ⟨if inDegree item.req.edges task.naturalId = 0 then statePending
    else stateWaitingDeps, ⟨0, by decide⟩, none, none, none, none, none⟩

section Line

variable {jsonbIn : String → Option String} {nowTs : Int} {sub : Submission} {task : PbTask}

theorem castText_eq_ok {text value : String} :
    castText text = .ok value ↔ nulFree text = true ∧ value = text := by
  unfold castText
  split
  · next h => simp [h, eq_comm]
  · next h => simp [h]

theorem castJsonb_eq_ok {text value : String} :
    castJsonb jsonbIn text = .ok value ↔ jsonbIn text = some value := by
  unfold castJsonb
  cases jsonbIn text <;> simp

theorem castSmallInt_eq_ok {v : Int} {value : SmallInt} :
    castSmallInt v = .ok value ↔ value.val = v := by
  unfold castSmallInt
  constructor
  · intro h
    split at h
    · rw [← Except.ok.inj h]
    · exact nomatch h
  · rintro rfl
    rw [dif_pos value.property]

theorem castInt4_eq_ok {v : Int} {value : Int4} : castInt4 v = .ok value ↔ value.val = v := by
  unfold castInt4
  constructor
  · intro h
    split at h
    · rw [← Except.ok.inj h]
    · exact nomatch h
  · rintro rfl
    rw [dif_pos value.property]

/-- The line of a listed task. -/
theorem taskLine_ok (nowTs : Int) (hn : task.naturalId ∈ sub.req.naturalIds) :
    ∃ u ∈ sub.uuids, sub.item.ctx.uuidOf task.naturalId = u.text ∧
      taskLine nowTs sub.item task = .ok {
        taskId := u.text
        jobId := sub.jobId.text
        naturalId := task.naturalId
        funcName := task.funcName
        funcParams := task.funcParams
        priority := task.priority
        state := if inDegree sub.req.edges task.naturalId = 0 then 0 else 6
        pendingDependencies := inDegree sub.req.edges task.naturalId
        maxRetry := task.maxRetry
        retryCount := 0
        timeoutMs := task.timeoutMs
        submitTs := nowTs } := by
  obtain ⟨u, hu, hlookup⟩ := sub.naturalToUuid hn
  refine ⟨u, hu, DagCommitContext.uuidOf_eq _ hlookup, ?_⟩
  unfold taskLine
  rw [(DagCommitContext.at_eq_ok _).mpr hlookup]
  rfl

/-- The number of edges of a task fits its column. -/
theorem inDegree_lt (req : SubmitDagRequest) (n : String) : inDegree req.edges n < 2 ^ 31 :=
  lt_of_le_of_lt List.countP_le_length req.edgesSize

/-- **A line is parsed into the row of its task** exactly if the columns can
hold it. -/
theorem castTask_iff (hn : task.naturalId ∈ sub.req.naturalIds) {line : TaskLine}
    (hline : taskLine nowTs sub.item task = .ok line) :
    (∀ row, castTask jsonbIn line = .ok row →
      TaskStored jsonbIn sub.item task row ∧ task.Storable jsonbIn) ∧
    (task.Storable jsonbIn → ∃ row, castTask jsonbIn line = .ok row) := by
  obtain ⟨u, -, hid, hok⟩ := taskLine_ok nowTs hn
  obtain rfl := Except.ok.inj (hline.symm.trans hok)
  have hpending := inDegree_lt sub.req task.naturalId
  constructor
  · intro row hrow
    unfold castTask at hrow
    simp only [Fallible.bind_eq_ok, castUuid_text, castText_eq_ok, castJsonb_eq_ok,
      castSmallInt_eq_ok, castInt4_eq_ok] at hrow
    obtain ⟨_, ⟨rfl⟩, _, ⟨rfl⟩, _, ⟨hnatural, rfl⟩, _, ⟨hname, rfl⟩, _, ⟨htext, rfl⟩, params,
      hparams, priority, hpriority, state, hstate, pending, hpend, maxRetry, hmax, retryCount,
      hretry, timeoutMs, htimeout, hrow⟩ := hrow
    obtain rfl := Except.ok.inj hrow
    have hp := priority.property
    have hm := maxRetry.property
    have ht := timeoutMs.property
    refine ⟨⟨hid.symm, rfl, rfl, rfl, hparams.symm, hpriority, hmax, htimeout, hpend, rfl, ?_⟩,
      ⟨hnatural, hname, htext, by rw [hparams]; rfl, by omega, by omega, by omega⟩⟩
    have hzero : retryCount = ⟨0, by decide⟩ := Subtype.ext hretry
    have hstate' : state = if inDegree sub.req.edges task.naturalId = 0 then statePending
        else stateWaitingDeps := by
      apply Subtype.ext
      rw [hstate]
      split <;> rfl
    rw [hzero, hstate']
    rfl
  · rintro ⟨hnatural, hname, htext, hparams, hpriority, hmax, htimeout⟩
    obtain ⟨params, hparams⟩ := Option.isSome_iff_exists.mp hparams
    have hstate : ∃ state : SmallInt, state.val =
        if inDegree sub.req.edges task.naturalId = 0 then (0 : Int) else 6 := by
      by_cases hzero : inDegree sub.req.edges task.naturalId = 0
      · exact ⟨statePending, by rw [if_pos hzero]; rfl⟩
      · exact ⟨stateWaitingDeps, by rw [if_neg hzero]; rfl⟩
    obtain ⟨state, hstate⟩ := hstate
    refine ⟨⟨u, sub.jobId, task.naturalId, task.funcName, some params,
      ⟨task.priority.toNat, by omega⟩, ⟨task.maxRetry.toNat, by omega⟩,
      ⟨task.timeoutMs.toNat, by omega⟩, ⟨inDegree sub.req.edges task.naturalId, by omega⟩,
      some nowTs, ⟨state, ⟨0, by decide⟩, none, none, none, none, none⟩⟩, ?_⟩
    unfold castTask
    simp only [Fallible.bind_eq_ok, castUuid_text, castText_eq_ok, castJsonb_eq_ok,
      castSmallInt_eq_ok, castInt4_eq_ok]
    exact ⟨_, rfl, _, rfl, _, ⟨hnatural, rfl⟩, _, ⟨hname, rfl⟩, _, ⟨htext, rfl⟩, params, hparams,
      ⟨_, _⟩, rfl, state, hstate, ⟨_, _⟩, rfl, ⟨_, _⟩, rfl, ⟨0, by decide⟩, rfl, ⟨_, _⟩, rfl, rfl⟩

/-- The lines of an item are the lines of its tasks, and the item keeps its
request and its ids. -/
theorem itemLines_eq_ok {item item' : BatchItem} {lines : List TaskLine}
    (h : itemLines nowTs item = .ok (item', lines)) :
    List.Forall₂ (fun task line => taskLine nowTs item task = .ok line) item.req.tasks lines ∧
      item'.req = item.req ∧ item'.ctx.jobId = item.ctx.jobId ∧
      item'.ctx.naturalToUuid = item.ctx.naturalToUuid := by
  rw [itemLines_eq_mapM] at h
  obtain ⟨lines', hlines, h⟩ := Fallible.bind_eq_ok.mp h
  obtain ⟨rfl, rfl⟩ := Prod.mk.inj (Except.ok.inj h)
  exact ⟨Fallible.mapM_eq_ok.mp hlines, rfl, rfl, rfl⟩

theorem itemLines_total (nowTs : Int) (sub : Submission) :
    ∃ result, itemLines nowTs sub.item = .ok result := by
  obtain ⟨lines, hlines⟩ := Fallible.mapM_total (f := taskLine nowTs sub.item)
    (l := sub.item.req.tasks) fun task htask => by
      obtain ⟨u, -, -, hline⟩ := taskLine_ok nowTs (List.mem_map_of_mem htask)
      exact ⟨_, hline⟩
  exact ⟨_, (itemLines_eq_mapM nowTs sub.item).trans (Fallible.bind_eq_ok.mpr ⟨lines, hlines, rfl⟩)⟩

end Line

/-! ## One edge -/

/-- The row of an edge. -/
structure EdgeStored (item : BatchItem) (edge : TaskEdge) (row : EdgeRow) : Prop where
  parent : row.parentTaskId.text = item.ctx.uuidOf edge.parentNaturalId
  child : row.childTaskId.text = item.ctx.uuidOf edge.childNaturalId

section Edge

variable {sub : Submission} {edge : TaskEdge}

/-- An edge between listed tasks is written and parsed. -/
theorem edgeLine_ok (hparent : edge.parentNaturalId ∈ sub.req.naturalIds)
    (hchild : edge.childNaturalId ∈ sub.req.naturalIds) :
    ∃ line row, edgeLine sub.item edge = .ok line ∧ castEdge line = .ok row ∧
      EdgeStored sub.item edge row := by
  obtain ⟨u, -, hu⟩ := sub.naturalToUuid hparent
  obtain ⟨v, -, hv⟩ := sub.naturalToUuid hchild
  refine ⟨(u.text, v.text), ⟨u, v⟩, ?_, ?_, ?_⟩
  · exact Fallible.bind_eq_ok.mpr ⟨_, (DagCommitContext.at_eq_ok _).mpr hu,
      Fallible.bind_eq_ok.mpr ⟨_, (DagCommitContext.at_eq_ok _).mpr hv, rfl⟩⟩
  · exact Fallible.bind_eq_ok.mpr ⟨_, castUuid_text u,
      Fallible.bind_eq_ok.mpr ⟨_, castUuid_text v, rfl⟩⟩
  · exact ⟨(DagCommitContext.uuidOf_eq _ hu).symm, (DagCommitContext.uuidOf_eq _ hv).symm⟩

/-- An edge that was written runs between listed tasks. -/
theorem edgeLine_listed {line : String × String} (h : edgeLine sub.item edge = .ok line) :
    edge.parentNaturalId ∈ sub.req.naturalIds ∧ edge.childNaturalId ∈ sub.req.naturalIds := by
  unfold edgeLine at h
  obtain ⟨parent, hparent, h⟩ := Fallible.bind_eq_ok.mp h
  obtain ⟨child, hchild, -⟩ := Fallible.bind_eq_ok.mp h
  rw [DagCommitContext.at_eq_ok] at hparent hchild
  constructor
  · exact (assignIds_isSome sub.oneEach).mp (Option.isSome_iff_exists.mpr ⟨_, hparent⟩)
  · exact (assignIds_isSome sub.oneEach).mp (Option.isSome_iff_exists.mpr ⟨_, hchild⟩)

theorem castEdge_stored {line : String × String} {row : EdgeRow}
    (hline : edgeLine sub.item edge = .ok line) (hrow : castEdge line = .ok row) :
    EdgeStored sub.item edge row := by
  obtain ⟨hparent, hchild⟩ := edgeLine_listed hline
  obtain ⟨line', row', hline', hrow', hstored⟩ := edgeLine_ok hparent hchild
  obtain rfl := Except.ok.inj (hline.symm.trans hline')
  obtain rfl := Except.ok.inj (hrow.symm.trans hrow')
  exact hstored

end Edge

/-! ## ProcessBatch -/

/-- What the infrastructure does to a batch. -/
structure BatchFaults where
  tx : TxOutcome := .committed
  /-- how many of the queued commands the server executes, all if `none` -/
  executed : Option Nat := none

/-- The loop that fills the pipeline. -/
def appendBatch (serialize : PbTask → List UInt8) (batch : List BatchItem) :
    Except SubmitError (List PipeCmd) := do
  let cmds ← batch.mapM fun item => appendDagToPipeline serialize item.req item.ctx
  return cmds.flatten

/-- `ProcessBatch`. -/
def processBatch (jsonbIn : String → Option String) (serialize : PbTask → List UInt8)
    (faults : BatchFaults) (nowTs : Int) (batch : List BatchItem) (db : Db) (r : Redis) :
    Db × Redis :=
  if batch = [] then (db, r)
  else
    let result := executeTx faults.tx (flushDBBatch jsonbIn nowTs batch) db
    match result.returned with
    -- the exception is logged and the batch is dropped
    | none => (result.db, r)
    | some batch =>
      match appendBatch serialize batch with
      | .error _ => (result.db, r)
      | .ok cmds =>
        (result.db, execPipeline (cmds.take (faults.executed.getD cmds.length)) r)

end DistTaskSystem
