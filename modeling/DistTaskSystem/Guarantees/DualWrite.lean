import DistTaskSystem.ApiServer.FlushBatch

/-!
# DTS — one request, written twice

`FlushDBBatch` and `AppendDagToPipeline` walk over the same request one after
the other: the one copies lines into `task` and `task_edge`, the other queues
Redis commands. Each counts the in-degrees and picks the tasks that are ready by
itself. Whatever the multigraph of the request, the two agree line by line and
command by command (`Agrees`); the rows the server makes of the lines carry
their values (`Lands`).

## Results

* `taskLines_eq`  — the lines of a submission.
* `lookups_found` — no lookup of a natural id fails.
* `agrees_append` — the commands of a submission against its lines.
* `flush_lands`   — the rows of a batch against its lines.
* `dual_write_agrees` — both, for every batch.
-/

namespace DistTaskSystem

-- ---------------------------------------------------------------------------
-- What is read off the commands
-- ---------------------------------------------------------------------------

namespace PipeCmd

/-- An entry for the task stream. -/
def added? : PipeCmd → Option (Key × List (String × String))
  | .xadd key fields => some (key, fields)
  | _ => none

/-- A counter. -/
def counted? : PipeCmd → Option (Key × String × Int)
  | .hset key field value => some (key, field, value)
  | _ => none

/-- A child in a children set. -/
def linked? : PipeCmd → Option (Key × String)
  | .sadd key member => some (key, member)
  | _ => none

/-- A stored payload. -/
def stored? : PipeCmd → Option (Key × List UInt8)
  | .set key payload _ => some (key, payload)
  | _ => none

end PipeCmd

/-- The meta message of a task against its line. -/
structure SameTask (line : TaskLine) (message : PbTask) : Prop where
  taskId : message.taskId = line.taskId
  jobId : message.jobId = line.jobId
  naturalId : message.naturalId = line.naturalId
  funcName : message.funcName = line.funcName
  funcParams : message.funcParams = line.funcParams
  priority : message.priority = line.priority
  maxRetry : message.maxRetry = line.maxRetry
  timeoutMs : message.timeoutMs = line.timeoutMs

/-- The commands of an item against its lines. -/
structure Agrees (serialize : PbTask → List UInt8) (item : BatchItem) (lines : List TaskLine)
    (edgeLines : List (String × String)) (cmds : List PipeCmd) : Prop where
  /-- the tasks written with state 0 are the entry tasks, -/
  ready : (lines.filter fun line => line.state = 0).map TaskLine.taskId = item.ctx.entryTaskIds
  /-- which are added to the stream, in this order; -/
  added : cmds.filterMap PipeCmd.added? =
    item.ctx.entryTaskIds.map fun taskId => (.tasks, toXAddArgs taskId item.ctx.jobId)
  /-- the others get their counters; -/
  counted : cmds.filterMap PipeCmd.counted? =
    (lines.filter fun line => line.state ≠ 0).map fun line =>
      (.deps item.ctx.jobId, line.taskId, line.pendingDependencies)
  /-- each written edge is linked; -/
  linked : cmds.filterMap PipeCmd.linked? =
    edgeLines.map fun line => (.children line.1, line.2)
  /-- and each written task has its meta. -/
  metas : ∃ messages : List PbTask, List.Forall₂ SameTask lines messages ∧
    cmds.filterMap PipeCmd.stored? =
      messages.map fun message => (.taskMeta message.taskId, serialize message)

/-- The row of a task against its line. -/
structure Lands (jsonbIn : String → Option String) (line : TaskLine) (row : TaskRow) : Prop where
  taskId : row.taskId.text = line.taskId
  jobId : row.jobId.text = line.jobId
  naturalId : row.naturalId = line.naturalId
  funcName : row.funcName = line.funcName
  funcParams : row.funcParams = jsonbIn line.funcParams
  priority : row.priority.val = line.priority.toNat
  state : row.run.state.val = line.state
  pendingDependencies : row.pendingDependencies.val = line.pendingDependencies
  maxRetry : row.maxRetry.val = line.maxRetry.toNat
  timeoutMs : row.timeoutMs.val = line.timeoutMs.toNat

/-- The edges of a request run between its tasks. -/
def SubmitDagRequest.EdgesListed (req : SubmitDagRequest) : Prop :=
  ∀ edge ∈ req.edges, edge.parentNaturalId ∈ req.naturalIds ∧
    edge.childNaturalId ∈ req.naturalIds

-- ---------------------------------------------------------------------------
-- The lines
-- ---------------------------------------------------------------------------

section Lines

variable {nowTs : Int} {sub : Submission}

/-- The line of a task. -/
def lineOf (nowTs : Int) (item : BatchItem) (task : PbTask) : TaskLine where
  taskId := item.ctx.uuidOf task.naturalId
  jobId := item.ctx.jobId
  naturalId := task.naturalId
  funcName := task.funcName
  funcParams := task.funcParams
  priority := task.priority
  state := if inDegree item.req.edges task.naturalId = 0 then 0 else 6
  pendingDependencies := inDegree item.req.edges task.naturalId
  maxRetry := task.maxRetry
  retryCount := 0
  timeoutMs := task.timeoutMs
  submitTs := nowTs

/-- A line is in state 0 exactly if nothing is pending. -/
theorem lineOf_state {item : BatchItem} {task : PbTask} :
    (lineOf nowTs item task).state = 0 ↔ (lineOf nowTs item task).pendingDependencies = 0 := by
  show (if inDegree item.req.edges task.naturalId = 0 then (0 : Int) else 6) = 0 ↔
    (inDegree item.req.edges task.naturalId : Int) = 0
  split <;> omega

/-- **The lines of a submission.** -/
theorem taskLines_eq (nowTs : Int) (sub : Submission) :
    sub.item.req.tasks.mapM (taskLine nowTs sub.item) =
      .ok (sub.req.tasks.map (lineOf nowTs sub.item)) := by
  refine Fallible.mapM_eq_map fun task htask => ?_
  obtain ⟨u, -, hid, hline⟩ := taskLine_ok nowTs (List.mem_map_of_mem (f := PbTask.naturalId) htask)
  rw [hline, lineOf, hid]
  rfl

/-- The item of a submission once its entry tasks are noted. -/
def Submission.noted (sub : Submission) (nowTs : Int) : BatchItem :=
  { sub.item with ctx := { sub.item.ctx with
    entryTaskIds := ((sub.req.tasks.map (lineOf nowTs sub.item)).filter fun line =>
      line.pendingDependencies = 0).map TaskLine.taskId } }

theorem itemLines_eq (nowTs : Int) (sub : Submission) : itemLines nowTs sub.item =
    .ok (sub.noted nowTs, sub.req.tasks.map (lineOf nowTs sub.item)) := by
  rw [itemLines_eq_mapM, taskLines_eq]
  rfl

/-- The ids of an edge. -/
def endpoints (ctx : DagCommitContext) (edge : TaskEdge) : String × String :=
  (ctx.uuidOf edge.parentNaturalId, ctx.uuidOf edge.childNaturalId)

theorem edgeLines_eq (hlisted : sub.req.EdgesListed) :
    sub.item.req.edges.mapM (edgeLine sub.item) =
      .ok (sub.req.edges.map (endpoints sub.item.ctx)) := by
  refine Fallible.mapM_eq_map fun edge hedge => ?_
  obtain ⟨hparent, hchild⟩ := hlisted edge hedge
  obtain ⟨u, -, hu⟩ := sub.naturalToUuid hparent
  obtain ⟨v, -, hv⟩ := sub.naturalToUuid hchild
  rw [edgeLine, endpoints, DagCommitContext.uuidOf_eq _ hu, DagCommitContext.uuidOf_eq _ hv,
    (DagCommitContext.at_eq_ok _).mpr hu, (DagCommitContext.at_eq_ok _).mpr hv]
  rfl

/-- Every lookup of the publication succeeds, too. -/
theorem noted_resolves (nowTs : Int) (hlisted : sub.req.EdgesListed) :
    Resolves (sub.noted nowTs).ctx sub.req where
  tasks _ htask := (assignIds_isSome sub.oneEach).mpr (List.mem_map_of_mem htask)
  edges edge hedge := ⟨(assignIds_isSome sub.oneEach).mpr (hlisted edge hedge).1,
    (assignIds_isSome sub.oneEach).mpr (hlisted edge hedge).2⟩

end Lines

-- ---------------------------------------------------------------------------
-- The lookups
-- ---------------------------------------------------------------------------

section Lookups

variable {jsonbIn : String → Option String} {nowTs : Int} {subs : List Submission} {db : Db}

/-- What the server refuses is not a lookup. -/
theorem sql_ne_outOfRange {α : Type} {x : Except SqlError α} {n : String} :
    sql x ≠ .error (.outOfRange n) := by
  cases x <;> exact nofun

theorem written_eq (nowTs : Int) (subs : List Submission) :
    (subs.map Submission.item).mapM (itemLines nowTs) = .ok (subs.map fun sub =>
      (sub.noted nowTs, sub.req.tasks.map (lineOf nowTs sub.item))) := by
  rw [List.mapM_map]
  exact Fallible.mapM_eq_map fun sub _ => itemLines_eq nowTs sub

theorem batchEdgeLines_eq (hlisted : ∀ sub ∈ subs, sub.req.EdgesListed) :
    (subs.map Submission.item).mapM (fun item => item.req.edges.mapM (edgeLine item)) =
      .ok (subs.map fun sub => sub.req.edges.map (endpoints sub.item.ctx)) := by
  rw [List.mapM_map]
  exact Fallible.mapM_eq_map fun sub hsub => edgeLines_eq (hlisted sub hsub)

/-- **No lookup of `FlushDBBatch` fails.** -/
theorem lookups_found (jsonbIn : String → Option String) (nowTs : Int) (db : Db)
    (hlisted : ∀ sub ∈ subs, sub.req.EdgesListed) (n : String) :
    flushDBBatch jsonbIn nowTs (subs.map Submission.item) db ≠ .error (.outOfRange n) := by
  intro h
  unfold flushDBBatch at h
  split at h
  · exact nomatch h
  rcases Fallible.bind_eq_error.mp h with h | ⟨jobs, -, h⟩
  · exact sql_ne_outOfRange h
  rcases Fallible.bind_eq_error.mp h with h | ⟨db₁, -, h⟩
  · exact sql_ne_outOfRange h
  rcases Fallible.bind_eq_error.mp h with h | ⟨written, -, h⟩
  · exact nomatch (written_eq nowTs subs).symm.trans h
  rcases Fallible.bind_eq_error.mp h with h | ⟨rows, -, h⟩
  · exact sql_ne_outOfRange h
  rcases Fallible.bind_eq_error.mp h with h | ⟨db₂, -, h⟩
  · exact sql_ne_outOfRange h
  split at h
  · rcases Fallible.bind_eq_error.mp h with h | ⟨lines, -, h⟩
    · exact nomatch (batchEdgeLines_eq hlisted).symm.trans h
    rcases Fallible.bind_eq_error.mp h with h | ⟨edgeRows, -, h⟩
    · exact sql_ne_outOfRange h
    rcases Fallible.bind_eq_error.mp h with h | ⟨db₃, -, h⟩
    · exact sql_ne_outOfRange h
    · exact nomatch h
  · exact nomatch h

end Lookups

-- ---------------------------------------------------------------------------
-- The commands
-- ---------------------------------------------------------------------------

section Commands

variable {serialize : PbTask → List UInt8} {nowTs : Int} {sub : Submission}

/-- The EXPIREs show up in none of the readings. -/
theorem filterMap_expire {β : Type} {f : PipeCmd → Option β} {cmds : List PipeCmd}
    (hf : ∀ key ttl, f (.expire key ttl) = none) :
    cmds.filterMap f = (cmds.filter fun cmd => !cmd.isExpire).filterMap f := by
  rw [List.filterMap_filter]
  refine List.filterMap_congr fun cmd _ => ?_
  cases cmd with
  | expire key ttl => exact hf key ttl
  | sadd key member => rfl
  | set key payload ttl => rfl
  | hset key field value => rfl
  | xadd key fields => rfl

/-- The readings of a publication, edge by edge and task by task. -/
theorem filterMap_dagCommands {β : Type} {f : PipeCmd → Option β} {req : SubmitDagRequest}
    {ctx : DagCommitContext} :
    (dagCommands serialize req ctx).filterMap f =
      req.edges.filterMap (fun edge => f (saddCommand ctx edge)) ++
        req.tasks.flatMap fun task => (f (metaCommand serialize ctx task)).toList ++
          (f (dispatchCommand ctx req.edges task)).toList := by
  rw [dagCommands, List.filterMap_append, List.filterMap_map, List.filterMap_flatMap]
  congr 1
  refine List.flatMap_congr fun task _ => ?_
  rw [List.filterMap_cons, List.filterMap_cons, List.filterMap_nil]
  cases f (metaCommand serialize ctx task) <;>
    cases f (dispatchCommand ctx req.edges task) <;> rfl

variable {ctx : DagCommitContext} {req : SubmitDagRequest}

/-- A task is added to the stream exactly if nothing is pending. -/
theorem added_dispatch (task : PbTask) : (dispatchCommand ctx req.edges task).added? =
    if inDegree req.edges task.naturalId = 0 then
      some (.tasks, toXAddArgs (ctx.uuidOf task.naturalId) ctx.jobId)
    else none := by
  rw [dispatchCommand]
  by_cases hzero : inDegree req.edges task.naturalId = 0
  · rw [if_neg (by omega), if_pos hzero]
    rfl
  · rw [if_pos (by omega), if_neg hzero]
    rfl

theorem counted_dispatch (task : PbTask) : (dispatchCommand ctx req.edges task).counted? =
    if inDegree req.edges task.naturalId ≠ 0 then
      some (Key.deps ctx.jobId, ctx.uuidOf task.naturalId,
        (inDegree req.edges task.naturalId : Int))
    else none := by
  rw [dispatchCommand]
  by_cases hzero : inDegree req.edges task.naturalId = 0
  · rw [if_neg (by omega), if_neg (not_not.mpr hzero)]
    rfl
  · rw [if_pos (by omega), if_pos hzero]
    rfl

theorem other_dispatch (task : PbTask) :
    (dispatchCommand ctx req.edges task).linked? = none ∧
      (dispatchCommand ctx req.edges task).stored? = none := by
  rw [dispatchCommand]
  split <;> exact ⟨rfl, rfl⟩

/-- Picking from a list what a test lets through. -/
theorem flatMap_toList_ite {α β : Type} {p : α → Prop} [DecidablePred p] {g : α → β}
    {l : List α} :
    l.flatMap (fun a => (if p a then some (g a) else none).toList) = (l.filter p).map g := by
  induction l with
  | nil => rfl
  | cons a l ih =>
    rw [List.flatMap_cons, ih, List.filter_cons]
    by_cases ha : p a
    · rw [if_pos ha, if_pos (decide_eq_true ha)]
      rfl
    · rw [if_neg ha, if_neg (by simpa using ha)]
      rfl

/-- Linking is seen by one reading only. -/
theorem filterMap_edges {β : Type} {f : PipeCmd → Option β}
    (hf : ∀ key member, f (.sadd key member) = none) :
    req.edges.filterMap (fun edge => f (saddCommand ctx edge)) = [] :=
  List.filterMap_eq_nil_iff.mpr fun _ _ => hf _ _

theorem added_dagCommands : (dagCommands serialize req ctx).filterMap PipeCmd.added? =
    (req.tasks.filter fun task => inDegree req.edges task.naturalId = 0).map fun task =>
      (Key.tasks, toXAddArgs (ctx.uuidOf task.naturalId) ctx.jobId) := by
  rw [filterMap_dagCommands, filterMap_edges fun _ _ => rfl, List.nil_append,
    ← flatMap_toList_ite]
  exact List.flatMap_congr fun task _ => congrArg Option.toList (added_dispatch task)

theorem counted_dagCommands : (dagCommands serialize req ctx).filterMap PipeCmd.counted? =
    (req.tasks.filter fun task => inDegree req.edges task.naturalId ≠ 0).map fun task =>
      (Key.deps ctx.jobId, ctx.uuidOf task.naturalId,
        (inDegree req.edges task.naturalId : Int)) := by
  rw [filterMap_dagCommands, filterMap_edges fun _ _ => rfl, List.nil_append,
    ← flatMap_toList_ite]
  exact List.flatMap_congr fun task _ => congrArg Option.toList (counted_dispatch task)

theorem linked_dagCommands : (dagCommands serialize req ctx).filterMap PipeCmd.linked? =
    req.edges.map fun edge => (Key.children (ctx.uuidOf edge.parentNaturalId),
      ctx.uuidOf edge.childNaturalId) := by
  have htasks : req.tasks.flatMap (fun task =>
      (metaCommand serialize ctx task).linked?.toList ++
        (dispatchCommand ctx req.edges task).linked?.toList) = [] := by
    refine List.flatMap_eq_nil_iff.mpr fun task _ => ?_
    rw [(other_dispatch task).1]
    rfl
  rw [filterMap_dagCommands, htasks, List.append_nil, ← List.filterMap_eq_map]
  rfl

theorem stored_dagCommands (hresolves : Resolves ctx req) :
    (dagCommands serialize req ctx).filterMap PipeCmd.stored? =
      req.tasks.map fun task => (Key.taskMeta (ctx.uuidOf task.naturalId),
        serialize (internalTask ctx (ctx.uuidOf task.naturalId) task)) := by
  rw [filterMap_dagCommands, filterMap_edges fun _ _ => rfl, List.nil_append, List.map_eq_flatMap]
  refine List.flatMap_congr fun task htask => ?_
  obtain ⟨uuid, huuid⟩ := Option.isSome_iff_exists.mp (hresolves.tasks task htask)
  rw [(other_dispatch task).2, metaCommand, huuid, ctx.uuidOf_eq huuid]
  rfl

/-- **The commands of a submission agree with its lines.** -/
theorem agrees_append (serialize : PbTask → List UInt8) (nowTs : Int)
    (hlisted : sub.req.EdgesListed) : ∃ cmds,
      appendDagToPipeline serialize (sub.noted nowTs).req (sub.noted nowTs).ctx = .ok cmds ∧
      Agrees serialize (sub.noted nowTs) (sub.req.tasks.map (lineOf nowTs sub.item))
        (sub.req.edges.map (endpoints sub.item.ctx)) cmds := by
  have hresolves := noted_resolves nowTs hlisted
  obtain ⟨cmds, hcmds⟩ := appendDag_total serialize hresolves
  have hjob : (sub.noted nowTs).ctx.jobId ≠ "" := Uuid.text_ne_empty sub.jobId
  have hread : ∀ {β : Type} {f : PipeCmd → Option β}, (∀ key ttl, f (.expire key ttl) = none) →
      cmds.filterMap f =
        (dagCommands serialize sub.req (sub.noted nowTs).ctx).filterMap f := by
    intro β f hf
    rw [filterMap_expire hf, (appendDag_ok hjob hcmds).2]
  -- the tasks whose line has state 0 are those without pending dependencies
  have hready : ∀ task, (lineOf nowTs sub.item task).state = 0 ↔
      inDegree sub.req.edges task.naturalId = 0 := fun task =>
    lineOf_state.trans Int.natCast_eq_zero
  have hentries : (sub.noted nowTs).ctx.entryTaskIds =
      (sub.req.tasks.filter fun task => inDegree sub.req.edges task.naturalId = 0).map fun task =>
        sub.item.ctx.uuidOf task.naturalId := by
    show ((sub.req.tasks.map (lineOf nowTs sub.item)).filter _).map TaskLine.taskId = _
    rw [List.filter_map, List.map_map]
    congr 1
    refine List.filter_congr fun task _ => decide_eq_decide.mpr ?_
    exact Int.natCast_eq_zero
  refine ⟨cmds, hcmds, ?_, ?_, ?_, ?_, ?_⟩
  · rw [hentries, List.filter_map, List.map_map]
    congr 1
    exact List.filter_congr fun task _ => decide_eq_decide.mpr (hready task)
  · rw [hread fun _ _ => rfl, added_dagCommands, hentries, List.map_map]
    rfl
  · rw [hread fun _ _ => rfl, counted_dagCommands, List.filter_map, List.map_map]
    congr 1
    exact List.filter_congr fun task _ => decide_eq_decide.mpr (not_congr (hready task)).symm
  · rw [hread fun _ _ => rfl, linked_dagCommands, List.map_map]
    rfl
  · refine ⟨sub.req.tasks.map fun task => internalTask (sub.noted nowTs).ctx
      (sub.item.ctx.uuidOf task.naturalId) task, ?_, ?_⟩
    · rw [List.forall₂_map_left_iff, List.forall₂_map_right_iff, List.forall₂_same]
      exact fun task _ => ⟨rfl, rfl, rfl, rfl, rfl, rfl, rfl, rfl⟩
    · rw [hread fun _ _ => rfl, stored_dagCommands hresolves, List.map_map]
      rfl

end Commands

-- ---------------------------------------------------------------------------
-- The rows
-- ---------------------------------------------------------------------------

section Rows

variable {jsonbIn : String → Option String} {nowTs : Int} {subs : List Submission} {db db' : Db}
  {batch : List BatchItem}

theorem TaskStored.lands {item : BatchItem} {task : PbTask} {row : TaskRow}
    (h : TaskStored jsonbIn item task row) (nowTs : Int) :
    Lands jsonbIn (lineOf nowTs item task) row where
  taskId := h.taskId
  jobId := h.jobId
  naturalId := h.naturalId
  funcName := h.funcName
  funcParams := h.funcParams
  priority := h.priority
  state := by
    rw [h.run]
    show (if inDegree item.req.edges task.naturalId = 0 then statePending
      else stateWaitingDeps).val = if inDegree item.req.edges task.naturalId = 0 then 0 else 6
    split <;> rfl
  pendingDependencies := h.pendingDependencies
  maxRetry := h.maxRetry
  timeoutMs := h.timeoutMs

/-- A written batch goes on with its entry tasks noted. -/
theorem flush_noted (h : flushDBBatch jsonbIn nowTs (subs.map Submission.item) db =
    .ok (batch, db')) : batch = subs.map fun sub => sub.noted nowTs := by
  unfold flushDBBatch at h
  split at h
  · next hempty =>
    obtain ⟨rfl, rfl⟩ := Prod.mk.inj (Except.ok.inj h)
    obtain rfl := List.map_eq_nil_iff.mp hempty
    rfl
  obtain ⟨jobs, -, h⟩ := Fallible.bind_eq_ok.mp h
  obtain ⟨db₁, -, h⟩ := Fallible.bind_eq_ok.mp h
  obtain ⟨written, hwritten, h⟩ := Fallible.bind_eq_ok.mp h
  obtain rfl := Except.ok.inj ((written_eq nowTs subs).symm.trans hwritten)
  obtain ⟨rows, -, h⟩ := Fallible.bind_eq_ok.mp h
  obtain ⟨db₂, -, h⟩ := Fallible.bind_eq_ok.mp h
  split at h
  · obtain ⟨lines, -, h⟩ := Fallible.bind_eq_ok.mp h
    obtain ⟨edgeRows, -, h⟩ := Fallible.bind_eq_ok.mp h
    obtain ⟨db₃, -, h⟩ := Fallible.bind_eq_ok.mp h
    rw [← (Prod.mk.inj (Except.ok.inj h)).1, List.map_map]
    rfl
  · rw [← (Prod.mk.inj (Except.ok.inj h)).1, List.map_map]
    rfl

/-- **The rows of a written batch** are its lines, parsed. -/
theorem flush_lands (h : flushDBBatch jsonbIn nowTs (subs.map Submission.item) db =
    .ok (batch, db')) : ∃ rows edgeRows,
      db'.tasks = db.tasks ++ rows ∧ db'.edges = db.edges ++ edgeRows ∧
      List.Forall₂ (Lands jsonbIn)
        (subs.flatMap fun sub => sub.req.tasks.map (lineOf nowTs sub.item)) rows ∧
      edgeRows.map (fun row => (row.parentTaskId.text, row.childTaskId.text)) =
        subs.flatMap fun sub => sub.req.edges.map (endpoints sub.item.ctx) := by
  obtain ⟨rows, -, htasks, hedges, -, -⟩ := flush_ok h
  refine ⟨_, _, htasks, hedges, Fallible.forall₂_flatMap (rows.task.imp ?_), rows.edgeIds⟩
  intro sub taskRows hstored
  rw [List.forall₂_map_left_iff]
  exact hstored.imp fun task row hrow => hrow.lands nowTs

end Rows

-- ---------------------------------------------------------------------------
-- Both stores
-- ---------------------------------------------------------------------------

/-- **Rows and commands agree.** Take any batch of requests whose edges run between
their own tasks.
No lookup of a natural id fails. For each request the lines of `task` and
`task_edge` agree with the commands that are queued for it. And if the database
takes the batch, the lines are what the tables gain. -/
theorem dual_write_agrees (jsonbIn : String → Option String) (serialize : PbTask → List UInt8)
    (nowTs : Int) (db : Db) {subs : List Submission}
    (hlisted : ∀ sub ∈ subs, sub.req.EdgesListed) :
    (∀ n, flushDBBatch jsonbIn nowTs (subs.map Submission.item) db ≠ .error (.outOfRange n)) ∧
    (∀ sub ∈ subs, ∃ item lines edgeLines cmds,
      itemLines nowTs sub.item = .ok (item, lines) ∧
      sub.item.req.edges.mapM (edgeLine sub.item) = .ok edgeLines ∧
      appendDagToPipeline serialize item.req item.ctx = .ok cmds ∧
      Agrees serialize item lines edgeLines cmds) ∧
    ∀ batch db', flushDBBatch jsonbIn nowTs (subs.map Submission.item) db = .ok (batch, db') →
      ∃ written edgeLines rows edgeRows,
        List.Forall₂ (fun sub w => itemLines nowTs sub.item = .ok w) subs written ∧
        batch = written.map Prod.fst ∧
        List.Forall₂ (fun sub lines =>
          sub.item.req.edges.mapM (edgeLine sub.item) = .ok lines) subs edgeLines ∧
        db'.tasks = db.tasks ++ rows ∧
        List.Forall₂ (Lands jsonbIn) (written.map Prod.snd).flatten rows ∧
        db'.edges = db.edges ++ edgeRows ∧
        edgeRows.map (fun row => (row.parentTaskId.text, row.childTaskId.text)) =
          edgeLines.flatten := by
  refine ⟨lookups_found jsonbIn nowTs db hlisted, fun sub hsub => ?_, fun batch db' h => ?_⟩
  · obtain ⟨cmds, hcmds, hagrees⟩ := agrees_append serialize nowTs (hlisted sub hsub)
    exact ⟨_, _, _, cmds, itemLines_eq nowTs sub, edgeLines_eq (hlisted sub hsub), hcmds, hagrees⟩
  · obtain ⟨rows, edgeRows, htasks, hedges, hlands, hids⟩ := flush_lands h
    refine ⟨subs.map fun sub => (sub.noted nowTs, sub.req.tasks.map (lineOf nowTs sub.item)),
      subs.map fun sub => sub.req.edges.map (endpoints sub.item.ctx), rows, edgeRows, ?_, ?_, ?_,
      htasks, ?_, hedges, ?_⟩
    · rw [List.forall₂_map_right_iff, List.forall₂_same]
      exact fun sub _ => itemLines_eq nowTs sub
    · rw [flush_noted h, List.map_map]
      rfl
    · rw [List.forall₂_map_right_iff, List.forall₂_same]
      exact fun sub hsub => edgeLines_eq (hlisted sub hsub)
    · rw [List.map_map]
      rwa [List.flatMap_def] at hlands
    · rwa [List.flatMap_def] at hids

/-- Two tasks, and the same edge twice. -/
def doubled : Submission where
  req := {
    idempotencyKey := "doubled"
    tasks := [{ naturalId := "a", funcName := "f" }, { naturalId := "b", funcName := "g" }]
    edges := [⟨"a", "b"⟩, ⟨"a", "b"⟩]
    edgesSize := by decide }
  jobId := ⟨"00000000-0000-0000-0000-000000000000", Eq.refl true⟩
  uuids := [⟨"aaaaaaaa-aaaa-aaaa-aaaa-aaaaaaaaaaaa", Eq.refl true⟩,
    ⟨"bbbbbbbb-bbbb-bbbb-bbbb-bbbbbbbbbbbb", Eq.refl true⟩]
  oneEach := rfl

/-- `b` waits for two, in its line and in its counter; `a` is in state 0 and in the stream. -/
theorem dual_write_agrees_doubled : ∃ item lines edgeLines cmds,
    itemLines 0 doubled.item = .ok (item, lines) ∧
      appendDagToPipeline (fun _ => [1]) item.req item.ctx = .ok cmds ∧
      Agrees (fun _ => [1]) item lines edgeLines cmds ∧
      lines.map (fun line => (line.naturalId, line.state, line.pendingDependencies)) =
        [("a", 0, 0), ("b", 6, 2)] ∧
      item.ctx.entryTaskIds = ["aaaaaaaa-aaaa-aaaa-aaaa-aaaaaaaaaaaa"] ∧
      edgeLines.length = 2 ∧
      cmds.filterMap PipeCmd.counted? = [(.deps doubled.jobId.text,
        "bbbbbbbb-bbbb-bbbb-bbbb-bbbbbbbbbbbb", 2)] ∧
      (cmds.filterMap PipeCmd.added?).length = 1 := by
  have hlisted : ∀ sub ∈ [doubled], sub.req.EdgesListed := by
    intro sub hsub
    obtain rfl := List.mem_singleton.mp hsub
    exact (by decide : ∀ edge ∈ doubled.req.edges, edge.parentNaturalId ∈ doubled.req.naturalIds ∧
      edge.childNaturalId ∈ doubled.req.naturalIds)
  obtain ⟨item, lines, edgeLines, cmds, hlines, hedges, hcmds, hagrees⟩ :=
    (dual_write_agrees (fun _ => none) (fun _ => [1]) 0 .empty hlisted).2.1 doubled
      (List.mem_singleton.mpr rfl)
  -- the two loops, run
  have hwritten : ((itemLines 0 doubled.item).toOption.any fun written =>
      written.2.map (fun line => (line.naturalId, line.state, line.pendingDependencies)) =
        [("a", 0, 0), ("b", 6, 2)] ∧
      written.1.ctx.entryTaskIds = ["aaaaaaaa-aaaa-aaaa-aaaa-aaaaaaaaaaaa"] ∧
      ((appendDagToPipeline (fun _ => [1]) written.1.req written.1.ctx).toOption.any fun cmds =>
        cmds.filterMap PipeCmd.counted? = [(.deps doubled.jobId.text,
          "bbbbbbbb-bbbb-bbbb-bbbb-bbbbbbbbbbbb", 2)] ∧
        (cmds.filterMap PipeCmd.added?).length = 1)) = true := by
    decide
  rw [hlines] at hwritten
  obtain ⟨hvalues, hentries, hqueued⟩ := of_decide_eq_true hwritten
  rw [hcmds] at hqueued
  obtain ⟨hcounted, hadded⟩ := of_decide_eq_true hqueued
  exact ⟨item, lines, edgeLines, cmds, hlines, hcmds, hagrees, hvalues, hentries,
    (Fallible.mapM_eq_ok.mp hedges).length_eq.symm, hcounted, hadded⟩

end DistTaskSystem
