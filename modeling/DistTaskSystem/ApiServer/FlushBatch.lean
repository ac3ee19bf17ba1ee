import DistTaskSystem.ApiServer.TaskSubmitter

/-!
# DTS — when a batch is written

`flush_ok_iff`: under fresh ids a batch is written if and only if every request
of it can be stored and no request with tasks repeats a key. What a written
batch satisfies is read off the constraints of the tables, which a `Db`
carries; `flush_ok` only says which rows were added.
-/

namespace DistTaskSystem

/-! ## Fresh ids and storable requests -/

/-- The generated ids are distinct and new to the tables. -/
structure FreshIds (subs : List Submission) (db : Db) : Prop where
  jobs : (subs.map Submission.jobId).Nodup
  uuids : (subs.flatMap Submission.uuids).Nodup
  newJobs : ∀ sub ∈ subs, sub.jobId ∉ db.jobs.map JobRow.jobId
  newTasks : ∀ sub ∈ subs, ∀ u ∈ sub.uuids, u ∉ db.tasks.map TaskRow.taskId

/-- The tables can hold the request by itself. -/
structure SubmitDagRequest.Storable (jsonbIn : String → Option String) (req : SubmitDagRequest) :
    Prop where
  key : nulFree req.idempotencyKey = true
  distinct : req.naturalIds.Nodup
  listed : req.Listed
  tasks : ∀ task ∈ req.tasks, task.Storable jsonbIn

/-- Neither the tables nor the items before this one hold the key. -/
def Submission.KeyNew (sub : Submission) (before : List Submission) (db : Db) : Prop :=
  sub.req.idempotencyKey ∉ db.jobs.map JobRow.idempotencyKey ∧
    sub.req.idempotencyKey ∉ before.map fun s => s.req.idempotencyKey

/-- No request with tasks repeats a key. -/
def KeysFree (subs : List Submission) (db : Db) : Prop :=
  ∀ before sub after, subs = before ++ sub :: after → sub.req.tasks ≠ [] → sub.KeyNew before db

/-! ## The rows of a batch -/

/-- The row of a submission in the temporary table. -/
structure JobStored (sub : Submission) (row : JobRow) : Prop where
  jobId : row.jobId = sub.jobId
  key : row.idempotencyKey = sub.req.idempotencyKey
  state : row.state = statePending

/-- What a batch is parsed into, item by item. -/
structure BatchRows (jsonbIn : String → Option String) (subs : List Submission) where
  jobs : List JobRow
  tasks : List (List TaskRow)
  edges : List (List EdgeRow)
  job : List.Forall₂ JobStored subs jobs
  task : List.Forall₂ (fun sub rows =>
    List.Forall₂ (TaskStored jsonbIn sub.item) sub.req.tasks rows) subs tasks
  edge : List.Forall₂ (fun sub rows =>
    List.Forall₂ (EdgeStored sub.item) sub.req.edges rows) subs edges

namespace BatchRows

variable {jsonbIn : String → Option String} {subs : List Submission}

theorem jobIds (rows : BatchRows jsonbIn subs) :
    rows.jobs.map JobRow.jobId = subs.map Submission.jobId :=
  Fallible.map_eq_map rows.job fun _ _ h => h.jobId

private theorem flatten_map {α β γ : Type} {l : List α} {bss : List (List β)} {f : α → List γ}
    {g : β → γ} (h : List.Forall₂ (fun a bs => bs.map g = f a) l bss) :
    bss.flatten.map g = l.flatMap f := by
  induction h with
  | nil => rfl
  | cons hab _ ih => rw [List.flatten_cons, List.map_append, List.flatMap_cons, hab, ih]

/-- The task ids of a batch are the ids of its graphs. -/
theorem taskIds (rows : BatchRows jsonbIn subs) :
    rows.tasks.flatten.map (fun row => row.taskId.text) =
      subs.flatMap fun sub => dagIds sub.item.ctx sub.req :=
  flatten_map (rows.task.imp fun _ _ h => Fallible.map_eq_map h fun _ _ hrow => hrow.taskId)

theorem naturalIds (rows : BatchRows jsonbIn subs) :
    rows.tasks.flatten.map (fun row => (row.jobId, row.naturalId)) =
      subs.flatMap fun sub => sub.req.tasks.map fun task => (sub.jobId, task.naturalId) :=
  flatten_map (rows.task.imp fun _ _ h => Fallible.map_eq_map h fun _ _ hrow =>
    Prod.ext (Uuid.text_inj.mp hrow.jobId) hrow.naturalId)

theorem edgeIds (rows : BatchRows jsonbIn subs) :
    rows.edges.flatten.map (fun row => (row.parentTaskId.text, row.childTaskId.text)) =
      subs.flatMap fun sub => sub.req.edges.map fun edge =>
        (sub.item.ctx.uuidOf edge.parentNaturalId, sub.item.ctx.uuidOf edge.childNaturalId) :=
  flatten_map (rows.edge.imp fun _ _ h => Fallible.map_eq_map h fun _ _ hrow =>
    Prod.ext hrow.parent hrow.child)

end BatchRows

/-! ## A batch that was written -/

theorem sql_eq_ok {α : Type} {x : Except SqlError α} {a : α} : sql x = .ok a ↔ x = .ok a :=
  Fallible.mapError_eq_ok

theorem copyJob_eq_ok {sub : Submission} {row : JobRow} :
    copyJob sub.item = .ok row ↔ nulFree sub.req.idempotencyKey = true ∧ JobStored sub row := by
  have hkey : ∀ key, castText sub.item.req.idempotencyKey = .ok key ↔
      nulFree sub.req.idempotencyKey = true ∧ key = sub.req.idempotencyKey :=
    fun key => castText_eq_ok
  unfold copyJob
  rw [show castUuid sub.item.ctx.jobId = .ok sub.jobId from castUuid_text sub.jobId]
  constructor
  · intro h
    obtain ⟨_, hj, h⟩ := Fallible.bind_eq_ok.mp h
    obtain rfl := Except.ok.inj hj
    obtain ⟨key, hk, h⟩ := Fallible.bind_eq_ok.mp h
    obtain ⟨hnul, rfl⟩ := (hkey key).mp hk
    obtain rfl := Except.ok.inj h
    exact ⟨hnul, rfl, rfl, rfl⟩
  · rintro ⟨hnul, hjobId, hrowKey, hstate⟩
    obtain ⟨jobId, key, state⟩ := row
    obtain rfl := hjobId
    obtain rfl := hrowKey
    obtain rfl := hstate
    refine Fallible.bind_eq_ok.mpr ⟨_, rfl, ?_⟩
    exact Fallible.bind_eq_ok.mpr ⟨_, (hkey _).mpr ⟨hnul, rfl⟩, rfl⟩

/-- The item of a submission, with some entry tasks noted. -/
structure SameItem (sub : Submission) (item : BatchItem) : Prop where
  req : item.req = sub.req
  jobId : item.ctx.jobId = sub.item.ctx.jobId
  naturalToUuid : item.ctx.naturalToUuid = sub.item.ctx.naturalToUuid

/-- The columns can hold the values of a request, and its edges can be looked
up: the part of `Storable` that is decided before any row is inserted. -/
structure Parses (jsonbIn : String → Option String) (req : SubmitDagRequest) : Prop where
  key : nulFree req.idempotencyKey = true
  tasks : ∀ task ∈ req.tasks, task.Storable jsonbIn
  edges : ∀ edge ∈ req.edges,
    edge.parentNaturalId ∈ req.naturalIds ∧ edge.childNaturalId ∈ req.naturalIds

section Written

variable {jsonbIn : String → Option String} {nowTs : Int} {subs : List Submission} {db db' : Db}
  {batch : List BatchItem}

/-- The lines of listed tasks become their rows: each line is of a listed task, so
its row is known. -/
theorem lines_stored {sub : Submission} {tasks : List PbTask} {lines : List TaskLine}
    {rows : List TaskRow} (hlisted : ∀ task ∈ tasks, task.naturalId ∈ sub.req.naturalIds)
    (hlines : List.Forall₂ (fun task line => taskLine nowTs sub.item task = .ok line) tasks lines)
    (hrows : List.Forall₂ (fun line row => castTask jsonbIn line = .ok row) lines rows) :
    List.Forall₂ (TaskStored jsonbIn sub.item) tasks rows ∧
      ∀ task ∈ tasks, task.Storable jsonbIn := by
  induction hlines generalizing rows with
  | nil =>
    obtain rfl := List.forall₂_nil_left_iff.mp hrows
    exact ⟨.nil, by simp⟩
  | cons htask _ ih =>
    obtain ⟨row, rows, hrow, hmore, rfl⟩ := List.forall₂_cons_left_iff.mp hrows
    obtain ⟨hfirst, hlisted⟩ := List.forall_mem_cons.mp hlisted
    obtain ⟨hstored, hall⟩ := ih hlisted hmore
    obtain ⟨htaskStored, hstorable⟩ := (castTask_iff hfirst htask).1 row hrow
    exact ⟨.cons htaskStored hstored, List.forall_mem_cons.mpr ⟨hstorable, hall⟩⟩

theorem edgeLines_stored {sub : Submission} {edges : List TaskEdge}
    {lines : List (String × String)} {rows : List EdgeRow}
    (hlines : List.Forall₂ (fun edge line => edgeLine sub.item edge = .ok line) edges lines)
    (hrows : List.Forall₂ (fun line row => castEdge line = .ok row) lines rows) :
    List.Forall₂ (EdgeStored sub.item) edges rows := by
  induction hlines generalizing rows with
  | nil =>
    obtain rfl := List.forall₂_nil_left_iff.mp hrows
    exact .nil
  | cons hedge _ ih =>
    obtain ⟨row, rows, hrow, hmore, rfl⟩ := List.forall₂_cons_left_iff.mp hrows
    exact .cons (castEdge_stored hedge hrow) (ih hmore)

/-- The tasks of the items become their rows. -/
theorem written_rows {written : List (BatchItem × List TaskLine)} {rows : List (List TaskRow)}
    (hwritten : (subs.map Submission.item).mapM (itemLines nowTs) = .ok written)
    (hrows : written.mapM (fun item => item.2.mapM (castTask jsonbIn)) = .ok rows) :
    List.Forall₂ (fun sub rows =>
      List.Forall₂ (TaskStored jsonbIn sub.item) sub.req.tasks rows) subs rows ∧
    (∀ sub ∈ subs, ∀ task ∈ sub.req.tasks, task.Storable jsonbIn) ∧
    List.Forall₂ SameItem subs (written.map Prod.fst) := by
  have h₁ := List.forall₂_map_left_iff.mp (Fallible.mapM_eq_ok.mp hwritten)
  have h₂ := Fallible.mapM_eq_ok.mp hrows
  clear hwritten hrows
  induction h₁ generalizing rows with
  | nil =>
    obtain rfl := List.forall₂_nil_left_iff.mp h₂
    exact ⟨.nil, by simp, .nil⟩
  | @cons sub w subs written hw hrest ih =>
    obtain ⟨item', lines⟩ := w
    obtain ⟨taskRows, rows, hcast, hmore, rfl⟩ := List.forall₂_cons_left_iff.mp h₂
    obtain ⟨htasks, hstorable, hsame⟩ := ih hmore
    obtain ⟨hlines, hreq, hjob, huuid⟩ := itemLines_eq_ok hw
    obtain ⟨hstored, hall⟩ := lines_stored (fun task htask => List.mem_map_of_mem htask) hlines
      (Fallible.mapM_eq_ok.mp hcast)
    exact ⟨.cons hstored htasks, List.forall_mem_cons.mpr ⟨hall, hstorable⟩,
      .cons ⟨hreq, hjob, huuid⟩ hsame⟩

/-- The edges of the items become their rows. -/
theorem written_edges {lines : List (List (String × String))} {rows : List (List EdgeRow)}
    (hlines : (subs.map Submission.item).mapM
      (fun item => item.req.edges.mapM (edgeLine item)) = .ok lines)
    (hrows : lines.mapM (fun lines => lines.mapM castEdge) = .ok rows) :
    List.Forall₂ (fun sub rows =>
      List.Forall₂ (EdgeStored sub.item) sub.req.edges rows) subs rows ∧
    ∀ sub ∈ subs, ∀ edge ∈ sub.req.edges,
      edge.parentNaturalId ∈ sub.req.naturalIds ∧ edge.childNaturalId ∈ sub.req.naturalIds := by
  have h₁ := List.forall₂_map_left_iff.mp (Fallible.mapM_eq_ok.mp hlines)
  have h₂ := Fallible.mapM_eq_ok.mp hrows
  clear hlines hrows
  induction h₁ generalizing rows with
  | nil =>
    obtain rfl := List.forall₂_nil_left_iff.mp h₂
    exact ⟨.nil, by simp⟩
  | @cons sub edgeLines subs lines hw hrest ih =>
    obtain ⟨edgeRows, rows, hcast, hmore, rfl⟩ := List.forall₂_cons_left_iff.mp h₂
    obtain ⟨hedges, hlisted⟩ := ih hmore
    have hwritten := Fallible.mapM_eq_ok.mp hw
    refine ⟨.cons (edgeLines_stored hwritten (Fallible.mapM_eq_ok.mp hcast)) hedges,
      List.forall_mem_cons.mpr ⟨fun edge hedge => ?_, hlisted⟩⟩
    obtain ⟨line, -, hok⟩ := Fallible.exists_right hwritten hedge
    exact edgeLine_listed hok

/-- Without an edge in the batch its edge rows are none. -/
theorem edges_none
    (hedges : ¬ (subs.map Submission.item).any fun item => !item.req.edges.isEmpty) :
    (∀ sub ∈ subs, sub.req.edges = []) ∧
      List.Forall₂ (fun sub rows =>
        List.Forall₂ (EdgeStored sub.item) sub.req.edges rows) subs (subs.map fun _ => []) := by
  have hnone : ∀ sub ∈ subs, sub.req.edges = [] := by
    intro sub hsub
    by_contra hsome
    apply hedges
    rw [List.any_eq_true]
    refine ⟨sub.item, List.mem_map_of_mem hsub, ?_⟩
    show (!sub.req.edges.isEmpty) = true
    rw [Bool.not_eq_true', List.isEmpty_eq_false_iff]
    exact hsome
  refine ⟨hnone, ?_⟩
  rw [List.forall₂_map_right_iff, List.forall₂_same]
  intro sub hsub
  rw [hnone sub hsub]
  exact .nil

/-- **What a written batch adds**: the first job row of each new key, and all
task and edge rows. -/
theorem flush_ok (h : flushDBBatch jsonbIn nowTs (subs.map Submission.item) db =
    .ok (batch, db')) : ∃ rows : BatchRows jsonbIn subs,
      db'.jobs = db.jobs ++ Db.newJobs (db.jobs.map JobRow.idempotencyKey) rows.jobs ∧
      db'.tasks = db.tasks ++ rows.tasks.flatten ∧ db'.edges = db.edges ++ rows.edges.flatten ∧
      (∀ sub ∈ subs, Parses jsonbIn sub.req) ∧ List.Forall₂ SameItem subs batch := by
  unfold flushDBBatch at h
  by_cases hempty : subs.map Submission.item = []
  · rw [if_pos hempty] at h
    obtain ⟨rfl, rfl⟩ := Prod.mk.inj (Except.ok.inj h)
    obtain rfl := List.map_eq_nil_iff.mp hempty
    exact ⟨⟨[], [], [], .nil, .nil, .nil⟩, by simp [Db.newJobs], by simp, by simp, by simp, .nil⟩
  rw [if_neg hempty] at h
  obtain ⟨jobs, hjobs, h⟩ := Fallible.bind_eq_ok.mp h
  obtain ⟨db₁, hdb₁, h⟩ := Fallible.bind_eq_ok.mp h
  obtain ⟨written, hwritten, h⟩ := Fallible.bind_eq_ok.mp h
  obtain ⟨tasks, htasks, h⟩ := Fallible.bind_eq_ok.mp h
  obtain ⟨db₂, hdb₂, h⟩ := Fallible.bind_eq_ok.mp h
  rw [sql_eq_ok] at hjobs hdb₁ htasks hdb₂
  have hcopy := List.forall₂_map_left_iff.mp (Fallible.mapM_eq_ok.mp hjobs)
  obtain ⟨hj₁, ht₁, he₁⟩ := Db.insertJobs_ok hdb₁
  obtain ⟨hj₂, ht₂, he₂⟩ := Db.insertTasks_ok hdb₂
  obtain ⟨htaskRows, hstorable, hsame⟩ := written_rows hwritten htasks
  have hjobRows : List.Forall₂ JobStored subs jobs :=
    hcopy.imp fun _ _ hrow => (copyJob_eq_ok.mp hrow).2
  have hkeys : ∀ sub ∈ subs, nulFree sub.req.idempotencyKey = true := fun sub hsub => by
    obtain ⟨row, -, hrow⟩ := Fallible.exists_right hcopy hsub
    exact (copyJob_eq_ok.mp hrow).1
  by_cases hedges : (subs.map Submission.item).any fun item => !item.req.edges.isEmpty
  · rw [if_pos hedges] at h
    obtain ⟨lines, hlines, h⟩ := Fallible.bind_eq_ok.mp h
    obtain ⟨edges, hrows, h⟩ := Fallible.bind_eq_ok.mp h
    obtain ⟨db₃, hdb₃, h⟩ := Fallible.bind_eq_ok.mp h
    rw [sql_eq_ok] at hrows hdb₃
    obtain ⟨rfl, rfl⟩ := Prod.mk.inj (Except.ok.inj h)
    obtain ⟨hj₃, ht₃, he₃⟩ := Db.insertEdges_ok hdb₃
    obtain ⟨hedgeRows, hlisted⟩ := written_edges hlines hrows
    refine ⟨⟨jobs, tasks, edges, hjobRows, htaskRows, hedgeRows⟩, ?_, ?_, ?_, ?_, hsame⟩
    · rw [hj₃, hj₂, hj₁]
    · rw [ht₃, ht₂, ht₁]
    · rw [he₃, he₂, he₁]
    · exact fun sub hsub => ⟨hkeys sub hsub, hstorable sub hsub, hlisted sub hsub⟩
  · rw [if_neg hedges] at h
    obtain ⟨rfl, rfl⟩ := Prod.mk.inj (Except.ok.inj h)
    obtain ⟨hnone, hedgeRows⟩ := edges_none hedges
    refine ⟨⟨jobs, tasks, _, hjobRows, htaskRows, hedgeRows⟩, ?_, ?_, ?_, ?_, hsame⟩
    · rw [hj₂, hj₁]
    · rw [ht₂, ht₁]
    · rw [he₂, he₁]
      simp
    · refine fun sub hsub => ⟨hkeys sub hsub, hstorable sub hsub, fun edge hedge => ?_⟩
      rw [hnone sub hsub] at hedge
      exact absurd hedge List.not_mem_nil

/-- The lines of storable tasks are written and cast. -/
theorem written_total (nowTs : Int) (hparses : ∀ sub ∈ subs, Parses jsonbIn sub.req) :
    ∃ written tasks, (subs.map Submission.item).mapM (itemLines nowTs) = .ok written ∧
      written.mapM (fun item => item.2.mapM (castTask jsonbIn)) = .ok tasks := by
  obtain ⟨written, hwritten⟩ := Fallible.mapM_total (f := itemLines nowTs)
    (l := subs.map Submission.item) fun item hitem => by
      obtain ⟨sub, -, rfl⟩ := List.mem_map.mp hitem
      exact itemLines_total nowTs sub
  obtain ⟨tasks, htasks⟩ := Fallible.mapM_total
    (f := fun w : BatchItem × List TaskLine => w.2.mapM (castTask jsonbIn)) (l := written)
    fun w hw => Fallible.mapM_total fun line hline => by
      obtain ⟨item, hitem, hlines⟩ := Fallible.exists_left (Fallible.mapM_eq_ok.mp hwritten) hw
      obtain ⟨sub, hsub, rfl⟩ := List.mem_map.mp hitem
      have hok : itemLines nowTs sub.item = .ok (w.1, w.2) := hlines
      obtain ⟨hall, -⟩ := itemLines_eq_ok hok
      obtain ⟨task, htask, hok⟩ := Fallible.exists_left hall hline
      exact (castTask_iff (List.mem_map_of_mem htask) hok).2 ((hparses sub hsub).tasks task htask)
  exact ⟨written, tasks, hwritten, htasks⟩

/-- The lines of listed edges are written and cast. -/
theorem edges_total (hparses : ∀ sub ∈ subs, Parses jsonbIn sub.req) :
    ∃ lines edges, (subs.map Submission.item).mapM
        (fun item => item.req.edges.mapM (edgeLine item)) = .ok lines ∧
      lines.mapM (fun lines => lines.mapM castEdge) = .ok edges := by
  obtain ⟨lines, hlines⟩ := Fallible.mapM_total
    (f := fun item : BatchItem => item.req.edges.mapM (edgeLine item))
    (l := subs.map Submission.item) fun item hitem => Fallible.mapM_total fun edge hedge => by
      obtain ⟨sub, hsub, rfl⟩ := List.mem_map.mp hitem
      obtain ⟨hparent, hchild⟩ := (hparses sub hsub).edges edge hedge
      obtain ⟨line, -, hline, -⟩ := edgeLine_ok hparent hchild
      exact ⟨line, hline⟩
  obtain ⟨edges, hedges⟩ := Fallible.mapM_total
    (f := fun lines : List (String × String) => lines.mapM castEdge) (l := lines)
    fun ls hls => Fallible.mapM_total fun line hline => by
      obtain ⟨item, hitem, hok⟩ := Fallible.exists_left (Fallible.mapM_eq_ok.mp hlines) hls
      obtain ⟨sub, hsub, rfl⟩ := List.mem_map.mp hitem
      obtain ⟨edge, hedge, hwrite⟩ := Fallible.exists_left (Fallible.mapM_eq_ok.mp hok) hline
      obtain ⟨hparent, hchild⟩ := edgeLine_listed hwrite
      obtain ⟨line', row, hline', hrow, -⟩ := edgeLine_ok hparent hchild
      obtain rfl := Except.ok.inj (hwrite.symm.trans hline')
      exact ⟨row, hrow⟩
  exact ⟨lines, edges, hlines, hedges⟩

/-- **When a batch is written**, in terms of its rows: what `Parses` leaves to
decide are the constraints of the tables. -/
theorem flush_total (nowTs : Int) (hparses : ∀ sub ∈ subs, Parses jsonbIn sub.req)
    (hids : ((db.jobs.map JobRow.jobId) ++ subs.map Submission.jobId).Nodup)
    (hrows : ∀ rows : BatchRows jsonbIn subs,
      ((db.tasks ++ rows.tasks.flatten).map TaskRow.taskId).Nodup ∧
      ((db.tasks ++ rows.tasks.flatten).map fun t => (t.jobId, t.naturalId)).Nodup ∧
      (db.edges ++ rows.edges.flatten).Nodup ∧
      (∀ row ∈ rows.tasks.flatten, row.jobId ∈ (db.jobs ++
        Db.newJobs (db.jobs.map JobRow.idempotencyKey) rows.jobs).map JobRow.jobId) ∧
      ∀ row ∈ rows.edges.flatten,
        row.parentTaskId ∈ (db.tasks ++ rows.tasks.flatten).map TaskRow.taskId ∧
        row.childTaskId ∈ (db.tasks ++ rows.tasks.flatten).map TaskRow.taskId) :
    ∃ batch db', flushDBBatch jsonbIn nowTs (subs.map Submission.item) db = .ok (batch, db') := by
  unfold flushDBBatch
  by_cases hempty : subs.map Submission.item = []
  · rw [if_pos hempty]
    exact ⟨_, _, rfl⟩
  rw [if_neg hempty]
  -- the temporary table
  obtain ⟨jobs, hjobs⟩ := Fallible.mapM_total (f := copyJob) (l := subs.map Submission.item)
    fun item hitem => by
      obtain ⟨sub, hsub, rfl⟩ := List.mem_map.mp hitem
      exact ⟨⟨sub.jobId, sub.req.idempotencyKey, statePending⟩,
        copyJob_eq_ok.mpr ⟨(hparses sub hsub).key, rfl, rfl, rfl⟩⟩
  have hjobRows : List.Forall₂ JobStored subs jobs :=
    (List.forall₂_map_left_iff.mp (Fallible.mapM_eq_ok.mp hjobs)).imp
      fun _ _ hrow => (copyJob_eq_ok.mp hrow).2
  obtain ⟨written, tasks, hwritten, htasks⟩ := written_total nowTs hparses
  obtain ⟨htaskRows, -, -⟩ := written_rows hwritten htasks
  obtain ⟨lines, edges, hlines, hedges⟩ := edges_total hparses
  obtain ⟨hedgeRows, -⟩ := written_edges hlines hedges
  -- the rows go into the tables
  obtain ⟨htaskIds, hnaturalIds, hedgeNodup, hfk, hends⟩ :=
    hrows ⟨jobs, tasks, edges, hjobRows, htaskRows, hedgeRows⟩
  have hjobIds : ((db.jobs ++ jobs).map JobRow.jobId).Nodup := by
    rw [List.map_append, Fallible.map_eq_map hjobRows fun _ _ hrow => hrow.jobId]
    exact hids
  obtain ⟨db₁, hdb₁⟩ := Db.insertJobs_total hjobIds
  obtain ⟨hj₁, ht₁, he₁⟩ := Db.insertJobs_ok hdb₁
  rw [← ht₁] at htaskIds hnaturalIds
  rw [← hj₁] at hfk
  obtain ⟨db₂, hdb₂⟩ := Db.insertTasks_total htaskIds hnaturalIds hfk
  obtain ⟨-, ht₂, he₂⟩ := Db.insertTasks_ok hdb₂
  rw [← he₁, ← he₂] at hedgeNodup
  dsimp only at hends
  rw [← ht₁, ← ht₂] at hends
  obtain ⟨db₃, hdb₃⟩ := Db.insertEdges_total hedgeNodup hends
  by_cases hany : (subs.map Submission.item).any fun item => !item.req.edges.isEmpty
  · refine ⟨written.map Prod.fst, db₃, ?_⟩
    simp only [Fallible.bind_eq_ok, sql_eq_ok]
    refine ⟨jobs, hjobs, db₁, hdb₁, written, hwritten, tasks, htasks, db₂, hdb₂, ?_⟩
    rw [if_pos hany]
    simp only [Fallible.bind_eq_ok, sql_eq_ok]
    exact ⟨lines, hlines, edges, hedges, db₃, hdb₃, rfl⟩
  · refine ⟨written.map Prod.fst, db₂, ?_⟩
    simp only [Fallible.bind_eq_ok, sql_eq_ok]
    refine ⟨jobs, hjobs, db₁, hdb₁, written, hwritten, tasks, htasks, db₂, hdb₂, ?_⟩
    rw [if_neg hany]
    rfl

end Written

/-! ## Committed and absent -/

/-- The job, its tasks and its edges are in the tables. -/
structure Committed (jsonbIn : String → Option String) (sub : Submission) (db : Db) : Prop where
  job : ∃ row ∈ db.jobs, JobStored sub row
  tasks : ∀ task ∈ sub.req.tasks, ∃ row ∈ db.tasks, TaskStored jsonbIn sub.item task row
  edges : ∀ edge ∈ sub.req.edges, ∃ row ∈ db.edges, EdgeStored sub.item edge row

/-- No row belongs to the job. -/
structure NotInDb (sub : Submission) (db : Db) : Prop where
  job : ∀ row ∈ db.jobs, row.jobId ≠ sub.jobId
  tasks : ∀ row ∈ db.tasks, row.jobId ≠ sub.jobId ∧ row.taskId ∉ sub.uuids
  edges : ∀ row ∈ db.edges, row.parentTaskId ∉ sub.uuids ∧ row.childTaskId ∉ sub.uuids

/-- No row belongs to a job whose ids are fresh: the foreign keys see to it. -/
theorem FreshIds.notInDb {subs : List Submission} {db : Db} (h : FreshIds subs db)
    {sub : Submission} (hsub : sub ∈ subs) : NotInDb sub db where
  job row hrow heq := h.newJobs sub hsub (List.mem_map.mpr ⟨row, hrow, heq⟩)
  tasks row hrow := by
    refine ⟨fun heq => h.newJobs sub hsub ?_, fun hmem => ?_⟩
    · rw [← heq]
      exact db.fkTaskToJob row hrow
    · exact h.newTasks sub hsub _ hmem (List.mem_map_of_mem hrow)
  edges row hrow :=
    ⟨fun hmem => h.newTasks sub hsub _ hmem (db.fkEdgeToParent row hrow),
      fun hmem => h.newTasks sub hsub _ hmem (db.fkEdgeToChild row hrow)⟩

theorem Committed.not_notInDb {jsonbIn : String → Option String} {sub : Submission} {db : Db}
    (h : Committed jsonbIn sub db) : ¬ NotInDb sub db := by
  intro hnot
  obtain ⟨row, hrow, hstored⟩ := h.job
  exact hnot.job row hrow hstored.jobId

section Iff

variable {jsonbIn : String → Option String} {nowTs : Int} {subs : List Submission} {db db' : Db}
  {batch : List BatchItem}

/-- Which job rows a batch adds: those of the submissions with a new key. -/
theorem BatchRows.mem_newJobs (rows : BatchRows jsonbIn subs) (hfresh : FreshIds subs db)
    {before after : List Submission} {sub : Submission} (hsubs : subs = before ++ sub :: after) :
    (∃ row ∈ Db.newJobs (db.jobs.map JobRow.idempotencyKey) rows.jobs, row.jobId = sub.jobId) ↔
      sub.KeyNew before db := by
  have hnodup : (rows.jobs.map JobRow.jobId).Nodup := by
    rw [rows.jobIds]
    exact hfresh.jobs
  have hjob := rows.job
  subst hsubs
  obtain ⟨jobs₁, row, jobs₂, hrows, hbefore, hrow⟩ := Fallible.split_right hjob
  have hkeys : jobs₁.map JobRow.idempotencyKey = before.map fun s => s.req.idempotencyKey :=
    Fallible.map_eq_map hbefore fun _ _ h => h.key
  rw [hrows] at hnodup
  have hmem := Db.mem_newJobs (db.jobs.map JobRow.idempotencyKey) hnodup
  rw [hrow.key, hkeys] at hmem
  unfold Submission.KeyNew
  rw [hrows, ← hmem]
  constructor
  · rintro ⟨row', hrow', hid⟩
    -- ids are distinct, so the row with this id is the submission's
    have hin : row' ∈ jobs₁ ++ row :: jobs₂ := Db.newJobs_subset _ _ hrow'
    have heq : row' = row := List.inj_on_of_nodup_map hnodup hin (by simp)
      (hid.trans hrow.jobId.symm)
    exact heq ▸ hrow'
  · exact fun h => ⟨row, h, hrow.jobId⟩

theorem FreshIds.uuids_disjoint (hfresh : FreshIds subs db) :
    subs.Pairwise (Function.onFun List.Disjoint Submission.uuids) :=
  (List.nodup_flatMap.mp hfresh.uuids).2

/-- A submission's own ids are distinct. -/
theorem FreshIds.uuids_nodup (hfresh : FreshIds subs db) {sub : Submission} (hsub : sub ∈ subs) :
    sub.uuids.Nodup :=
  (List.nodup_flatMap.mp hfresh.uuids).1 sub hsub

theorem FreshIds.assigns (hfresh : FreshIds subs db) {sub : Submission} (hsub : sub ∈ subs) :
    Assigns sub.item.ctx sub.req :=
  commitContext_assigns sub.jobId sub.oneEach (hfresh.uuids_nodup hsub)

/-- The ids of a graph are texts of generated ids. -/
theorem Submission.mem_uuids {sub : Submission} {t : String}
    (ht : t ∈ dagIds sub.item.ctx sub.req) : ∃ u ∈ sub.uuids, t = u.text := by
  obtain ⟨n, hn, rfl⟩ := mem_dagIds.mp ht
  exact sub.uuidOf_mem hn

/-- The graphs of a batch share no id. -/
theorem FreshIds.dagIds_nodup (hfresh : FreshIds subs db)
    (hdistinct : ∀ sub ∈ subs, sub.req.naturalIds.Nodup) :
    (subs.flatMap fun sub => dagIds sub.item.ctx sub.req).Nodup := by
  rw [List.nodup_flatMap]
  constructor
  · intro sub hsub
    have hassigns := hfresh.assigns hsub
    have hmap : (sub.req.naturalIds.map sub.item.ctx.uuidOf).Nodup :=
      (hdistinct sub hsub).map_on fun n hn m hm heq => hassigns.uuidOf_inj hn hm heq
    rwa [SubmitDagRequest.naturalIds, List.map_map] at hmap
  · refine hfresh.uuids_disjoint.imp fun hdisjoint => ?_
    intro t ht ht'
    obtain ⟨u, hu, rfl⟩ := Submission.mem_uuids ht
    obtain ⟨v, hv, heq⟩ := Submission.mem_uuids ht'
    rw [Uuid.text_inj] at heq
    exact hdisjoint hu (heq ▸ hv)

/-! ### The constraints of the tables -/

/-- Every task row of a batch belongs to a task of one of its requests. -/
theorem BatchRows.taskOf (rows : BatchRows jsonbIn subs) {row : TaskRow}
    (hrow : row ∈ rows.tasks.flatten) :
    ∃ sub ∈ subs, ∃ task ∈ sub.req.tasks, TaskStored jsonbIn sub.item task row := by
  obtain ⟨rowsOf, hmem, hrow⟩ := List.mem_flatten.mp hrow
  obtain ⟨sub, hsub, htasks⟩ := Fallible.exists_left rows.task hmem
  obtain ⟨task, htask, hstored⟩ := Fallible.exists_left htasks hrow
  exact ⟨sub, hsub, task, htask, hstored⟩

theorem BatchRows.edgeOf (rows : BatchRows jsonbIn subs) {row : EdgeRow}
    (hrow : row ∈ rows.edges.flatten) :
    ∃ sub ∈ subs, ∃ edge ∈ sub.req.edges, EdgeStored sub.item edge row := by
  obtain ⟨rowsOf, hmem, hrow⟩ := List.mem_flatten.mp hrow
  obtain ⟨sub, hsub, hedges⟩ := Fallible.exists_left rows.edge hmem
  obtain ⟨edge, hedge, hstored⟩ := Fallible.exists_left hedges hrow
  exact ⟨sub, hsub, edge, hedge, hstored⟩

/-- The other way round: every listed task has its row. -/
theorem BatchRows.rowOf (rows : BatchRows jsonbIn subs) {sub : Submission} (hsub : sub ∈ subs)
    {task : PbTask} (htask : task ∈ sub.req.tasks) :
    ∃ row ∈ rows.tasks.flatten, TaskStored jsonbIn sub.item task row := by
  obtain ⟨rowsOf, hmem, htasks⟩ := Fallible.exists_right rows.task hsub
  obtain ⟨row, hrow, hstored⟩ := Fallible.exists_right htasks htask
  exact ⟨row, List.mem_flatten.mpr ⟨rowsOf, hmem, hrow⟩, hstored⟩

theorem BatchRows.edgeRowOf (rows : BatchRows jsonbIn subs) {sub : Submission} (hsub : sub ∈ subs)
    {edge : TaskEdge} (hedge : edge ∈ sub.req.edges) :
    ∃ row ∈ rows.edges.flatten, EdgeStored sub.item edge row := by
  obtain ⟨rowsOf, hmem, hedges⟩ := Fallible.exists_right rows.edge hsub
  obtain ⟨row, hrow, hstored⟩ := Fallible.exists_right hedges hedge
  exact ⟨row, List.mem_flatten.mpr ⟨rowsOf, hmem, hrow⟩, hstored⟩

/-- The id in a new row was generated for its submission. -/
theorem TaskStored.mem_uuids {sub : Submission} {task : PbTask} {row : TaskRow}
    (h : TaskStored jsonbIn sub.item task row) (htask : task ∈ sub.req.tasks) :
    row.taskId ∈ sub.uuids := by
  obtain ⟨u, hu, hid⟩ := sub.uuidOf_mem (List.mem_map_of_mem htask)
  have hrow : row.taskId = u := Uuid.text_inj.mp (h.taskId.trans hid)
  rwa [hrow]

theorem TaskStored.jobId_eq {sub : Submission} {task : PbTask} {row : TaskRow}
    (h : TaskStored jsonbIn sub.item task row) : row.jobId = sub.jobId :=
  Uuid.text_inj.mp h.jobId

/-- `task_pkey`. -/
theorem taskPkey_holds (hfresh : FreshIds subs db)
    (hdistinct : ∀ sub ∈ subs, sub.req.naturalIds.Nodup) (rows : BatchRows jsonbIn subs) :
    ((db.tasks ++ rows.tasks.flatten).map TaskRow.taskId).Nodup := by
  have hnew : (rows.tasks.flatten.map TaskRow.taskId).Nodup := by
    refine List.Nodup.of_map Uuid.text ?_
    rw [List.map_map]
    exact rows.taskIds ▸ hfresh.dagIds_nodup hdistinct
  rw [List.map_append, List.nodup_append]
  refine ⟨db.taskPkey, hnew, fun id hold id' hid' heq => ?_⟩
  obtain ⟨row, hrow, rfl⟩ := List.mem_map.mp hid'
  obtain ⟨sub, hsub, task, htask, hstored⟩ := rows.taskOf hrow
  exact hfresh.newTasks sub hsub _ (hstored.mem_uuids htask) (heq ▸ hold)

/-- `uq_job_natural_id`: old rows belong to old jobs. -/
theorem uqJobNaturalId_holds (hfresh : FreshIds subs db)
    (hdistinct : ∀ sub ∈ subs, sub.req.naturalIds.Nodup) (rows : BatchRows jsonbIn subs) :
    ((db.tasks ++ rows.tasks.flatten).map fun t => (t.jobId, t.naturalId)).Nodup := by
  rw [List.map_append, List.nodup_append]
  refine ⟨db.uqJobNaturalId, ?_, fun pair hold pair' hnew heq => ?_⟩
  · rw [rows.naturalIds, List.nodup_flatMap]
    constructor
    · intro sub hsub
      have hpairs : (sub.req.naturalIds.map fun n => (sub.jobId, n)).Nodup :=
        (hdistinct sub hsub).map fun n m h => (Prod.mk.inj h).2
      rwa [SubmitDagRequest.naturalIds, List.map_map] at hpairs
    · have hjobs : subs.Pairwise fun a b => a.jobId ≠ b.jobId := List.pairwise_map.mp hfresh.jobs
      refine hjobs.imp fun hne pair hpair hpair' => ?_
      obtain ⟨task, -, rfl⟩ := List.mem_map.mp hpair
      obtain ⟨task', -, heq⟩ := List.mem_map.mp hpair'
      exact hne (Prod.mk.inj heq).1.symm
  · obtain ⟨row, hrow, rfl⟩ := List.mem_map.mp hold
    obtain ⟨row', hrow', rfl⟩ := List.mem_map.mp hnew
    obtain ⟨sub, hsub, task, -, hstored⟩ := rows.taskOf hrow'
    have hjob := db.fkTaskToJob row hrow
    rw [(Prod.mk.inj heq).1, hstored.jobId_eq] at hjob
    exact hfresh.newJobs sub hsub hjob

/-- `task_edge_pkey`: old edges run between old tasks. -/
theorem edgePkey_holds (hfresh : FreshIds subs db) (hlisted : ∀ sub ∈ subs, sub.req.Listed)
    (rows : BatchRows jsonbIn subs) : (db.edges ++ rows.edges.flatten).Nodup := by
  rw [List.nodup_append]
  refine ⟨db.edgePkey, ?_, fun edge hold edge' hnew heq => ?_⟩
  · refine List.Nodup.of_map (fun row => (row.parentTaskId.text, row.childTaskId.text)) ?_
    rw [rows.edgeIds, List.nodup_flatMap]
    constructor
    · intro sub hsub
      have hl := hlisted sub hsub
      have hassigns := hfresh.assigns hsub
      refine hl.nodup.map_on fun e he e' he' heq => ?_
      obtain ⟨hp, hc⟩ := Prod.mk.inj heq
      have hparent := hassigns.uuidOf_inj (hl.parent e he) (hl.parent e' he') hp
      have hchild := hassigns.uuidOf_inj (hl.child e he) (hl.child e' he') hc
      cases e
      cases e'
      exact TaskEdge.mk.injEq .. ▸ ⟨hparent, hchild⟩
    · have hlistedPairs : subs.Pairwise fun a b => a ∈ subs ∧ b ∈ subs :=
        List.pairwise_of_forall_mem_list fun a ha b hb => ⟨ha, hb⟩
      refine (hfresh.uuids_disjoint.and hlistedPairs).imp ?_
      rintro a b ⟨hdisjoint, ha, hb⟩ pair hpair hpair'
      -- the parent of an edge is a task of its own request
      obtain ⟨edge, hedge, rfl⟩ := List.mem_map.mp hpair
      obtain ⟨edge', hedge', heq⟩ := List.mem_map.mp hpair'
      obtain ⟨u, hu, hid⟩ := a.uuidOf_mem ((hlisted a ha).parent edge hedge)
      obtain ⟨v, hv, hid'⟩ := b.uuidOf_mem ((hlisted b hb).parent edge' hedge')
      have huv : v = u := Uuid.text_inj.mp (hid'.symm.trans ((Prod.mk.inj heq).1.trans hid))
      exact hdisjoint hu (huv ▸ hv)
  · subst heq
    obtain ⟨sub, hsub, edge', hedge', hstored⟩ := rows.edgeOf hnew
    obtain ⟨u, hu, hid⟩ := sub.uuidOf_mem ((hlisted sub hsub).parent edge' hedge')
    have hparent : edge.parentTaskId = u := Uuid.text_inj.mp (hstored.parent.trans hid)
    refine hfresh.newTasks sub hsub u hu ?_
    rw [← hparent]
    exact db.fkEdgeToParent edge hold

/-- `fk_task_to_job`: the job of a row was added, unless its key was taken. -/
theorem fkTaskToJob_holds (hfresh : FreshIds subs db) (hkeys : KeysFree subs db)
    (rows : BatchRows jsonbIn subs) : ∀ row ∈ rows.tasks.flatten, row.jobId ∈ (db.jobs ++
      Db.newJobs (db.jobs.map JobRow.idempotencyKey) rows.jobs).map JobRow.jobId := by
  intro row hrow
  obtain ⟨sub, hsub, task, htask, hstored⟩ := rows.taskOf hrow
  obtain ⟨before, after, hsubs⟩ := List.append_of_mem hsub
  have hnew := hkeys before sub after hsubs (List.ne_nil_of_mem htask)
  obtain ⟨job, hjob, hid⟩ := (rows.mem_newJobs hfresh hsubs).mpr hnew
  rw [hstored.jobId_eq, ← hid]
  exact List.mem_map_of_mem (List.mem_append_right _ hjob)

/-- `fk_edge_to_parent` and `fk_edge_to_child`. -/
theorem fkEdge_holds (hlisted : ∀ sub ∈ subs, sub.req.Listed) (rows : BatchRows jsonbIn subs) :
    ∀ row ∈ rows.edges.flatten,
      row.parentTaskId ∈ (db.tasks ++ rows.tasks.flatten).map TaskRow.taskId ∧
      row.childTaskId ∈ (db.tasks ++ rows.tasks.flatten).map TaskRow.taskId := by
  intro row hrow
  obtain ⟨sub, hsub, edge, hedge, hstored⟩ := rows.edgeOf hrow
  -- the row of the task a natural id names
  have hend : ∀ {n : String} {id : Uuid}, n ∈ sub.req.naturalIds →
      id.text = sub.item.ctx.uuidOf n →
      id ∈ (db.tasks ++ rows.tasks.flatten).map TaskRow.taskId := by
    intro n id hn hid
    obtain ⟨task, htask, rfl⟩ := List.mem_map.mp hn
    obtain ⟨taskRow, htaskRow, htaskStored⟩ := rows.rowOf hsub htask
    have heq : taskRow.taskId = id := Uuid.text_inj.mp (htaskStored.taskId.trans hid.symm)
    rw [← heq]
    exact List.mem_map_of_mem (List.mem_append_right _ htaskRow)
  exact ⟨hend ((hlisted sub hsub).parent edge hedge) hstored.parent,
    hend ((hlisted sub hsub).child edge hedge) hstored.child⟩

/-- The rows of a written batch have distinct natural ids and edges, and every
task row has a job: the tables would not hold them otherwise. -/
theorem storable_of_written (hfresh : FreshIds subs db) (rows : BatchRows jsonbIn subs)
    (hj : db'.jobs = db.jobs ++ Db.newJobs (db.jobs.map JobRow.idempotencyKey) rows.jobs)
    (ht : db'.tasks = db.tasks ++ rows.tasks.flatten)
    (he : db'.edges = db.edges ++ rows.edges.flatten)
    (hparses : ∀ sub ∈ subs, Parses jsonbIn sub.req) :
    (∀ sub ∈ subs, sub.req.Storable jsonbIn) ∧ KeysFree subs db := by
  constructor
  · intro sub hsub
    have hp := hparses sub hsub
    refine ⟨hp.key, ?_, ⟨fun e hedge => (hp.edges e hedge).1, fun e hedge => (hp.edges e hedge).2,
      ?_⟩, hp.tasks⟩
    · have huq := db'.uqJobNaturalId
      rw [ht, List.map_append, List.nodup_append, rows.naturalIds] at huq
      have hpairs := (List.nodup_flatMap.mp huq.2.1).1 sub hsub
      refine List.Nodup.of_map (fun n => (sub.jobId, n)) ?_
      rwa [SubmitDagRequest.naturalIds, List.map_map]
    · have hpkey := db'.edgePkey
      rw [he, List.nodup_append] at hpkey
      have htexts : (rows.edges.flatten.map fun row =>
          (row.parentTaskId.text, row.childTaskId.text)).Nodup := by
        refine hpkey.2.1.map fun row row' heq => ?_
        obtain ⟨hparent, hchild⟩ := Prod.mk.inj heq
        rw [Uuid.text_inj] at hparent hchild
        cases row
        cases row'
        exact EdgeRow.mk.injEq .. ▸ ⟨hparent, hchild⟩
      rw [rows.edgeIds] at htexts
      exact List.Nodup.of_map _ ((List.nodup_flatMap.mp htexts).1 sub hsub)
  · intro before sub after hsubs htasks
    have hsub : sub ∈ subs := hsubs ▸ List.mem_append_right _ List.mem_cons_self
    obtain ⟨task, htask⟩ := List.exists_mem_of_ne_nil _ htasks
    obtain ⟨row, hrow, hstored⟩ := rows.rowOf hsub htask
    have hjob := db'.fkTaskToJob row (ht ▸ List.mem_append_right _ hrow)
    rw [hj, hstored.jobId_eq, List.map_append, List.mem_append] at hjob
    have hadded := hjob.resolve_left (hfresh.newJobs sub hsub)
    exact (rows.mem_newJobs hfresh hsubs).mp (List.mem_map.mp hadded)

/-- **A batch is written** if and only if every request can be stored and no
request with tasks repeats a key. -/
theorem flush_ok_iff (nowTs : Int) (hfresh : FreshIds subs db) :
    (∃ batch db', flushDBBatch jsonbIn nowTs (subs.map Submission.item) db = .ok (batch, db')) ↔
      (∀ sub ∈ subs, sub.req.Storable jsonbIn) ∧ KeysFree subs db := by
  constructor
  · rintro ⟨batch, db', h⟩
    obtain ⟨rows, hj, ht, he, hparses, -⟩ := flush_ok h
    exact storable_of_written hfresh rows hj ht he hparses
  · rintro ⟨hstorable, hkeys⟩
    have hdistinct : ∀ sub ∈ subs, sub.req.naturalIds.Nodup :=
      fun sub hsub => (hstorable sub hsub).distinct
    have hlisted : ∀ sub ∈ subs, sub.req.Listed := fun sub hsub => (hstorable sub hsub).listed
    refine flush_total nowTs (fun sub hsub => ?_) ?_ fun rows =>
      ⟨taskPkey_holds hfresh hdistinct rows, uqJobNaturalId_holds hfresh hdistinct rows,
        edgePkey_holds hfresh hlisted rows, fkTaskToJob_holds hfresh hkeys rows,
        fkEdge_holds hlisted rows⟩
    · have hreq := hstorable sub hsub
      exact ⟨hreq.key, hreq.tasks, fun edge hedge =>
        ⟨hreq.listed.parent edge hedge, hreq.listed.child edge hedge⟩⟩
    · rw [List.nodup_append]
      refine ⟨db.jobPkey, hfresh.jobs, fun id hid id' hid' => ?_⟩
      obtain ⟨sub, hsub, rfl⟩ := List.mem_map.mp hid'
      rintro rfl
      exact hfresh.newJobs sub hsub hid

/-- A written batch keeps what the tables held. -/
theorem flush_grows (h : flushDBBatch jsonbIn nowTs (subs.map Submission.item) db =
    .ok (batch, db')) : db.jobs ⊆ db'.jobs ∧ db.tasks ⊆ db'.tasks ∧ db.edges ⊆ db'.edges := by
  obtain ⟨rows, hj, ht, he, -⟩ := flush_ok h
  rw [hj, ht, he]
  exact ⟨List.subset_append_left _ _, List.subset_append_left _ _, List.subset_append_left _ _⟩

/-- It adds rows of its own submissions only. -/
theorem flush_rows (h : flushDBBatch jsonbIn nowTs (subs.map Submission.item) db =
    .ok (batch, db')) :
    (∀ row ∈ db'.jobs, row ∈ db.jobs ∨ ∃ sub ∈ subs, JobStored sub row) ∧
      ∀ row ∈ db'.tasks, row ∈ db.tasks ∨ ∃ sub ∈ subs, row.taskId ∈ sub.uuids := by
  obtain ⟨rows, hj, ht, -, -, -⟩ := flush_ok h
  rw [hj, ht]
  constructor
  · intro row hrow
    refine (List.mem_append.mp hrow).imp id fun hnew => ?_
    exact Fallible.exists_left rows.job (Db.newJobs_subset _ _ hnew)
  · intro row hrow
    refine (List.mem_append.mp hrow).imp id fun hnew => ?_
    obtain ⟨sub, hsub, task, htask, hstored⟩ := rows.taskOf hnew
    exact ⟨sub, hsub, hstored.mem_uuids htask⟩

/-- **Whom a written batch stores**: every submission with a new key. The
others have no tasks, and nothing of them is stored. -/
theorem flush_committed (hfresh : FreshIds subs db)
    (h : flushDBBatch jsonbIn nowTs (subs.map Submission.item) db = .ok (batch, db'))
    {before after : List Submission} {sub : Submission} (hsubs : subs = before ++ sub :: after) :
    (sub.KeyNew before db → Committed jsonbIn sub db') ∧
      (¬ sub.KeyNew before db → sub.req.tasks = [] ∧ NotInDb sub db') := by
  obtain ⟨rows, hj, ht, he, hparses, -⟩ := flush_ok h
  have hsub : sub ∈ subs := hsubs ▸ List.mem_append_right _ List.mem_cons_self
  have hkeys := (storable_of_written hfresh rows hj ht he hparses).2
  constructor
  · intro hnew
    refine ⟨?_, fun task htask => ?_, fun edge hedge => ?_⟩
    · obtain ⟨row, hrow, hid⟩ := (rows.mem_newJobs hfresh hsubs).mpr hnew
      obtain ⟨other, hother, hstored⟩ :=
        Fallible.exists_left rows.job (Db.newJobs_subset _ _ hrow)
      -- job ids are distinct, so the row is this submission's
      have heq : other = sub := List.inj_on_of_nodup_map hfresh.jobs hother hsub
        (hstored.jobId.symm.trans hid)
      exact ⟨row, hj ▸ List.mem_append_right _ hrow, heq ▸ hstored⟩
    · obtain ⟨row, hrow, hstored⟩ := rows.rowOf hsub htask
      exact ⟨row, ht ▸ List.mem_append_right _ hrow, hstored⟩
    · obtain ⟨row, hrow, hstored⟩ := rows.edgeRowOf hsub hedge
      exact ⟨row, he ▸ List.mem_append_right _ hrow, hstored⟩
  · intro hold
    have htasks : sub.req.tasks = [] := by
      by_contra hne
      exact hold (hkeys before sub after hsubs hne)
    have huuids : sub.uuids = [] := by
      have hlen := sub.oneEach
      rw [htasks] at hlen
      exact List.length_eq_zero_iff.mp hlen
    have hnone : ∀ u, u ∉ sub.uuids := fun u hu => absurd (huuids ▸ hu) List.not_mem_nil
    refine ⟨htasks, fun row hrow heq => ?_, fun row hrow => ⟨fun heq => ?_, hnone _⟩,
      fun row _ => ⟨hnone _, hnone _⟩⟩
    · -- no job row: the old ones have other ids, the key is not among the new ones
      rw [hj] at hrow
      rcases List.mem_append.mp hrow with hrow | hrow
      · exact (hfresh.notInDb hsub).job row hrow heq
      · exact hold ((rows.mem_newJobs hfresh hsubs).mp ⟨row, hrow, heq⟩)
    · rw [ht] at hrow
      rcases List.mem_append.mp hrow with hrow | hrow
      · exact ((hfresh.notInDb hsub).tasks row hrow).1 heq
      · obtain ⟨other, hother, task, htask, hstored⟩ := rows.taskOf hrow
        have hsame : other = sub := List.inj_on_of_nodup_map hfresh.jobs hother hsub
          (hstored.jobId_eq.symm.trans heq)
        rw [hsame, htasks] at htask
        exact List.not_mem_nil htask

theorem Committed.mono {sub : Submission} (hsub : Committed jsonbIn sub db)
    (hj : db.jobs ⊆ db'.jobs) (ht : db.tasks ⊆ db'.tasks) (he : db.edges ⊆ db'.edges) :
    Committed jsonbIn sub db' where
  job := by
    obtain ⟨row, hrow, hstored⟩ := hsub.job
    exact ⟨row, hj hrow, hstored⟩
  tasks task htask := by
    obtain ⟨row, hrow, hstored⟩ := hsub.tasks task htask
    exact ⟨row, ht hrow, hstored⟩
  edges edge hedge := by
    obtain ⟨row, hrow, hstored⟩ := hsub.edges edge hedge
    exact ⟨row, he hrow, hstored⟩

end Iff

end DistTaskSystem
