import DistTaskSystem.Common.Uuid
import DistTaskSystem.Library.Fallible
import Mathlib.Algebra.Group.Int.Defs
import Mathlib.Data.List.Nodup
import Mathlib.Data.List.TakeWhile

/-!
# DTS — the database schema

The three tables of `init.sql` that hold jobs, tasks and edges. A database
value carries the primary keys, unique constraints and foreign keys as fields,
and a column of a narrow integer type is a subtype, so an insertion has to
check what PostgreSQL checks and a violating table cannot be built.

The columns an insertion fixes are separated from those later statements
change (`TaskRun`): an UPDATE of the latter keeps every constraint by
construction.

The text format of `jsonb` is a parameter: `jsonbIn` is the text a value is
printed back as, where the input is accepted at all. Columns no modelled statement reads or writes
(`required`, `shard`, `client_id`, the two timestamps of `job`) are left out.
-/

namespace DistTaskSystem

/-- How PostgreSQL refuses a statement. -/
inductive SqlError where
  /-- `invalid_text_representation` -/
  | invalidText
  /-- `numeric_value_out_of_range` -/
  | outOfRange
  /-- `character_not_in_repertoire`: a NUL in a text -/
  | badCharacter
  /-- `string_data_right_truncation` -/
  | tooLong
  | uniqueViolation
  | foreignKeyViolation
deriving DecidableEq, Repr

/-! ## Column types -/

/-- `smallint`. -/
abbrev SmallInt := { v : Int // -2 ^ 15 ≤ v ∧ v < 2 ^ 15 }

/-- `integer`. -/
abbrev Int4 := { v : Int // -2 ^ 31 ≤ v ∧ v < 2 ^ 31 }

theorem smallInt_zero : -2 ^ 15 ≤ (0 : Int) ∧ (0 : Int) < 2 ^ 15 := by decide

theorem smallInt_three : -2 ^ 15 ≤ (3 : Int) ∧ (3 : Int) < 2 ^ 15 := by decide

theorem int4_zero : -2 ^ 31 ≤ (0 : Int) ∧ (0 : Int) < 2 ^ 31 := by decide

def castSmallInt (v : Int) : Except SqlError SmallInt :=
  if h : -2 ^ 15 ≤ v ∧ v < 2 ^ 15 then .ok ⟨v, h⟩ else .error .outOfRange

def castInt4 (v : Int) : Except SqlError Int4 :=
  if h : -2 ^ 31 ≤ v ∧ v < 2 ^ 31 then .ok ⟨v, h⟩ else .error .outOfRange

def castUuid (text : String) : Except SqlError Uuid :=
  match uuidIn text with
  | some uuid => .ok uuid
  | none => .error .invalidText

/-- A text without NUL. -/
def nulFree (text : String) : Bool := decide ('\x00' ∉ text.toList)

/-- A value sent through COPY: a NUL is refused. -/
def castText (text : String) : Except SqlError String :=
  if nulFree text then .ok text else .error .badCharacter

/-- A parameter of `exec_params`, which is sent up to its first NUL. -/
def paramText (text : String) : String :=
  String.ofList (text.toList.takeWhile fun c => c ≠ '\x00')

def castJsonb (jsonbIn : String → Option String) (text : String) : Except SqlError String :=
  match jsonbIn text with
  | some value => .ok value
  | none => .error .invalidText

/-- `character varying(255)`: only blanks may be cut off. -/
def castVarchar255 (text : String) : Except SqlError String :=
  if text.toList.length ≤ 255 then .ok text
  else if (text.toList.drop 255).all (· = ' ') then .ok (String.ofList (text.toList.take 255))
  else .error .tooLong

theorem paramText_eq {text : String} (h : '\x00' ∉ text.toList) : paramText text = text := by
  have htake : text.toList.takeWhile (fun c => c ≠ '\x00') = text.toList := by
    rw [List.takeWhile_eq_self_iff]
    intro c hc
    rw [decide_eq_true_eq]
    exact fun hnul => h (hnul ▸ hc)
  unfold paramText
  rw [htake, String.ofList_toList]

@[simp] theorem castUuid_text (u : Uuid) : castUuid u.text = .ok u := by
  unfold castUuid
  rw [uuidIn_text]

theorem castUuid_eq_ok {text : String} {u : Uuid} :
    castUuid text = .ok u ↔ uuidIn text = some u := by
  unfold castUuid
  split
  · next uuid huuid =>
    rw [huuid]
    exact ⟨fun h => congrArg some (Except.ok.inj h), fun h => congrArg Except.ok (Option.some.inj h)⟩
  · next huuid =>
    rw [huuid]
    exact iff_of_false (fun h => nomatch h) (fun h => nomatch h)

/-! ### State numbers -/

def statePending : SmallInt := ⟨0, by decide⟩

def stateRunning : SmallInt := ⟨1, by decide⟩

def stateSuccess : SmallInt := ⟨2, by decide⟩

def stateFailed : SmallInt := ⟨3, by decide⟩

def stateWaitingDeps : SmallInt := ⟨6, by decide⟩

/-! ## Rows -/

/-- `public.job`. -/
structure JobRow where
  jobId : Uuid
  idempotencyKey : String
  state : SmallInt
deriving DecidableEq

/-- The columns of `public.task` that change after the insertion. -/
structure TaskRun where
  state : SmallInt
  retryCount : SmallInt
  startTs : Option Int
  finishTs : Option Int
  errorMsg : Option String
  result : Option String
  workerId : Option String
deriving DecidableEq

/-- `public.task`. -/
structure TaskRow where
  taskId : Uuid
  jobId : Uuid
  naturalId : String
  funcName : String
  funcParams : Option String
  priority : SmallInt
  maxRetry : SmallInt
  timeoutMs : Int4
  pendingDependencies : Int4
  submitTs : Option Int
  run : TaskRun
deriving DecidableEq

/-- `public.task_edge`. -/
structure EdgeRow where
  parentTaskId : Uuid
  childTaskId : Uuid
deriving DecidableEq

/-! ## Tables -/

/-- The tables, with their constraints. -/
structure Db where
  jobs : List JobRow
  tasks : List TaskRow
  edges : List EdgeRow
  jobPkey : (jobs.map JobRow.jobId).Nodup
  jobIdempotencyKey : (jobs.map JobRow.idempotencyKey).Nodup
  taskPkey : (tasks.map TaskRow.taskId).Nodup
  uqJobNaturalId : (tasks.map fun t => (t.jobId, t.naturalId)).Nodup
  fkTaskToJob : ∀ t ∈ tasks, t.jobId ∈ jobs.map JobRow.jobId
  edgePkey : edges.Nodup
  fkEdgeToParent : ∀ e ∈ edges, e.parentTaskId ∈ tasks.map TaskRow.taskId
  fkEdgeToChild : ∀ e ∈ edges, e.childTaskId ∈ tasks.map TaskRow.taskId

namespace Db

/-- The tables `init.sql` creates. -/
def empty : Db where
  jobs := []
  tasks := []
  edges := []
  jobPkey := List.nodup_nil
  jobIdempotencyKey := List.nodup_nil
  taskPkey := List.nodup_nil
  uqJobNaturalId := List.nodup_nil
  fkTaskToJob := by simp
  edgePkey := List.nodup_nil
  fkEdgeToParent := by simp
  fkEdgeToChild := by simp

def task? (db : Db) (taskId : Uuid) : Option TaskRow :=
  db.tasks.find? fun t => t.taskId = taskId

private theorem nodup_snoc {α : Type} {l : List α} {x : α} (hl : l.Nodup) (hx : x ∉ l) :
    (l ++ [x]).Nodup := by
  simpa using hl.concat hx

/-- `INSERT INTO job ... ON CONFLICT (idempotency_key) DO NOTHING`, for one row. -/
def insertJob (db : Db) (row : JobRow) : Except SqlError Db :=
  if hkey : row.idempotencyKey ∈ db.jobs.map JobRow.idempotencyKey then .ok db
  else if hid : row.jobId ∈ db.jobs.map JobRow.jobId then .error .uniqueViolation
  else .ok { db with
    jobs := db.jobs ++ [row]
    jobPkey := by
      rw [List.map_append]
      exact nodup_snoc db.jobPkey hid
    jobIdempotencyKey := by
      rw [List.map_append]
      exact nodup_snoc db.jobIdempotencyKey hkey
    fkTaskToJob := fun t ht => by
      rw [List.map_append]
      exact List.mem_append_left _ (db.fkTaskToJob t ht) }

/-- One row of a COPY into `task`. -/
def insertTask (db : Db) (row : TaskRow) : Except SqlError Db :=
  if hid : row.taskId ∈ db.tasks.map TaskRow.taskId then .error .uniqueViolation
  else if huq : (row.jobId, row.naturalId) ∈ db.tasks.map fun t => (t.jobId, t.naturalId) then
    .error .uniqueViolation
  else if hjob : row.jobId ∈ db.jobs.map JobRow.jobId then
    .ok { db with
      tasks := db.tasks ++ [row]
      taskPkey := by
        rw [List.map_append]
        exact nodup_snoc db.taskPkey hid
      uqJobNaturalId := by
        rw [List.map_append]
        exact nodup_snoc db.uqJobNaturalId huq
      fkTaskToJob := fun t ht => by
        rcases List.mem_append.mp ht with ht | ht
        · exact db.fkTaskToJob t ht
        · rwa [List.mem_singleton.mp ht]
      fkEdgeToParent := fun e he => by
        rw [List.map_append]
        exact List.mem_append_left _ (db.fkEdgeToParent e he)
      fkEdgeToChild := fun e he => by
        rw [List.map_append]
        exact List.mem_append_left _ (db.fkEdgeToChild e he) }
  else .error .foreignKeyViolation

/-- One row of a COPY into `task_edge`. -/
def insertEdge (db : Db) (row : EdgeRow) : Except SqlError Db :=
  if hrow : row ∈ db.edges then .error .uniqueViolation
  else if hends : row.parentTaskId ∈ db.tasks.map TaskRow.taskId ∧
      row.childTaskId ∈ db.tasks.map TaskRow.taskId then
    .ok { db with
      edges := db.edges ++ [row]
      edgePkey := nodup_snoc db.edgePkey hrow
      fkEdgeToParent := fun e he => by
        rcases List.mem_append.mp he with he | he
        · exact db.fkEdgeToParent e he
        · rw [List.mem_singleton.mp he]
          exact hends.1
      fkEdgeToChild := fun e he => by
        rcases List.mem_append.mp he with he | he
        · exact db.fkEdgeToChild e he
        · rw [List.mem_singleton.mp he]
          exact hends.2 }
  else .error .foreignKeyViolation

/-- An UPDATE of the run columns: `f` gives the new values of the rows it
touches. -/
def updateTasks (db : Db) (f : TaskRow → TaskRun) : Db where
  jobs := db.jobs
  tasks := db.tasks.map fun t => { t with run := f t }
  edges := db.edges
  jobPkey := db.jobPkey
  jobIdempotencyKey := db.jobIdempotencyKey
  taskPkey := by simpa [Function.comp_def] using db.taskPkey
  uqJobNaturalId := by simpa [Function.comp_def] using db.uqJobNaturalId
  fkTaskToJob := by simpa using db.fkTaskToJob
  edgePkey := db.edgePkey
  fkEdgeToParent := by simpa [Function.comp_def] using db.fkEdgeToParent
  fkEdgeToChild := by simpa [Function.comp_def] using db.fkEdgeToChild

/-- An UPDATE changes the run columns of every row as told, and finds the rows
where they were. -/
theorem task?_updateTasks (db : Db) (f : TaskRow → TaskRun) (taskId : Uuid) :
    (db.updateTasks f).task? taskId = (db.task? taskId).map fun t => { t with run := f t } := by
  rw [task?, updateTasks, List.find?_map, task?]
  rfl

theorem task?_taskId {db : Db} {taskId : Uuid} {row : TaskRow} (h : db.task? taskId = some row) :
    row.taskId = taskId := by
  simpa using List.find?_some h

/-- The primary key finds every row. -/
theorem task?_of_mem {db : Db} {row : TaskRow} (h : row ∈ db.tasks) :
    db.task? row.taskId = some row := by
  obtain ⟨found, hfound⟩ := Option.isSome_iff_exists.mp
    (List.find?_isSome.mpr ⟨row, h, decide_eq_true rfl⟩ :
      (db.tasks.find? fun t => t.taskId = row.taskId).isSome)
  have hmem : found ∈ db.tasks := List.mem_of_find?_eq_some hfound
  have heq : found = row := List.inj_on_of_nodup_map db.taskPkey hmem h (task?_taskId hfound)
  rw [← heq] at hfound ⊢
  exact hfound

theorem mem_of_task? {db : Db} {taskId : Uuid} {row : TaskRow} (h : db.task? taskId = some row) :
    row ∈ db.tasks :=
  List.mem_of_find?_eq_some h

/-- Two updates give the same table exactly if they give every row the same. -/
theorem updateTasks_eq_iff {db : Db} {f g : TaskRow → TaskRun} :
    db.updateTasks f = db.updateTasks g ↔ ∀ row ∈ db.tasks, f row = g row := by
  constructor
  · intro h row hrow
    have hmap : db.tasks.map (fun t => { t with run := f t }) =
        db.tasks.map fun t => { t with run := g t } := congrArg tasks h
    exact congrArg TaskRow.run (List.map_inj_left.mp hmap row hrow)
  · intro h
    have hmap : db.tasks.map (fun t => { t with run := f t }) =
        db.tasks.map fun t => { t with run := g t } :=
      List.map_congr_left fun row hrow => by rw [h row hrow]
    simp only [updateTasks, hmap]

theorem updateTasks_updateTasks (db : Db) (f g : TaskRow → TaskRun) :
    (db.updateTasks f).updateTasks g = db.updateTasks fun t => g { t with run := f t } := by
  simp only [updateTasks, List.map_map, Function.comp_def]

theorem updateTasks_run (db : Db) : db.updateTasks TaskRow.run = db := by
  simp only [updateTasks, List.map_id']

/-! ### Loading rows

The constraints of the table after a load are its fields, so a load that
succeeded needs no lemma about them; the lemmas say which rows it added, and
when it succeeds. -/

section Load

variable {db db' : Db}

theorem insertTask_ok {row : TaskRow} (h : db.insertTask row = .ok db') :
    db'.jobs = db.jobs ∧ db'.tasks = db.tasks ++ [row] ∧ db'.edges = db.edges := by
  unfold insertTask at h
  split at h
  · exact nomatch h
  · split at h
    · exact nomatch h
    · split at h
      · obtain rfl := Except.ok.inj h
        exact ⟨rfl, rfl, rfl⟩
      · exact nomatch h

/-- A COPY into `task` adds its rows. -/
theorem insertTasks_ok {rows : List TaskRow} (h : rows.foldlM insertTask db = .ok db') :
    db'.jobs = db.jobs ∧ db'.tasks = db.tasks ++ rows ∧ db'.edges = db.edges := by
  induction rows generalizing db with
  | nil =>
    obtain rfl := Except.ok.inj h
    exact ⟨rfl, (List.append_nil _).symm, rfl⟩
  | cons row rest ih =>
    obtain ⟨db₁, hrow, hrest⟩ := Fallible.foldlM_cons_eq_ok.mp h
    obtain ⟨hj₁, ht₁, he₁⟩ := insertTask_ok hrow
    obtain ⟨hj, ht, he⟩ := ih hrest
    refine ⟨hj.trans hj₁, ?_, he.trans he₁⟩
    rw [ht, ht₁, List.append_assoc, List.singleton_append]

/-- It succeeds if the keys are new and distinct and the jobs are there. -/
theorem insertTasks_total {rows : List TaskRow}
    (hid : ((db.tasks ++ rows).map TaskRow.taskId).Nodup)
    (huq : ((db.tasks ++ rows).map fun t => (t.jobId, t.naturalId)).Nodup)
    (hjob : ∀ row ∈ rows, row.jobId ∈ db.jobs.map JobRow.jobId) :
    ∃ db', rows.foldlM insertTask db = .ok db' := by
  induction rows generalizing db with
  | nil => exact ⟨db, rfl⟩
  | cons row rest ih =>
    have hshift : db.tasks ++ row :: rest = db.tasks ++ [row] ++ rest := by simp
    have hnotId : row.taskId ∉ db.tasks.map TaskRow.taskId := by
      intro hmem
      rw [List.map_append, List.nodup_append] at hid
      exact hid.2.2 _ hmem _ (by simp) rfl
    have hnotUq : (row.jobId, row.naturalId) ∉ db.tasks.map fun t => (t.jobId, t.naturalId) := by
      intro hmem
      rw [List.map_append, List.nodup_append] at huq
      exact huq.2.2 _ hmem _ (by simp) rfl
    obtain ⟨db₁, hrow⟩ : ∃ db₁, db.insertTask row = .ok db₁ := by
      unfold insertTask
      rw [dif_neg hnotId, dif_neg hnotUq, dif_pos (hjob row List.mem_cons_self)]
      exact ⟨_, rfl⟩
    obtain ⟨hj₁, ht₁, -⟩ := insertTask_ok hrow
    rw [hshift, ← ht₁] at hid huq
    obtain ⟨db', hrest⟩ := ih hid huq fun row' hmem => by
      rw [hj₁]
      exact hjob row' (List.mem_cons_of_mem row hmem)
    exact ⟨db', Fallible.foldlM_cons_eq_ok.mpr ⟨db₁, hrow, hrest⟩⟩

theorem insertEdge_ok {row : EdgeRow} (h : db.insertEdge row = .ok db') :
    db'.jobs = db.jobs ∧ db'.tasks = db.tasks ∧ db'.edges = db.edges ++ [row] := by
  unfold insertEdge at h
  split at h
  · exact nomatch h
  · split at h
    · obtain rfl := Except.ok.inj h
      exact ⟨rfl, rfl, rfl⟩
    · exact nomatch h

/-- A COPY into `task_edge` adds its rows. -/
theorem insertEdges_ok {rows : List EdgeRow} (h : rows.foldlM insertEdge db = .ok db') :
    db'.jobs = db.jobs ∧ db'.tasks = db.tasks ∧ db'.edges = db.edges ++ rows := by
  induction rows generalizing db with
  | nil =>
    obtain rfl := Except.ok.inj h
    exact ⟨rfl, rfl, (List.append_nil _).symm⟩
  | cons row rest ih =>
    obtain ⟨db₁, hrow, hrest⟩ := Fallible.foldlM_cons_eq_ok.mp h
    obtain ⟨hj₁, ht₁, he₁⟩ := insertEdge_ok hrow
    obtain ⟨hj, ht, he⟩ := ih hrest
    refine ⟨hj.trans hj₁, ht.trans ht₁, ?_⟩
    rw [he, he₁, List.append_assoc, List.singleton_append]

/-- It succeeds if the edges are new and distinct and the tasks are there. -/
theorem insertEdges_total {rows : List EdgeRow} (hnodup : (db.edges ++ rows).Nodup)
    (hends : ∀ row ∈ rows, row.parentTaskId ∈ db.tasks.map TaskRow.taskId ∧
      row.childTaskId ∈ db.tasks.map TaskRow.taskId) :
    ∃ db', rows.foldlM insertEdge db = .ok db' := by
  induction rows generalizing db with
  | nil => exact ⟨db, rfl⟩
  | cons row rest ih =>
    have hshift : db.edges ++ row :: rest = db.edges ++ [row] ++ rest := by simp
    have hnew : row ∉ db.edges := by
      intro hmem
      rw [List.nodup_append] at hnodup
      exact hnodup.2.2 _ hmem _ (by simp) rfl
    obtain ⟨db₁, hrow⟩ : ∃ db₁, db.insertEdge row = .ok db₁ := by
      unfold insertEdge
      rw [dif_neg hnew, dif_pos (hends row List.mem_cons_self)]
      exact ⟨_, rfl⟩
    obtain ⟨-, ht₁, he₁⟩ := insertEdge_ok hrow
    rw [hshift, ← he₁] at hnodup
    obtain ⟨db', hrest⟩ := ih hnodup fun row' hmem => by
      rw [ht₁]
      exact hends row' (List.mem_cons_of_mem row hmem)
    exact ⟨db', Fallible.foldlM_cons_eq_ok.mpr ⟨db₁, hrow, hrest⟩⟩

/-- The rows of `INSERT ... ON CONFLICT DO NOTHING` that find their key free:
the first one of each new key. -/
def newJobs (taken : List String) : List JobRow → List JobRow
  | [] => []
  | row :: rest =>
    if row.idempotencyKey ∈ taken then newJobs taken rest
    else row :: newJobs (taken ++ [row.idempotencyKey]) rest

theorem newJobs_subset (taken : List String) (rows : List JobRow) : newJobs taken rows ⊆ rows := by
  induction rows generalizing taken with
  | nil => exact fun _ h => h
  | cons r rest ih =>
    rw [newJobs]
    split
    · exact fun x hx => List.mem_cons_of_mem r (ih _ hx)
    · exact List.cons_subset_cons r (ih _)

/-- Which row of a key is the first. -/
theorem mem_newJobs (taken : List String) {before after : List JobRow} {row : JobRow}
    (hnodup : ((before ++ row :: after).map JobRow.jobId).Nodup) :
    row ∈ newJobs taken (before ++ row :: after) ↔
      row.idempotencyKey ∉ taken ∧ row.idempotencyKey ∉ before.map JobRow.idempotencyKey := by
  induction before generalizing taken with
  | nil =>
    rw [List.nil_append, newJobs]
    by_cases htaken : row.idempotencyKey ∈ taken
    · rw [if_pos htaken]
      -- the row itself is not in the tail: its id is taken
      have hnot : row ∉ newJobs taken after := by
        intro hmem
        rw [List.nil_append, List.map_cons, List.nodup_cons] at hnodup
        exact hnodup.1 (List.mem_map_of_mem (newJobs_subset _ _ hmem))
      simp [htaken, hnot]
    · rw [if_neg htaken]
      simp [htaken]
  | cons first rest ih =>
    rw [List.cons_append, List.map_cons, List.nodup_cons] at hnodup
    have hne : row ≠ first := by
      rintro rfl
      exact hnodup.1 (by simp)
    rw [List.cons_append, newJobs]
    by_cases htaken : first.idempotencyKey ∈ taken
    · have hrest := ih taken hnodup.2
      rw [if_pos htaken]
      refine hrest.trans ⟨?_, ?_⟩
      · rintro ⟨h, h'⟩
        refine ⟨h, ?_⟩
        rw [List.map_cons, List.mem_cons, not_or]
        exact ⟨fun heq => h (heq ▸ htaken), h'⟩
      · rintro ⟨h, h'⟩
        rw [List.map_cons, List.mem_cons, not_or] at h'
        exact ⟨h, h'.2⟩
    · have hrest := ih (taken ++ [first.idempotencyKey]) hnodup.2
      rw [if_neg htaken, List.mem_cons, or_iff_right hne]
      refine hrest.trans ?_
      simp only [List.mem_append, List.map_cons, List.mem_cons, List.not_mem_nil, or_false, not_or]
      exact and_assoc

/-- The statement adds the first row of each new key. -/
theorem insertJobs_ok {rows : List JobRow} (h : rows.foldlM insertJob db = .ok db') :
    db'.jobs = db.jobs ++ newJobs (db.jobs.map JobRow.idempotencyKey) rows ∧
      db'.tasks = db.tasks ∧ db'.edges = db.edges := by
  induction rows generalizing db with
  | nil =>
    obtain rfl := Except.ok.inj h
    exact ⟨(List.append_nil _).symm, rfl, rfl⟩
  | cons row rest ih =>
    obtain ⟨db₁, hrow, hrest⟩ := Fallible.foldlM_cons_eq_ok.mp h
    obtain ⟨hj, ht, he⟩ := ih hrest
    unfold insertJob at hrow
    rw [newJobs]
    split at hrow
    · next htaken =>
      obtain rfl := Except.ok.inj hrow
      rw [if_pos htaken]
      exact ⟨hj, ht, he⟩
    · next htaken =>
      split at hrow
      · exact nomatch hrow
      · obtain rfl := Except.ok.inj hrow
        rw [if_neg htaken]
        refine ⟨?_, ht, he⟩
        rw [hj]
        simp [List.map_append]

/-- It succeeds if the ids are new and distinct, whatever the keys are. -/
theorem insertJobs_total {rows : List JobRow}
    (hid : ((db.jobs ++ rows).map JobRow.jobId).Nodup) :
    ∃ db', rows.foldlM insertJob db = .ok db' := by
  induction rows generalizing db with
  | nil => exact ⟨db, rfl⟩
  | cons row rest ih =>
    by_cases htaken : row.idempotencyKey ∈ db.jobs.map JobRow.idempotencyKey
    · have hrow : db.insertJob row = .ok db := by
        unfold insertJob
        rw [dif_pos htaken]
      have hrestId : ((db.jobs ++ rest).map JobRow.jobId).Nodup := by
        refine hid.sublist (List.Sublist.map _ ?_)
        exact (List.Sublist.refl _).append (List.sublist_cons_self row rest)
      obtain ⟨db', hrest⟩ := ih hrestId
      exact ⟨db', Fallible.foldlM_cons_eq_ok.mpr ⟨db, hrow, hrest⟩⟩
    · have hnew : row.jobId ∉ db.jobs.map JobRow.jobId := by
        intro hmem
        rw [List.map_append, List.nodup_append] at hid
        exact hid.2.2 _ hmem _ (by simp) rfl
      obtain ⟨db₁, hrow, hj₁⟩ : ∃ db₁, db.insertJob row = .ok db₁ ∧
          db₁.jobs = db.jobs ++ [row] := by
        unfold insertJob
        rw [dif_neg htaken, dif_neg hnew]
        exact ⟨_, rfl, rfl⟩
      have hshift : db.jobs ++ row :: rest = db.jobs ++ [row] ++ rest := by simp
      rw [hshift, ← hj₁] at hid
      obtain ⟨db', hrest⟩ := ih hid
      exact ⟨db', Fallible.foldlM_cons_eq_ok.mpr ⟨db₁, hrow, hrest⟩⟩

end Load

end Db

/-! ## Transactions -/

/-- What the infrastructure does to a transaction whose statements all
succeed. -/
inductive TxOutcome where
  | committed
  /-- an exception before the logic is done: nothing is kept -/
  | notRun
  /-- an exception at the commit, and nothing is kept -/
  | rolledBack
  /-- the connection broke during the commit: the exception is thrown although
  the server kept the changes -/
  | inDoubt
deriving DecidableEq, Repr

/-- The end of an `ExecuteTx` call. -/
structure TxResult (α : Type) where
  /-- what the logic stored in the caller's variables, if it was done -/
  assigned : Option α
  /-- an exception leaves the call -/
  thrown : Bool
  db : Db

/-- What the logic computed, if the call returns. -/
def TxResult.returned {α : Type} (result : TxResult α) : Option α :=
  if result.thrown then none else result.assigned

/-- `DatabasePool::ExecuteTx`. -/
def executeTx {α ε : Type} (outcome : TxOutcome) (logic : Db → Except ε (α × Db)) (db : Db) :
    TxResult α :=
  match logic db, outcome with
  | .ok (a, db'), .committed => ⟨some a, false, db'⟩
  | .ok (a, db'), .inDoubt => ⟨some a, true, db'⟩
  | .ok (a, _), .rolledBack => ⟨some a, true, db⟩
  | .ok _, .notRun => ⟨none, true, db⟩
  | .error _, _ => ⟨none, true, db⟩

/-- The server kept the changes. -/
def TxOutcome.kept (outcome : TxOutcome) : Bool :=
  outcome = .committed || outcome = .inDoubt

section ExecuteTx

variable {α ε : Type} {logic : Db → Except ε (α × Db)} {db db' : Db} {a : α}

theorem executeTx_db (h : logic db = .ok (a, db')) (outcome : TxOutcome) :
    (executeTx outcome logic db).db = if outcome.kept then db' else db := by
  cases outcome <;> simp [executeTx, h, TxOutcome.kept]

theorem executeTx_returned (h : logic db = .ok (a, db')) (outcome : TxOutcome) :
    (executeTx outcome logic db).returned = if outcome = .committed then some a else none := by
  cases outcome <;> simp [executeTx, h, TxResult.returned]

/-- A logic that throws leaves nothing behind. -/
theorem executeTx_error {e : ε} (h : logic db = .error e) (outcome : TxOutcome) :
    executeTx outcome logic db = ⟨none, true, db⟩ := by
  cases outcome <;> simp [executeTx, h]

end ExecuteTx

end DistTaskSystem
