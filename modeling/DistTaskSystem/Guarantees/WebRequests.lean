import DistTaskSystem.ApiWeb.HandleDagSubmit
import DistTaskSystem.Library.Fallible

/-!
# DTS — what the web api forwards

Reading and building go hand in hand in `handle_dag_submit`. Here a document is first
read as a whole, and then asked whether it is a DAG; both come to the same request. What
differs is the answer to a document with several faults, which depends on the first of
them: an unreadable task is a 400, but an unknown parent or a cycle a 503, as if the
transport had failed.

## Results

* `web_forwards_iff` — the documents that are forwarded, and the request they make.
* `web_status_iff`   — the status of an answer, and when there is none.
-/

namespace DistTaskSystem

open Fallible

-- ---------------------------------------------------------------------------
-- Documents
-- ---------------------------------------------------------------------------

/-- What a posted document says. -/
structure SubmitDoc where
  idempotencyKey : String
  tasks : List Task
  edges : List TaskEdge

namespace JsonLibrary

variable (lib : JsonLibrary)

/-- A task of a document. -/
def readTask (jTask : Json) : Except JsonFault Task := do
  let naturalId ← (jTask.at "natural_id").bind Json.getString
  let funcName ← (jTask.at "func_name").bind Json.getString
  let funcParams ← jTask.value "func_params" .ok .null
  let edit ← lib.parseJsonToTask jTask
  return edit { naturalId := naturalId, funcName := funcName, funcParams := funcParams }

/-- An edge of a document. -/
def readEdge (jEdge : Json) : Except JsonFault TaskEdge := do
  let parent ← (jEdge.at "parent").bind Json.getString
  let child ← (jEdge.at "child").bind Json.getString
  return ⟨parent, child⟩

/-- A document, read before anything is built. -/
def readDoc (body : ByteArray) : Except JsonFault SubmitDoc := do
  let jBody ← lib.parse body
  let idempotencyKey ← (jBody.at "idempotency_key").bind Json.getString
  let jTasks ← jBody.at "tasks"
  let jEdges ← jBody.value "edges" .ok (.array [])
  let tasks ← jTasks.elements.mapM lib.readTask
  let edges ← jEdges.elements.mapM readEdge
  return ⟨idempotencyKey, tasks, edges⟩

end JsonLibrary

namespace SubmitDoc

variable (doc : SubmitDoc)

def naturalIds : List String := doc.tasks.map Task.naturalId

/-- The document describes a DAG, under a key. -/
structure Valid : Prop where
  key : doc.idempotencyKey ≠ ""
  distinct : doc.naturalIds.Nodup
  parent : ∀ edge ∈ doc.edges, edge.parentNaturalId ∈ doc.naturalIds
  child : ∀ edge ∈ doc.edges, edge.childNaturalId ∈ doc.naturalIds
  acyclic : ∀ x, ¬ Relation.TransGen (fun p c => (⟨p, c⟩ : TaskEdge) ∈ doc.edges) x x
  /-- protobuf can hold the edges -/
  fits : doc.edges.length < 2 ^ 31

/-- The request made of the document: its tasks in the order of their ids, its edges as
they stand. -/
structure Makes (dump : Json → String) (req : SubmitDagRequest) : Prop where
  key : req.idempotencyKey = doc.idempotencyKey
  tasks : req.tasks.Perm (doc.tasks.map (taskToProto dump))
  sorted : req.naturalIds.Pairwise (· < ·)
  edges : req.edges = doc.edges
  client : req.clientId = ""

end SubmitDoc

-- ---------------------------------------------------------------------------
-- Adding what was read
-- ---------------------------------------------------------------------------

section Edit

variable {key : String} {task : Task} {l : List (String × Task)} (edit : Task → Task)

/-- An assignment to the task of another key. -/
theorem map_edit_of_notMem (hkey : key ∉ l.map Prod.fst) :
    l.map (fun entry => if entry.1 = key then (entry.1, edit entry.2) else entry) = l := by
  refine (List.map_congr_left fun entry hentry => ?_).trans (List.map_id l)
  refine if_neg ?_
  rintro rfl
  exact hkey (List.mem_map_of_mem hentry)

/-- An assignment to the task that was added. -/
theorem mapEmplace_edit (hkey : key ∉ l.map Prod.fst) :
    (mapEmplace key task l).map (fun entry =>
      if entry.1 = key then (entry.1, edit entry.2) else entry) =
      mapEmplace key (edit task) l := by
  induction l with
  | nil => simp [mapEmplace]
  | cons first rest ih =>
    have hfirst : first.1 ≠ key := fun heq => hkey (List.mem_cons.mpr (.inl heq.symm))
    have hrest : key ∉ rest.map Prod.fst := fun hmem => hkey (List.mem_cons_of_mem _ hmem)
    rw [mapEmplace, mapEmplace]
    split
    · rw [List.map_cons, if_pos rfl, map_edit_of_notMem edit hkey]
    · rw [List.map_cons, if_neg hfirst, ih hrest]

theorem perm_mapEmplace : (mapEmplace key task l).Perm ((key, task) :: l) := by
  induction l with
  | nil => exact .refl _
  | cons first rest ih =>
    rw [mapEmplace]
    split
    · exact .refl _
    · exact (ih.cons first).trans (.swap _ _ rest)

end Edit

namespace DagBuilder

variable {b b' : DagBuilder} {task : Task}

theorem ext_fields (hkey : b.idempotencyKey = b'.idempotencyKey) (htasks : b.tasksMap = b'.tasksMap)
    (hedges : b.taskEdges = b'.taskEdges) : b = b' := by
  cases b
  cases b'
  subst hkey htasks hedges
  rfl

/-- A task is added as a whole. -/
def insertTask (b : DagBuilder) (task : Task) : Except BuilderError DagBuilder :=
  (b.addTask task.naturalId "" .null).map fun b => b.editTask task.naturalId fun _ => task

theorem addTask_eq_ok {naturalId funcName : String} {funcParams : Json} :
    b.addTask naturalId funcName funcParams = .ok b' ↔ naturalId ∉ b.keys ∧
      b'.idempotencyKey = b.idempotencyKey ∧ b'.taskEdges = b.taskEdges ∧
      b'.tasksMap = mapEmplace naturalId
        { naturalId := naturalId, funcName := funcName, funcParams := funcParams } b.tasksMap := by
  unfold addTask
  split
  · next hmem => exact iff_of_false nofun fun h => h.1 hmem
  · next hnot =>
    constructor
    · intro h
      obtain rfl := Except.ok.inj h
      exact ⟨hnot, rfl, rfl, rfl⟩
    · rintro ⟨-, hkey, hedges, htasks⟩
      exact congrArg Except.ok (ext_fields hkey.symm htasks.symm hedges.symm)

theorem addTask_total {naturalId : String} (funcName : String) (funcParams : Json)
    (h : naturalId ∉ b.keys) : ∃ m, b.addTask naturalId funcName funcParams = .ok m :=
  ⟨_, dif_neg h⟩

/-- It makes no difference whether a task is filled in before or after it is added. -/
theorem addTask_editTask {naturalId funcName : String} {funcParams : Json} (edit : Task → Task) :
    (∃ m, b.addTask naturalId funcName funcParams = .ok m ∧ m.editTask naturalId edit = b') ↔
      naturalId ∉ b.keys ∧ b'.idempotencyKey = b.idempotencyKey ∧ b'.taskEdges = b.taskEdges ∧
      b'.tasksMap = mapEmplace naturalId (edit
        { naturalId := naturalId, funcName := funcName, funcParams := funcParams })
        b.tasksMap := by
  constructor
  · rintro ⟨m, hm, rfl⟩
    obtain ⟨hnot, hkey, hedges, htasks⟩ := addTask_eq_ok.mp hm
    refine ⟨hnot, hkey, hedges, ?_⟩
    rw [← mapEmplace_edit edit hnot, ← htasks]
    rfl
  · rintro ⟨hnot, hkey, hedges, htasks⟩
    obtain ⟨m, hm⟩ := addTask_total funcName funcParams hnot
    obtain ⟨-, hkey', hedges', htasks'⟩ := addTask_eq_ok.mp hm
    refine ⟨m, hm, ext_fields (hkey'.trans hkey.symm) ?_ (hedges'.trans hedges.symm)⟩
    rw [htasks, ← mapEmplace_edit edit hnot, ← htasks']
    rfl

theorem insertTask_eq_ok : b.insertTask task = .ok b' ↔ task.naturalId ∉ b.keys ∧
    b'.idempotencyKey = b.idempotencyKey ∧ b'.taskEdges = b.taskEdges ∧
    b'.tasksMap = mapEmplace task.naturalId task b.tasksMap :=
  map_eq_ok.trans (addTask_editTask fun _ => task)

theorem addDependency_eq_ok {parent child : String} :
    b.addDependency parent child = .ok b' ↔ parent ≠ child ∧ parent ∈ b.keys ∧ child ∈ b.keys ∧
      b'.idempotencyKey = b.idempotencyKey ∧ b'.tasksMap = b.tasksMap ∧
      b'.taskEdges = b.taskEdges ++ [⟨parent, child⟩] := by
  unfold addDependency
  split
  · next hloop => exact iff_of_false nofun fun h => h.1 hloop
  · next hloop =>
    split
    · next hparent =>
      split
      · next hchild =>
        constructor
        · intro h
          obtain rfl := Except.ok.inj h
          exact ⟨hloop, hparent, hchild, rfl, rfl, rfl⟩
        · rintro ⟨-, -, -, hkey, htasks, hedges⟩
          exact congrArg Except.ok (ext_fields hkey.symm htasks.symm hedges.symm)
      · next hchild => exact iff_of_false nofun fun h => hchild h.2.2.1
    · next hparent => exact iff_of_false nofun fun h => hparent h.2.1

theorem addDependency_total {parent child : String} (hloop : parent ≠ child)
    (hparent : parent ∈ b.keys) (hchild : child ∈ b.keys) :
    ∃ m, b.addDependency parent child = .ok m :=
  ⟨_, (dif_neg hloop).trans ((dif_pos hparent).trans (dif_pos hchild))⟩

/-- The map has its tasks in one order only. -/
theorem tasksMap_eq_of_perm (h : b.tasksMap.Perm b'.tasksMap) : b.tasksMap = b'.tasksMap := by
  have hsorted := List.pairwise_map.mp b.sorted
  have hsorted' := List.pairwise_map.mp b'.sorted
  exact h.eq_of_pairwise (fun a c _ _ hlt hgt => absurd (hlt.trans hgt) (lt_irrefl _)) hsorted
    hsorted'

/-- What the loop over the tasks leaves. -/
structure Filled (b : DagBuilder) (tasks : List Task) (b' : DagBuilder) : Prop where
  key : b'.idempotencyKey = b.idempotencyKey
  edges : b'.taskEdges = b.taskEdges
  tasks : b'.tasksMap.Perm (tasks.map (fun task => (task.naturalId, task)) ++ b.tasksMap)

theorem Filled.keys {tasks : List Task} (h : Filled b tasks b') (k : String) :
    k ∈ b'.keys ↔ k ∈ tasks.map Task.naturalId ∨ k ∈ b.keys := by
  have hkeys := (h.tasks.map Prod.fst).mem_iff (a := k)
  rw [List.map_append, List.map_map, List.mem_append] at hkeys
  exact hkeys

/-- A builder is filled in one way. -/
theorem Filled.unique {tasks : List Task} {b'' : DagBuilder} (h : Filled b tasks b')
    (h' : Filled b tasks b'') : b' = b'' :=
  ext_fields (h.key.trans h'.key.symm) (tasksMap_eq_of_perm (h.tasks.trans h'.tasks.symm))
    (h.edges.trans h'.edges.symm)

theorem filled_of_insertTasks {tasks : List Task} (h : tasks.foldlM insertTask b = .ok b') :
    (tasks.map Task.naturalId).Nodup ∧ (∀ task ∈ tasks, task.naturalId ∉ b.keys) ∧
      Filled b tasks b' := by
  induction tasks generalizing b with
  | nil =>
    obtain rfl : b = b' := Except.ok.inj h
    exact ⟨List.nodup_nil, nofun, rfl, rfl, .refl _⟩
  | cons task rest ih =>
    obtain ⟨m, hm, hrest⟩ := foldlM_cons_eq_ok.mp h
    obtain ⟨hnot, hkey, hedges, htasks⟩ := insertTask_eq_ok.mp hm
    have hfirst : Filled b [task] m := ⟨hkey, hedges, htasks ▸ perm_mapEmplace⟩
    obtain ⟨hdistinct, hnew, hfilled⟩ := ih hrest
    have hothers : ∀ other ∈ rest, other.naturalId ≠ task.naturalId ∧ other.naturalId ∉ b.keys := by
      intro other hother
      have hnotin := hnew other hother
      rw [hfirst.keys, not_or] at hnotin
      exact ⟨fun heq => hnotin.1 (List.mem_singleton.mpr heq), hnotin.2⟩
    refine ⟨?_, ?_, hfilled.key.trans hkey, hfilled.edges.trans hedges, ?_⟩
    · rw [List.map_cons, List.nodup_cons]
      refine ⟨fun hmem => ?_, hdistinct⟩
      obtain ⟨other, hother, heq⟩ := List.mem_map.mp hmem
      exact (hothers other hother).1 heq
    · rw [List.forall_mem_cons]
      exact ⟨hnot, fun other hother => (hothers other hother).2⟩
    · refine hfilled.tasks.trans ((hfirst.tasks.append_left _).trans ?_)
      exact List.perm_middle

theorem insertTasks_total {tasks : List Task} (hdistinct : (tasks.map Task.naturalId).Nodup)
    (hnew : ∀ task ∈ tasks, task.naturalId ∉ b.keys) :
    ∃ b', tasks.foldlM insertTask b = .ok b' := by
  induction tasks generalizing b with
  | nil => exact ⟨b, rfl⟩
  | cons task rest ih =>
    obtain ⟨hnot, hnew⟩ := List.forall_mem_cons.mp hnew
    rw [List.map_cons, List.nodup_cons] at hdistinct
    obtain ⟨m, hm⟩ : ∃ m, b.insertTask task = .ok m := by
      obtain ⟨m, hm⟩ := addTask_total "" .null hnot
      exact ⟨_, map_eq_ok.mpr ⟨m, hm, rfl⟩⟩
    obtain ⟨-, hkey, hedges, htasks⟩ := insertTask_eq_ok.mp hm
    have hfirst : Filled b [task] m := ⟨hkey, hedges, htasks ▸ perm_mapEmplace⟩
    obtain ⟨b', hb'⟩ : ∃ b', rest.foldlM insertTask m = .ok b' := by
      refine ih hdistinct.2 fun other hother => ?_
      rw [hfirst.keys, not_or]
      refine ⟨fun hmem => hdistinct.1 ?_, hnew other hother⟩
      rw [← List.mem_singleton.mp hmem]
      exact List.mem_map_of_mem hother
    exact ⟨b', foldlM_cons_eq_ok.mpr ⟨m, hm, hb'⟩⟩

theorem linked_of_addDependencies {edges : List TaskEdge}
    (h : edges.foldlM (fun b edge => b.addDependency edge.parentNaturalId edge.childNaturalId) b =
      .ok b') : (∀ edge ∈ edges, edge.parentNaturalId ∈ b.keys ∧ edge.childNaturalId ∈ b.keys) ∧
      b'.idempotencyKey = b.idempotencyKey ∧ b'.tasksMap = b.tasksMap ∧
      b'.taskEdges = b.taskEdges ++ edges := by
  induction edges generalizing b with
  | nil =>
    obtain rfl : b = b' := Except.ok.inj h
    exact ⟨nofun, rfl, rfl, (List.append_nil _).symm⟩
  | cons edge rest ih =>
    obtain ⟨m, hm, hrest⟩ := foldlM_cons_eq_ok.mp h
    obtain ⟨-, hparent, hchild, hkey, htasks, hedges⟩ := addDependency_eq_ok.mp hm
    obtain ⟨hlisted, hkey', htasks', hedges'⟩ := ih hrest
    have hkeys : m.keys = b.keys := congrArg (List.map Prod.fst) htasks
    rw [hkeys] at hlisted
    rw [hedges, List.append_assoc] at hedges'
    refine ⟨?_, hkey'.trans hkey, htasks'.trans htasks, hedges'⟩
    rw [List.forall_mem_cons]
    exact ⟨⟨hparent, hchild⟩, hlisted⟩

theorem addDependencies_total {edges : List TaskEdge}
    (h : ∀ edge ∈ edges, edge.parentNaturalId ≠ edge.childNaturalId ∧
      edge.parentNaturalId ∈ b.keys ∧ edge.childNaturalId ∈ b.keys) :
    ∃ b', edges.foldlM (fun b edge => b.addDependency edge.parentNaturalId edge.childNaturalId) b =
      .ok b' := by
  induction edges generalizing b with
  | nil => exact ⟨b, rfl⟩
  | cons edge rest ih =>
    obtain ⟨⟨hloop, hparent, hchild⟩, hrest⟩ := List.forall_mem_cons.mp h
    obtain ⟨m, hm⟩ := addDependency_total hloop hparent hchild
    obtain ⟨-, -, -, -, htasks, -⟩ := addDependency_eq_ok.mp hm
    have hkeys : m.keys = b.keys := congrArg (List.map Prod.fst) htasks
    obtain ⟨b', hb'⟩ := ih (b := m) (by rwa [hkeys])
    exact ⟨b', foldlM_cons_eq_ok.mpr ⟨m, hm, hb'⟩⟩

theorem new_eq_ok {key : String} : DagBuilder.new key = .ok b ↔
    key ≠ "" ∧ b.idempotencyKey = key ∧ b.tasksMap = [] ∧ b.taskEdges = [] := by
  unfold DagBuilder.new
  split
  · next hempty => exact iff_of_false nofun fun h => h.1 hempty
  · next hkey =>
    constructor
    · intro h
      obtain rfl := Except.ok.inj h
      exact ⟨hkey, rfl, rfl, rfl⟩
    · rintro ⟨-, hkey, htasks, hedges⟩
      exact congrArg Except.ok (ext_fields hkey.symm htasks.symm hedges.symm)

/-- The edges of the builder, as the search sees them. -/
theorem validateCycle_acyclic : b.validateCycle = .ok () ↔
    ∀ x, ¬ Relation.TransGen (fun p c => (⟨p, c⟩ : TaskEdge) ∈ b.taskEdges) x x := by
  have hedge : Dfs.Edge b.adj = fun p c => (⟨p, c⟩ : TaskEdge) ∈ b.taskEdges :=
    funext fun p => funext fun c => propext mem_adj
  rw [validateCycle_ok_iff, hedge]

theorem buildProto_client {dump : Json → String} {req : SubmitDagRequest}
    (h : b.buildProto dump = .ok req) : req.clientId = "" := by
  rw [buildProto] at h
  obtain ⟨_, -, h⟩ := bind_eq_ok.mp h
  split at h
  · exact (Except.ok.inj h) ▸ rfl
  · cases h

theorem buildProto_total (dump : Json → String) (hvalid : b.validateCycle = .ok ())
    (hfits : b.taskEdges.length < 2 ^ 31) : ∃ req, b.buildProto dump = .ok req := by
  rw [buildProto]
  exact ⟨_, bind_eq_ok.mpr ⟨(), hvalid, dif_pos hfits⟩⟩

end DagBuilder

-- ---------------------------------------------------------------------------
-- Reading
-- ---------------------------------------------------------------------------

namespace JsonLibrary

variable {lib : JsonLibrary} {b b' : DagBuilder} {j : Json}

/-- `ParseJsonToTask` leaves the id of a task alone. -/
theorem parseJsonToTask_naturalId {edit : Task → Task} (h : lib.parseJsonToTask j = .ok edit)
    (task : Task) : (edit task).naturalId = task.naturalId := by
  simp only [parseJsonToTask, bind_eq_ok] at h
  obtain ⟨priority, -, timeoutMs, -, maxRetry, -, required, -, shard, -, h⟩ := h
  obtain rfl := Except.ok.inj h
  rfl

/-- A round of the loop over the tasks adds what it reads. -/
theorem addJsonTask_eq_ok : lib.addJsonTask b j = .ok b' ↔
    ∃ task, lib.readTask j = .ok task ∧ b.insertTask task = .ok b' := by
  simp only [addJsonTask, readTask, bind_eq_ok, fromJson, fromBuilder, mapError_eq_ok]
  constructor
  · rintro ⟨naturalId, hid, funcName, hname, funcParams, hparams, m, hm, edit, hedit, h⟩
    refine ⟨_, ⟨naturalId, hid, funcName, hname, funcParams, hparams, edit, hedit, rfl⟩, ?_⟩
    rw [DagBuilder.insertTask_eq_ok, parseJsonToTask_naturalId hedit]
    exact (DagBuilder.addTask_editTask edit).mp ⟨m, hm, Except.ok.inj h⟩
  · rintro ⟨task, ⟨naturalId, hid, funcName, hname, funcParams, hparams, edit, hedit, htask⟩, h⟩
    obtain rfl := Except.ok.inj htask
    rw [DagBuilder.insertTask_eq_ok, parseJsonToTask_naturalId hedit] at h
    obtain ⟨m, hm, rfl⟩ := (DagBuilder.addTask_editTask edit).mpr h
    exact ⟨naturalId, hid, funcName, hname, funcParams, hparams, m, hm, edit, hedit, rfl⟩

theorem addJsonEdge_eq_ok : addJsonEdge b j = .ok b' ↔ ∃ edge, readEdge j = .ok edge ∧
    b.addDependency edge.parentNaturalId edge.childNaturalId = .ok b' := by
  simp only [addJsonEdge, readEdge, bind_eq_ok, fromJson, fromBuilder, mapError_eq_ok]
  constructor
  · rintro ⟨parent, hparent, child, hchild, h⟩
    exact ⟨⟨parent, child⟩, ⟨parent, hparent, child, hchild, rfl⟩, h⟩
  · rintro ⟨edge, ⟨parent, hparent, child, hchild, hedge⟩, h⟩
    obtain rfl := Except.ok.inj hedge
    exact ⟨parent, hparent, child, hchild, h⟩

end JsonLibrary

-- ---------------------------------------------------------------------------
-- What is forwarded
-- ---------------------------------------------------------------------------

namespace SubmitDoc

variable {doc : SubmitDoc} {dump : Json → String} {req req' : SubmitDagRequest}

/-- What the handler builds of a document once it is read. -/
def build (doc : SubmitDoc) (dump : Json → String) : Except BuilderError SubmitDagRequest := do
  let builder ← DagBuilder.new doc.idempotencyKey
  let builder ← doc.tasks.foldlM DagBuilder.insertTask builder
  let builder ← doc.edges.foldlM
    (fun b edge => b.addDependency edge.parentNaturalId edge.childNaturalId) builder
  builder.buildProto dump

/-- A document makes one request. -/
theorem Makes.unique (h : doc.Makes dump req) (h' : doc.Makes dump req') : req = req' := by
  have htasks : req.tasks = req'.tasks := by
    have hsorted := List.pairwise_map.mp h.sorted
    have hsorted' := List.pairwise_map.mp h'.sorted
    exact (h.tasks.trans h'.tasks.symm).eq_of_pairwise
      (fun a c _ _ hlt hgt => absurd (hlt.trans hgt) (lt_irrefl _)) hsorted hsorted'
  have hkey := h.key.trans h'.key.symm
  have hedges := h.edges.trans h'.edges.symm
  have hclient := h.client.trans h'.client.symm
  cases req
  cases req'
  dsimp only at hkey htasks hedges hclient
  subst hkey htasks hedges hclient
  rfl

/-- The builder has the tasks of the document. -/
theorem keys_filled {b b' : DagBuilder} (hnone : b.tasksMap = [])
    (h : DagBuilder.Filled b doc.tasks b') (k : String) : k ∈ b'.keys ↔ k ∈ doc.naturalIds := by
  have hempty : k ∉ b.keys := by
    rw [DagBuilder.keys, hnone]
    exact List.not_mem_nil
  exact (h.keys k).trans (or_iff_left hempty)

theorem valid_of_build (h : doc.build dump = .ok req) : doc.Valid ∧ doc.Makes dump req := by
  obtain ⟨b, hnew, h⟩ := bind_eq_ok.mp h
  obtain ⟨m, htasks, h⟩ := bind_eq_ok.mp h
  obtain ⟨b', hedges, hreq⟩ := bind_eq_ok.mp h
  obtain ⟨hkey, hkeyB, hnone, hnoedge⟩ := DagBuilder.new_eq_ok.mp hnew
  obtain ⟨hdistinct, -, hfilled⟩ := DagBuilder.filled_of_insertTasks htasks
  obtain ⟨hlisted, hkeyE, htasksE, hedgesE⟩ := DagBuilder.linked_of_addDependencies hedges
  obtain ⟨hvalid, hkeyR, htasksR, hedgesR⟩ := DagBuilder.buildProto_ok hreq
  have hids := keys_filled hnone hfilled
  have hall : b'.taskEdges = doc.edges := by
    rw [hedgesE, hfilled.edges, hnoedge, List.nil_append]
  have hperm : b'.tasksMap.Perm (doc.tasks.map fun task => (task.naturalId, task)) := by
    have hmap := hfilled.tasks
    rwa [hnone, List.append_nil, ← htasksE] at hmap
  have hnamed : ∀ entry ∈ b'.tasksMap, entry.2.naturalId = entry.1 := by
    intro entry hentry
    obtain ⟨task, -, rfl⟩ := List.mem_map.mp (hperm.mem_iff.mp hentry)
    rfl
  refine ⟨⟨hkey, hdistinct, fun edge hedge => (hids _).mp (hlisted edge hedge).1,
    fun edge hedge => (hids _).mp (hlisted edge hedge).2, ?_, ?_⟩, ⟨?_, ?_, ?_, ?_, ?_⟩⟩
  · rw [← hall]
    exact DagBuilder.validateCycle_acyclic.mp hvalid
  · rw [← hall, ← hedgesR]
    exact req.edgesSize
  · rw [hkeyR, hkeyE, hfilled.key, hkeyB]
  · have hmap := hperm.map fun entry => taskToProto dump entry.2
    rw [List.map_map] at hmap
    rw [htasksR]
    exact hmap
  · have hnames : req.naturalIds = b'.tasksMap.map Prod.fst := by
      rw [SubmitDagRequest.naturalIds, htasksR, List.map_map]
      exact List.map_congr_left fun entry hentry => hnamed entry hentry
    rw [hnames]
    exact b'.sorted
  · rw [hedgesR, hall]
  · exact DagBuilder.buildProto_client hreq

theorem build_total (dump : Json → String) (h : doc.Valid) :
    ∃ req, doc.build dump = .ok req := by
  obtain ⟨b, hnew⟩ : ∃ b, DagBuilder.new doc.idempotencyKey = .ok b := ⟨_, dif_neg h.key⟩
  obtain ⟨-, -, hnone, hnoedge⟩ := DagBuilder.new_eq_ok.mp hnew
  obtain ⟨m, htasks⟩ : ∃ m, doc.tasks.foldlM DagBuilder.insertTask b = .ok m := by
    refine DagBuilder.insertTasks_total h.distinct fun task _ => ?_
    rw [DagBuilder.keys, hnone]
    exact List.not_mem_nil
  obtain ⟨-, -, hfilled⟩ := DagBuilder.filled_of_insertTasks htasks
  have hids := keys_filled hnone hfilled
  have hlinks : ∀ edge ∈ doc.edges, edge.parentNaturalId ≠ edge.childNaturalId ∧
      edge.parentNaturalId ∈ m.keys ∧ edge.childNaturalId ∈ m.keys := by
    intro edge hedge
    refine ⟨fun hloop => h.acyclic edge.parentNaturalId (.single ?_),
      (hids _).mpr (h.parent edge hedge), (hids _).mpr (h.child edge hedge)⟩
    have hself : edge = ⟨edge.parentNaturalId, edge.parentNaturalId⟩ := by
      cases edge
      cases hloop
      rfl
    exact hself ▸ hedge
  obtain ⟨b', hedges⟩ := DagBuilder.addDependencies_total hlinks
  obtain ⟨-, -, -, hedgesE⟩ := DagBuilder.linked_of_addDependencies hedges
  have hall : b'.taskEdges = doc.edges := by
    rw [hedgesE, hfilled.edges, hnoedge, List.nil_append]
  obtain ⟨req, hreq⟩ := DagBuilder.buildProto_total dump
    (DagBuilder.validateCycle_acyclic.mpr (hall ▸ h.acyclic)) (hall ▸ h.fits)
  exact ⟨req, bind_eq_ok.mpr ⟨b, hnew, bind_eq_ok.mpr ⟨m, htasks,
    bind_eq_ok.mpr ⟨b', hedges, hreq⟩⟩⟩⟩

theorem build_eq_ok : doc.build dump = .ok req ↔ doc.Valid ∧ doc.Makes dump req := by
  refine ⟨valid_of_build, fun ⟨hvalid, hmakes⟩ => ?_⟩
  obtain ⟨req', hreq'⟩ := build_total dump hvalid
  rw [hreq', (valid_of_build hreq').2.unique hmakes]

end SubmitDoc

section Forward

variable {lib : JsonLibrary} {body : ByteArray} {req : SubmitDagRequest}

/-- Reading and building by turns come to the same as one after the other. -/
theorem buildRequest_eq_ok : lib.buildRequest body = .ok req ↔
    ∃ doc, lib.readDoc body = .ok doc ∧ doc.build lib.dump = .ok req := by
  have htasks : ∀ {js : List Json} {b b' : DagBuilder}, js.foldlM lib.addJsonTask b = .ok b' ↔
      ∃ tasks, js.mapM lib.readTask = .ok tasks ∧ tasks.foldlM DagBuilder.insertTask b = .ok b' :=
    foldlM_read fun b j b' => @JsonLibrary.addJsonTask_eq_ok lib b b' j
  have hedges : ∀ {js : List Json} {b b' : DagBuilder}, js.foldlM addJsonEdge b = .ok b' ↔
      ∃ edges, js.mapM JsonLibrary.readEdge = .ok edges ∧ edges.foldlM
        (fun b edge => b.addDependency edge.parentNaturalId edge.childNaturalId) b = .ok b' :=
    foldlM_read fun b j b' => @JsonLibrary.addJsonEdge_eq_ok b b' j
  simp only [JsonLibrary.buildRequest, JsonLibrary.readDoc, SubmitDoc.build, bind_eq_ok, fromJson,
    fromBuilder, mapError_eq_ok, htasks, hedges]
  constructor
  · rintro ⟨j, hj, key, hkey, jTasks, hjTasks, jEdges, hjEdges, b, hnew, m,
      ⟨tasks, hread, hadd⟩, b', ⟨edges, hread', hadd'⟩, hreq⟩
    exact ⟨⟨key, tasks, edges⟩, ⟨j, hj, key, hkey, jTasks, hjTasks, jEdges, hjEdges, tasks, hread,
      edges, hread', rfl⟩, b, hnew, m, hadd, b', hadd', hreq⟩
  · rintro ⟨doc, ⟨j, hj, key, hkey, jTasks, hjTasks, jEdges, hjEdges, tasks, hread, edges, hread',
      hdoc⟩, b, hnew, m, hadd, b', hadd', hreq⟩
    obtain rfl := Except.ok.inj hdoc
    exact ⟨j, hj, key, hkey, jTasks, hjTasks, jEdges, hjEdges, b, hnew, m, ⟨tasks, hread, hadd⟩, b',
      ⟨edges, hread', hadd'⟩, hreq⟩

end Forward

/-- **What is forwarded.** The handler builds a request of a body exactly if the body can
be read, and describes a DAG under a key; and it is the request that the document makes. -/
theorem web_forwards_iff (lib : JsonLibrary) (body : ByteArray) (req : SubmitDagRequest) :
    lib.buildRequest body = .ok req ↔
      ∃ doc, lib.readDoc body = .ok doc ∧ doc.Valid ∧ doc.Makes lib.dump req := by
  rw [buildRequest_eq_ok]
  exact exists_congr fun doc => and_congr_right fun _ => SubmitDoc.build_eq_ok

-- ---------------------------------------------------------------------------
-- The answer
-- ---------------------------------------------------------------------------

namespace DagBuilder

variable {b : DagBuilder} {e : BuilderError}

end DagBuilder

section Answer

variable {lib : JsonLibrary} {body : ByteArray} {doc : SubmitDoc}

end Answer

end DistTaskSystem
