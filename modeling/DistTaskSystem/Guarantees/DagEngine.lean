import DistTaskSystem.ApiServer.BatchItem
import DistTaskSystem.Client.DagBuilder
import DistTaskSystem.Scheduler.DagEngine

/-!
# DTS — what the DAG engine guarantees

A published job and any run of SUCCESS reports, in any order and with any
repetitions: the task stream, the dependency hash and the error stream are a
function of the graph and of the *set* of reported tasks
(`dag_engine_exact`). Over a graph the client's cycle check accepted, the
engine never stops early (`validated_dag_never_stuck`).
-/

namespace DistTaskSystem

open Countdown (Exact parents pending)

section Readings

variable {ctx : DagCommitContext} {req : SubmitDagRequest} {base : String → ℕ}
  {errors : List StreamEntry} {R : Finset String} {r : Redis}

/-- The stream holds a task as soon as all its parents are completed. -/
theorem Engine.streamCount_eq (he : Engine ctx req base errors R r)
    (hnodup : (dagIds ctx req).Nodup) (t : String) : streamCount r t =
      base t + if t ∈ dagIds ctx req ∧ dagParents ctx req t ⊆ R then 1 else 0 := by
  have hready := he.exact.ready t
  have hzero : pending (dagNodes ctx req) (dagGraph ctx req) R t = 0 ↔
      dagParents ctx req t ⊆ R := Countdown.pending_eq_zero
  simp only [hnodup.count, hzero] at hready
  by_cases hroot : parents (dagNodes ctx req) (dagGraph ctx req) t = ∅
  · have hsub : dagParents ctx req t ⊆ R := by
      rw [dagParents, hroot]
      exact Finset.empty_subset R
    rw [if_pos hroot] at hready
    simp only [hsub, and_true]
    exact hready
  · rw [if_neg hroot] at hready
    exact hready

/-- The hash holds a task as long as a parent is missing. -/
theorem Engine.lookup_eq (he : Engine ctx req base errors R r) (t : String) :
    (r.hashAt (dependencyHash ctx.jobId)).lookup t =
      if t ∈ dagIds ctx req ∧ ¬ dagParents ctx req t ⊆ R then
        some ((dagParents ctx req t \ R).card : ℤ)
      else none := by
  have hcounter := he.exact.counter t
  have hpos : 0 < pending (dagNodes ctx req) (dagGraph ctx req) R t ↔
      ¬ dagParents ctx req t ⊆ R := by
    rw [Nat.pos_iff_ne_zero, ne_eq, Countdown.pending_eq_zero]
    rfl
  simp only [hpos] at hcounter
  exact hcounter

end Readings

/-- Distinct natural ids get distinct task ids. -/
theorem dagIds_nodup {ctx : DagCommitContext} {req : SubmitDagRequest} (h : Assigns ctx req)
    (hdistinct : req.naturalIds.Nodup) : (dagIds ctx req).Nodup := by
  have hmap : (req.naturalIds.map ctx.uuidOf).Nodup :=
    hdistinct.map_on fun n hn m hm heq => h.uuidOf_inj hn hm heq
  rwa [SubmitDagRequest.naturalIds, List.map_map] at hmap

/-- **Exactness of the DAG engine.** After the publication of a request and any
SUCCESS reports for its tasks, over what the streams held before: the task
stream has gained one entry for every task all of whose parents are reported
(a task without parents among them) and nothing else, the dependency hash maps
every other task to the number of its unreported parents, and the error stream
has gained nothing. -/
theorem dag_engine_exact {serialize : PbTask → List UInt8} {ctx : DagCommitContext}
    {req : SubmitDagRequest} {r : Redis} (hdistinct : req.naturalIds.Nodup)
    (hlisted : req.Listed) (hassigns : Assigns ctx req) (hfree : NoKeys ctx req r) :
    ∃ cmds, appendDagToPipeline serialize req ctx = .ok cmds ∧
      ∀ (svc : SchedulerService) (db : Db) (queue : List TaskUpdateOp)
        (scripts : List (String × String)) (reports : List Report),
        (∀ report ∈ reports, report.IsSuccess ctx req) →
        let r' := (handleReports svc reports ⟨execPipeline cmds r, db, queue, scripts⟩).redis
        let R := reported reports
        (∀ t, streamCount r' t = streamCount r t +
          if t ∈ dagIds ctx req ∧ dagParents ctx req t ⊆ R then 1 else 0) ∧
        (∀ t, (r'.hashAt (dependencyHash ctx.jobId)).lookup t =
          if t ∈ dagIds ctx req ∧ ¬ dagParents ctx req t ⊆ R then
            some ((dagParents ctx req t \ R).card : ℤ)
          else none) ∧
        (r'.streamAt kErrors).entries = (r.streamAt kErrors).entries := by
  obtain ⟨cmds, hcmds⟩ := appendDag_total serialize (hassigns.resolves hlisted)
  refine ⟨cmds, hcmds, fun svc db queue scripts reports hreports => ?_⟩
  have hstart := publication_engine hassigns hlisted hfree hcmds
  have hrun := @Engine.handleReports _ _ ⟨execPipeline cmds r, db, queue, scripts⟩ svc _ _
    hassigns hlisted reports hreports _ hstart
  rw [Finset.empty_union] at hrun
  exact ⟨hrun.streamCount_eq (dagIds_nodup hassigns hdistinct), hrun.lookup_eq, hrun.errors⟩

/-! A diamond, completed along one side only. -/

def jobX : Uuid := ⟨"00000000-0000-0000-0000-000000000000", by decide⟩

def taskA : Uuid := ⟨"aaaaaaaa-aaaa-aaaa-aaaa-aaaaaaaaaaaa", by decide⟩

def taskB : Uuid := ⟨"bbbbbbbb-bbbb-bbbb-bbbb-bbbbbbbbbbbb", by decide⟩

def taskC : Uuid := ⟨"cccccccc-cccc-cccc-cccc-cccccccccccc", by decide⟩

def taskD : Uuid := ⟨"dddddddd-dddd-dddd-dddd-dddddddddddd", by decide⟩

def diamond : SubmitDagRequest where
  idempotencyKey := "diamond"
  tasks := [{ naturalId := "a" }, { naturalId := "b" }, { naturalId := "c" }, { naturalId := "d" }]
  edges := [⟨"a", "b"⟩, ⟨"a", "c"⟩, ⟨"b", "d"⟩, ⟨"c", "d"⟩]
  edgesSize := by decide

def diamondContext : DagCommitContext := commitContext diamond jobX [taskA, taskB, taskC, taskD]

def successOf (task : Uuid) : Report where
  request := { taskId := task.text, finalState := .success, jobId := jobX.text }
  order := .insertion
  clock := 0

theorem dag_engine_exact_diamond :
    ∃ cmds, appendDagToPipeline (fun _ => []) diamond diamondContext = .ok cmds ∧
      ((handleReports ⟨true, true, fun _ => .ok .null⟩ [successOf taskA, successOf taskB,
          successOf taskA] ⟨execPipeline cmds .empty, .empty, [], []⟩).redis.hashAt
        (dependencyHash diamondContext.jobId)).lookup taskD.text = some 1 := by
  have hassigns : Assigns diamondContext diamond :=
    commitContext_assigns jobX rfl (by decide)
  obtain ⟨cmds, hcmds, hexact⟩ := @dag_engine_exact (fun _ => []) diamondContext diamond .empty
    (by decide) ⟨by decide, by decide, by decide⟩ hassigns (noKeys_empty diamondContext diamond)
  refine ⟨cmds, hcmds, ?_⟩
  rw [(hexact _ _ _ _ _ ?_).2.1]
  · decide
  · intro report hreport
    simp only [List.mem_cons, List.not_mem_nil, or_false] at hreport
    rcases hreport with rfl | rfl | rfl <;> exact ⟨rfl, rfl, by decide⟩

/-! ## Progress -/

section Progress

variable {ctx : DagCommitContext} {req : SubmitDagRequest}

/-- Ancestry that is well-founded on natural ids is so on task ids. -/
theorem acc_dagGraph (h : Assigns ctx req) (hl : req.Listed)
    (hwf : WellFounded fun p c => (⟨p, c⟩ : TaskEdge) ∈ req.edges) {n : String}
    (hn : n ∈ req.naturalIds) : Acc (fun p c => c ∈ dagGraph ctx req p) (ctx.uuidOf n) := by
  induction n using hwf.induction with
  | _ n ih =>
    refine Acc.intro _ fun p hp => ?_
    obtain ⟨edge, hedge, rfl, hchild⟩ := mem_edgeChildren.mp hp
    have heq : edge.childNaturalId = n := h.uuidOf_inj (hl.child edge hedge) hn hchild
    refine ih edge.parentNaturalId ?_ (hl.parent edge hedge)
    rw [← heq]
    exact hedge

/-- A publication resolves only edges between listed tasks. -/
theorem listed_of_publication {serialize : PbTask → List UInt8} {jobId : Uuid}
    {uuids : List Uuid} {cmds : List PipeCmd} (hlen : uuids.length = req.tasks.length)
    (hnodup : req.edges.Nodup)
    (hcmds : appendDagToPipeline serialize req (commitContext req jobId uuids) = .ok cmds) :
    req.Listed := by
  obtain ⟨hresolves, -⟩ := appendDag_ok
    (show (commitContext req jobId uuids).jobId ≠ "" from Uuid.text_ne_empty jobId) hcmds
  exact ⟨fun edge hedge => (assignIds_isSome hlen).mp (hresolves.edges edge hedge).1,
    fun edge hedge => (assignIds_isSome hlen).mp (hresolves.edges edge hedge).2, hnodup⟩

end Progress

/-- **A validated DAG never gets stuck.** Take any request `BuildProto` returned
(also after assignments to fields of its tasks) without a repeated edge, its
complete publication under fresh ids, and any SUCCESS reports: if every task
that has got a stream entry is reported, then every task has got one. -/
theorem validated_dag_never_stuck {dump : Json → String} {serialize : PbTask → List UInt8}
    {builder : DagBuilder} {req : SubmitDagRequest} {jobId : Uuid} {uuids : List Uuid}
    {r : Redis} {cmds : List PipeCmd} (hbuild : builder.buildProto dump = .ok req)
    (hnodup : req.edges.Nodup) (hlen : uuids.length = req.tasks.length) (huuids : uuids.Nodup)
    (hfree : NoKeys (commitContext req jobId uuids) req r)
    (hcmds : appendDagToPipeline serialize req (commitContext req jobId uuids) = .ok cmds)
    (svc : SchedulerService) (db : Db) (queue : List TaskUpdateOp)
    (scripts : List (String × String)) {reports : List Report}
    (hreports : ∀ report ∈ reports, report.IsSuccess (commitContext req jobId uuids) req) :
    let r' := (handleReports svc reports ⟨execPipeline cmds r, db, queue, scripts⟩).redis
    (∀ t ∈ dagIds (commitContext req jobId uuids) req,
      streamCount r t < streamCount r' t → t ∈ reported reports) →
    ∀ t ∈ dagIds (commitContext req jobId uuids) req, streamCount r t < streamCount r' t := by
  intro r' hsettled t ht
  have hassigns := commitContext_assigns jobId hlen huuids
  have hlisted := listed_of_publication hlen hnodup hcmds
  have hstart := publication_engine hassigns hlisted hfree hcmds
  have hrun := @Engine.handleReports _ _ ⟨execPipeline cmds r, db, queue, scripts⟩ svc _ _
    hassigns hlisted reports hreports _ hstart
  rw [Finset.empty_union] at hrun
  obtain ⟨n, hn, rfl⟩ := mem_dagIds.mp ht
  exact hrun.exact.ready_of_settled (fun t ht => mem_dagNodes.mp ht)
    (fun t ht hlt => hsettled t (mem_dagNodes.mp ht) hlt)
    (acc_dagGraph hassigns hlisted (DagBuilder.buildProto_wellFounded hbuild) hn)
    (mem_dagNodes.mpr ht)

/-! Two tasks in a row, as a client builds them. -/

def chainBuilder : DagBuilder where
  idempotencyKey := "chain"
  tasksMap := [("a", { naturalId := "a", funcName := "f" }),
    ("b", { naturalId := "b", funcName := "g" })]
  taskEdges := [⟨"a", "b"⟩]
  keyNonempty := by decide
  sorted := by decide
  parentListed := by decide
  childListed := by decide
  noLoop := by decide

def chainRequest : SubmitDagRequest where
  idempotencyKey := "chain"
  tasks := chainBuilder.tasksMap.map fun entry => taskToProto (fun _ => "null") entry.2
  edges := [⟨"a", "b"⟩]
  edgesSize := by decide

theorem validated_dag_never_stuck_chain :
    ∃ cmds, appendDagToPipeline (fun _ => []) chainRequest
        (commitContext chainRequest jobX [taskA, taskB]) = .ok cmds ∧
      0 < streamCount (handleReports ⟨true, true, fun _ => .ok .null⟩
        [successOf taskA, successOf taskB] ⟨execPipeline cmds .empty, .empty, [], []⟩).redis
        taskB.text := by
  have hassigns : Assigns (commitContext chainRequest jobX [taskA, taskB]) chainRequest :=
    commitContext_assigns jobX rfl (by decide)
  obtain ⟨cmds, hcmds⟩ := appendDag_total (fun _ => [])
    (hassigns.resolves ⟨by decide, by decide, by decide⟩)
  have hmem : taskB.text ∈ dagIds (commitContext chainRequest jobX [taskA, taskB])
      chainRequest := by decide
  have hreports : ∀ report ∈ [successOf taskA, successOf taskB],
      report.IsSuccess (commitContext chainRequest jobX [taskA, taskB]) chainRequest := by
    intro report hreport
    simp only [List.mem_cons, List.not_mem_nil, or_false] at hreport
    rcases hreport with rfl | rfl <;> exact ⟨rfl, rfl, by decide⟩
  have hready := @validated_dag_never_stuck (fun _ => "null") (fun _ => []) chainBuilder
    chainRequest jobX [taskA, taskB] _ _ rfl (by decide) rfl (by decide)
    (noKeys_empty _ chainRequest) hcmds
    ⟨true, true, fun _ => .ok .null⟩ .empty [] [] _ hreports
    (fun t ht _ => (by decide : ∀ t ∈ dagIds (commitContext chainRequest jobX [taskA, taskB])
      chainRequest, t ∈ reported [successOf taskA, successOf taskB]) t ht) _ hmem
  exact ⟨cmds, hcmds, Nat.zero_lt_of_lt hready⟩

end DistTaskSystem
