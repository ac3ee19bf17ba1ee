import DistTaskSystem.ApiServer.DagGraph
import DistTaskSystem.Scheduler.SchedulerService

/-!
# DTS — the DAG engine at work

What one completion script and one SUCCESS report do to a published job, as
steps on the `Exact` state of its graph. A script may only run into trouble on
a child that is not published yet; `completeTask_exact` says so in its
hypothesis, since other clients can interleave with a publication.
-/

namespace DistTaskSystem

open Countdown (Exact parents pending)

/-- The parents of a task in the graph of a request. -/
def dagParents (ctx : DagCommitContext) (req : SubmitDagRequest) (t : String) : Finset String :=
  parents (dagNodes ctx req) (dagGraph ctx req) t

section Step

variable {ctx : DagCommitContext} {req : SubmitDagRequest} {r : Redis}
  {base : String → ℕ} {errs : List (Countdown.Fault String)} {P : List String} {R : Finset String}

/-- A task has at most as many parents as the request has edges. -/
theorem dagParents_card_le (t : String) : (dagParents ctx req t).card ≤ req.edges.length := by
  have hsub : dagParents ctx req t ⊆
      (req.edges.map fun edge => ctx.uuidOf edge.parentNaturalId).toFinset := by
    intro p hp
    obtain ⟨-, hchild⟩ := Countdown.mem_parents.mp hp
    obtain ⟨edge, hedge, hparent, -⟩ := mem_edgeChildren.mp hchild
    exact List.mem_toFinset.mpr (List.mem_map.mpr ⟨edge, hedge, hparent⟩)
  calc (dagParents ctx req t).card
      ≤ (req.edges.map fun edge => ctx.uuidOf edge.parentNaturalId).toFinset.card :=
        Finset.card_le_card hsub
    _ ≤ (req.edges.map fun edge => ctx.uuidOf edge.parentNaturalId).length :=
        List.toFinset_card_le _
    _ = req.edges.length := List.length_map ..

/-- Every decrement of an exact state stays inside 64 bits: a counter starts
below `2 ^ 31`, the size of a repeated field, and a missing one goes to -1. -/
theorem exact_left_inInt64 {s : Countdown.State String}
    (hexact : Exact (dagNodes ctx req) (dagGraph ctx req) base errs P R s) {p : String}
    (hp : p ∈ dagNodes ctx req) {c : String} (hc : c ∈ s.children p) :
    inInt64 (s.left c) = true := by
  rw [hexact.children p hp] at hc
  by_cases hpR : p ∈ R
  · simp [hpR] at hc
  rw [if_neg hpR] at hc
  have hpos := Countdown.pending_pos hp hc hpR
  have hle : pending (dagNodes ctx req) (dagGraph ctx req) R c ≤ req.edges.length :=
    (Finset.card_le_card Finset.sdiff_subset).trans (dagParents_card_le c)
  have hsize := req.edgesSize
  rw [Countdown.State.left, hexact.counter c, inInt64, decide_eq_true_iff]
  by_cases hcP : c ∈ P
  · rw [if_pos ⟨hcP, hpos⟩, Option.getD_some]
    omega
  · rw [if_neg fun h => hcP h.1, Option.getD_none]
    omega

/-- **One completion of a task whose children are published** keeps the
countdown exact and adds the task to the completed ones. -/
theorem completeTask_exact (ht : JobTyped ctx req r)
    (hexact : Exact (dagNodes ctx req) (dagGraph ctx req) base errs P R (view ctx.jobId r))
    (ord : MembersOrder) {p : String} (hp : p ∈ dagNodes ctx req)
    (hpub : p ∉ R → ∀ c ∈ dagGraph ctx req p, c ∈ P) :
    ∃ n r', completeTask ord p ctx.jobId r = (.ok n, r') ∧
      Exact (dagNodes ctx req) (dagGraph ctx req) base errs P (insert p R)
        (view ctx.jobId r') ∧
      JobTyped ctx req r' ∧ ScriptFrame ctx.jobId [childrenKey p] r r' := by
  obtain ⟨r', hrun, heffect, hset⟩ := completeTask_effect ord (ht.children p hp)
    fun c hc => ht.shared.childFits (exact_left_inInt64 hexact hp hc)
  have hperm := ord.perm (r.setAt (childrenKey p)).members
  refine ⟨_, r', hrun, ?_, ⟨fun t htask => ?_, heffect.typed ht.shared⟩, heffect.frame⟩
  · rw [heffect.view]
    refine hexact.complete hp (hperm.nodup_iff.mpr (r.setAt (childrenKey p)).nodup)
      (fun c => ?_) hpub
    rw [hperm.mem_iff]
    exact List.mem_toFinset.symm
  · by_cases htp : t = p
    · exact htp ▸ hset
    · refine (Redis.isSet_congr ?_).mpr (ht.children t htask)
      exact heffect.frame.other _ (by simpa using htp) (by simp) (by simp) (by simp)

end Step

/-! ## Reports -/

/-- A report as it reaches the service: the order in which the script will see
the children, and the clock of the Redis server. -/
structure Report where
  request : UpdateTaskStatusRequest
  order : MembersOrder
  clock : Nat

/-- A report of a success of a task of the job. -/
def Report.IsSuccess (ctx : DagCommitContext) (req : SubmitDagRequest) (report : Report) : Prop :=
  report.request.finalState = .success ∧ report.request.jobId = ctx.jobId ∧
    report.request.taskId ∈ dagIds ctx req

/-- The service handles a report while Redis answers; no key expires. -/
def handleReport (svc : SchedulerService) (s : SchedulerState) (report : Report) :
    SchedulerState :=
  (updateTaskStatus svc {} report.order 0 report.request
    { s with redis := { s.redis with now := report.clock } }).2

/-- The service handles reports one after the other. -/
def handleReports (svc : SchedulerService) (reports : List Report) (s : SchedulerState) :
    SchedulerState :=
  reports.foldl (handleReport svc) s

/-- The tasks reported so far. -/
def reported (reports : List Report) : Finset String :=
  (reports.map fun report => report.request.taskId).toFinset

section Reports

variable {ctx : DagCommitContext} {req : SubmitDagRequest} {svc : SchedulerService}
  {s : SchedulerState}

/-- A SUCCESS report of a task runs its completion script. -/
theorem handleReport_redis {report : Report} (h : Assigns ctx req)
    (hreport : report.IsSuccess ctx req) :
    (handleReport svc s report).redis =
      (completeTask report.order report.request.taskId ctx.jobId
        { s.redis with now := report.clock }).2 := by
  obtain ⟨hstate, hjob, htask⟩ := hreport
  rw [handleReport, updateTaskStatus, if_neg (h.id_ne_empty htask), if_pos hstate,
    reportSuccess, hjob]
  rfl

/-- The state of a published job after some reports. -/
structure Engine (ctx : DagCommitContext) (req : SubmitDagRequest) (base : String → ℕ)
    (errors : List StreamEntry) (R : Finset String) (r : Redis) : Prop where
  exact : Exact (dagNodes ctx req) (dagGraph ctx req) base
    (errors.filterMap (faultOf? ctx.jobId)) (dagIds ctx req) R (view ctx.jobId r)
  typed : JobTyped ctx req r
  errors : (r.streamAt kErrors).entries = errors

/-- A report keeps the engine's invariant. -/
theorem Engine.handleReport (svc : SchedulerService) {base : String → ℕ}
    {errors : List StreamEntry} {R : Finset String} (h : Assigns ctx req) (hl : req.Listed)
    (he : Engine ctx req base errors R s.redis) {report : Report}
    (hreport : report.IsSuccess ctx req) :
    Engine ctx req base errors (insert report.request.taskId R)
      (handleReport svc s report).redis := by
  have htyped : JobTyped ctx req { s.redis with now := report.clock } :=
    ⟨he.typed.children, ⟨he.typed.shared.deps, he.typed.shared.tasks, he.typed.shared.errors⟩⟩
  obtain ⟨n, r', hrun, hexact, htyped', hframe⟩ := completeTask_exact htyped he.exact
    report.order (mem_dagNodes.mpr hreport.2.2) fun _ c hc => by
      obtain ⟨edge, hedge, -, hchild⟩ := mem_edgeChildren.mp hc
      exact mem_dagIds.mpr ⟨_, hl.child edge hedge, hchild⟩
  rw [handleReport_redis h hreport, hrun]
  refine ⟨hexact, htyped', ?_⟩
  rw [hframe.errors_unchanged (hexact.faults.trans he.exact.faults.symm)]
  exact he.errors

/-- **A run of reports keeps the engine's invariant**, and the completed tasks
are the reported ones. -/
theorem Engine.handleReports (svc : SchedulerService) {base : String → ℕ}
    {errors : List StreamEntry} (h : Assigns ctx req) (hl : req.Listed) (reports : List Report)
    (hreports : ∀ report ∈ reports, report.IsSuccess ctx req) {R : Finset String}
    (he : Engine ctx req base errors R s.redis) :
    Engine ctx req base errors (R ∪ reported reports) (handleReports svc reports s).redis := by
  induction reports generalizing R s with
  | nil => simpa [reported, DistTaskSystem.handleReports] using he
  | cons report rest ih =>
    obtain ⟨hreport, hrest⟩ := List.forall_mem_cons.mp hreports
    have hdone := ih hrest (he.handleReport svc h hl hreport)
    have hset : insert report.request.taskId R ∪ reported rest =
        R ∪ reported (report :: rest) := by
      simp [reported, Finset.insert_union, Finset.union_insert]
    rw [hset] at hdone
    exact hdone

end Reports

/-- A complete publication establishes the engine's invariant. -/
theorem publication_engine {serialize : PbTask → List UInt8} {ctx : DagCommitContext}
    {req : SubmitDagRequest} {r : Redis} {cmds : List PipeCmd} (h : Assigns ctx req)
    (hl : req.Listed) (hfree : NoKeys ctx req r)
    (hcmds : appendDagToPipeline serialize req ctx = .ok cmds) :
    Engine ctx req (streamCount r) (r.streamAt kErrors).entries ∅ (execPipeline cmds r) where
  exact := publication_exact h hl hfree hcmds
  typed := hfree.typed.execPipeline (appendDag_fits h hl hfree.typed hcmds)
  errors := by rw [execPipeline_errors (appendDag_fits h hl hfree.typed hcmds)]

end DistTaskSystem
