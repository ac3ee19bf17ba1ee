import DistTaskSystem.ApiServer.Publication
import DistTaskSystem.Common.Uuid

/-!
# DTS — the graph of a request

A request and the ids assigned to it determine a graph over task ids. The
publication of the request leaves the countdown of the job in the `Exact`
state of that graph (`publication_exact`), provided no edge is repeated: the
counter of a task is the number of its edges, the children sets hold every
child once.
-/

namespace DistTaskSystem

open Countdown (Exact parents pending)

/-! ## Requests and their graphs -/

/-- Every edge runs between listed tasks, and none is repeated. -/
structure SubmitDagRequest.Listed (req : SubmitDagRequest) : Prop where
  parent : ∀ edge ∈ req.edges, edge.parentNaturalId ∈ req.naturalIds
  child : ∀ edge ∈ req.edges, edge.childNaturalId ∈ req.naturalIds
  nodup : req.edges.Nodup

/-- The context holds a generated job id and assigns a generated id to every
listed task, no id twice. -/
structure Assigns (ctx : DagCommitContext) (req : SubmitDagRequest) : Prop where
  job : ∃ uuid : Uuid, ctx.jobId = uuid.text
  task : ∀ n ∈ req.naturalIds, ∃ uuid : Uuid, ctx.naturalToUuid n = some uuid.text
  inj : ∀ n ∈ req.naturalIds, ∀ m ∈ req.naturalIds, ctx.naturalToUuid n = ctx.naturalToUuid m →
    n = m

/-- The ids of the tasks, in the order of the request. -/
def dagIds (ctx : DagCommitContext) (req : SubmitDagRequest) : List String :=
  req.tasks.map fun task => ctx.uuidOf task.naturalId

def dagNodes (ctx : DagCommitContext) (req : SubmitDagRequest) : Finset String :=
  (dagIds ctx req).toFinset

/-- The children a list of edges gives a task. -/
def edgeChildren (ctx : DagCommitContext) (edges : List TaskEdge) (taskId : String) :
    Finset String :=
  ((edges.filter fun edge => ctx.uuidOf edge.parentNaturalId = taskId).map
    fun edge => ctx.uuidOf edge.childNaturalId).toFinset

def dagGraph (ctx : DagCommitContext) (req : SubmitDagRequest) : String → Finset String :=
  edgeChildren ctx req.edges

section Graph

variable {ctx : DagCommitContext} {req : SubmitDagRequest}

theorem mem_edgeChildren {edges : List TaskEdge} {p c : String} :
    c ∈ edgeChildren ctx edges p ↔
      ∃ edge ∈ edges, ctx.uuidOf edge.parentNaturalId = p ∧ ctx.uuidOf edge.childNaturalId = c := by
  simp [edgeChildren, and_assoc]

theorem mem_dagIds {t : String} :
    t ∈ dagIds ctx req ↔ ∃ n ∈ req.naturalIds, ctx.uuidOf n = t := by
  simp [dagIds, SubmitDagRequest.naturalIds]

theorem mem_dagNodes {t : String} : t ∈ dagNodes ctx req ↔ t ∈ dagIds ctx req :=
  List.mem_toFinset

theorem Assigns.jobId_ne_empty (h : Assigns ctx req) : ctx.jobId ≠ "" := by
  obtain ⟨u, hu⟩ := h.job
  rw [hu]
  exact Uuid.text_ne_empty u

theorem Assigns.total (h : Assigns ctx req) {n : String} (hn : n ∈ req.naturalIds) :
    (ctx.naturalToUuid n).isSome := by
  obtain ⟨u, hu⟩ := h.task n hn
  rw [hu, Option.isSome_some]

theorem Assigns.uuidOf_eq (h : Assigns ctx req) {n : String} (hn : n ∈ req.naturalIds) :
    ∃ uuid : Uuid, ctx.uuidOf n = uuid.text := by
  obtain ⟨u, hu⟩ := h.task n hn
  exact ⟨u, ctx.uuidOf_eq hu⟩

theorem Assigns.uuidOf_inj (h : Assigns ctx req) {n m : String} (hn : n ∈ req.naturalIds)
    (hm : m ∈ req.naturalIds) (heq : ctx.uuidOf n = ctx.uuidOf m) : n = m := by
  obtain ⟨u, hu⟩ := h.task n hn
  obtain ⟨v, hv⟩ := h.task m hm
  rw [ctx.uuidOf_eq hu, ctx.uuidOf_eq hv] at heq
  exact h.inj n hn m hm (by rw [hu, hv, heq])

theorem Assigns.id_ne_empty (h : Assigns ctx req) {t : String} (ht : t ∈ dagIds ctx req) :
    t ≠ "" := by
  obtain ⟨n, hn, rfl⟩ := mem_dagIds.mp ht
  obtain ⟨u, hu⟩ := h.uuidOf_eq hn
  rw [hu]
  exact Uuid.text_ne_empty u

theorem Assigns.resolves (h : Assigns ctx req) (hl : req.Listed) : Resolves ctx req where
  tasks _ htask := h.total (List.mem_map_of_mem htask)
  edges edge hedge := ⟨h.total (hl.parent edge hedge), h.total (hl.child edge hedge)⟩

/-- The parents of a task are the parents of its edges. -/
theorem parents_eq (h : Assigns ctx req) (hl : req.Listed) {n : String}
    (hn : n ∈ req.naturalIds) :
    parents (dagNodes ctx req) (dagGraph ctx req) (ctx.uuidOf n) =
      ((req.edges.filter fun edge => edge.childNaturalId = n).map
        fun edge => ctx.uuidOf edge.parentNaturalId).toFinset := by
  ext p
  rw [Countdown.mem_parents, mem_dagNodes, mem_dagIds, dagGraph, mem_edgeChildren]
  simp only [List.mem_toFinset, List.mem_map, List.mem_filter, decide_eq_true_eq, and_assoc]
  constructor
  · rintro ⟨-, edge, hedge, hp, hc⟩
    exact ⟨edge, hedge, h.uuidOf_inj (hl.child edge hedge) hn hc, hp⟩
  · rintro ⟨edge, hedge, hc, hp⟩
    exact ⟨⟨_, hl.parent edge hedge, hp⟩, edge, hedge, hp, by rw [hc]⟩

/-- **The counter a task starts with is the number of its parents.** -/
theorem inDegree_eq (h : Assigns ctx req) (hl : req.Listed) {n : String}
    (hn : n ∈ req.naturalIds) :
    inDegree req.edges n =
      (parents (dagNodes ctx req) (dagGraph ctx req) (ctx.uuidOf n)).card := by
  have hnodup : ((req.edges.filter fun edge => edge.childNaturalId = n).map
      fun edge => ctx.uuidOf edge.parentNaturalId).Nodup := by
    refine (hl.nodup.filter _).map_on fun e he e' he' heq => ?_
    simp only [List.mem_filter, decide_eq_true_eq] at he he'
    have hparent := h.uuidOf_inj (hl.parent e he.1) (hl.parent e' he'.1) heq
    cases e
    cases e'
    simp_all
  rw [parents_eq h hl hn, List.toFinset_card_of_nodup hnodup, List.length_map, inDegree,
    List.countP_eq_length_filter]

end Graph

/-! ## Publication, phase by phase -/

section Phases

variable {ctx : DagCommitContext} {req : SubmitDagRequest}

/-- Phase 1 adds the children of its edges. -/
theorem actAll_sadd (ctx : DagCommitContext) (edges : List TaskEdge) (s : Countdown.State String) :
    actAll ctx.jobId (edges.map (saddCommand ctx)) s =
      { s with children := fun p => s.children p ∪ edgeChildren ctx edges p } := by
  induction edges generalizing s with
  | nil => simp [actAll, edgeChildren]
  | cons edge rest ih =>
    have hchildren : ∀ p, Function.update s.children (ctx.uuidOf edge.parentNaturalId)
        (insert (ctx.uuidOf edge.childNaturalId)
          (s.children (ctx.uuidOf edge.parentNaturalId))) p ∪ edgeChildren ctx rest p =
        s.children p ∪ edgeChildren ctx (edge :: rest) p := by
      intro p
      ext c
      by_cases hp : p = ctx.uuidOf edge.parentNaturalId
      · subst hp
        simp [mem_edgeChildren, eq_comm, or_left_comm]
      · rw [Function.update_of_ne hp]
        simp [mem_edgeChildren, Ne.symm hp]
    show actAll _ (rest.map (saddCommand ctx)) ((saddCommand ctx edge).act _ s) = _
    rw [ih]
    simp [saddCommand, PipeCmd.act, hchildren]

theorem act_meta (serialize : PbTask → List UInt8) (task : PbTask) (s : Countdown.State String) :
    (metaCommand serialize ctx task).act ctx.jobId s = s.learn (ctx.uuidOf task.naturalId) :=
  rfl

/-- A task is announced with the number of its edges. -/
theorem act_dispatch (edges : List TaskEdge) (task : PbTask) (s : Countdown.State String) :
    (dispatchCommand ctx edges task).act ctx.jobId s =
      s.publish (ctx.uuidOf task.naturalId) (inDegree edges task.naturalId) := by
  rw [dispatchCommand]
  by_cases hpos : 0 < inDegree edges task.naturalId
  · simp [hpos, PipeCmd.act, Countdown.State.publish, Nat.ne_of_gt hpos]
  · simp [PipeCmd.act, Countdown.State.publish, Nat.eq_zero_of_not_pos hpos]

variable {base : String → ℕ} {errs : List (Countdown.Fault String)} {P : List String}
  {R : Finset String} {s : Countdown.State String}

/-- One dispatch command keeps the countdown exact. -/
theorem Exact.dispatch (h : Assigns ctx req) (hl : req.Listed)
    (hexact : Exact (dagNodes ctx req) (dagGraph ctx req) base errs P R s) {task : PbTask}
    (htask : task.naturalId ∈ req.naturalIds) (hknown : s.known (ctx.uuidOf task.naturalId) = true)
    (hR : ∀ p ∈ parents (dagNodes ctx req) (dagGraph ctx req) (ctx.uuidOf task.naturalId), p ∉ R) :
    Exact (dagNodes ctx req) (dagGraph ctx req) base errs (P ++ [ctx.uuidOf task.naturalId]) R
      ((dispatchCommand ctx req.edges task).act ctx.jobId s) := by
  rw [act_dispatch, inDegree_eq h hl htask]
  exact hexact.publish hknown hR

/-- Phase 2 publishes the tasks one after the other. -/
theorem actAll_tasks (serialize : PbTask → List UInt8) (h : Assigns ctx req) (hl : req.Listed)
    {tasks : List PbTask} (htasks : ∀ task ∈ tasks, task.naturalId ∈ req.naturalIds)
    (hexact : Exact (dagNodes ctx req) (dagGraph ctx req) base errs P ∅ s) :
    Exact (dagNodes ctx req) (dagGraph ctx req) base errs
      (P ++ tasks.map fun task => ctx.uuidOf task.naturalId) ∅
      (actAll ctx.jobId (tasks.flatMap fun task =>
        [metaCommand serialize ctx task, dispatchCommand ctx req.edges task]) s) := by
  induction tasks generalizing P s with
  | nil => simpa [actAll] using hexact
  | cons task rest ih =>
    obtain ⟨htask, hrest⟩ := List.forall_mem_cons.mp htasks
    have hknown : (s.learn (ctx.uuidOf task.naturalId)).known (ctx.uuidOf task.naturalId) = true :=
      Function.update_self ..
    have hstep := Exact.dispatch h hl (hexact.learn (ctx.uuidOf task.naturalId)) htask hknown
      fun _ _ => Finset.notMem_empty _
    have hdone := ih hrest hstep
    rwa [List.append_assoc] at hdone

end Phases

/-! ## The whole publication -/

/-- The keys a publication writes are free, and the streams are streams. -/
structure NoKeys (ctx : DagCommitContext) (req : SubmitDagRequest) (r : Redis) : Prop where
  children : ∀ t ∈ dagIds ctx req, r.keys (childrenKey t) = none
  metas : ∀ t ∈ dagIds ctx req, r.keys (taskMeta t) = none
  deps : r.keys (dependencyHash ctx.jobId) = none
  tasks : r.IsStream kTasks
  errors : r.IsStream kErrors

/-- The keys of a job hold values of the types the commands expect. -/
structure JobTyped (ctx : DagCommitContext) (req : SubmitDagRequest) (r : Redis) : Prop where
  children : ∀ t ∈ dagNodes ctx req, r.IsSet (childrenKey t)
  shared : Typed ctx.jobId r

section Publication

variable {serialize : PbTask → List UInt8} {ctx : DagCommitContext} {req : SubmitDagRequest}
  {r : Redis} {cmds : List PipeCmd}

/-- An empty server is free for every job. -/
theorem noKeys_empty (ctx : DagCommitContext) (req : SubmitDagRequest) :
    NoKeys ctx req .empty where
  children _ _ := rfl
  metas _ _ := rfl
  deps := rfl
  tasks := Redis.isStream_of_none rfl
  errors := Redis.isStream_of_none rfl

theorem NoKeys.typed (h : NoKeys ctx req r) : JobTyped ctx req r where
  children t ht := Redis.isSet_of_none (h.children t (mem_dagNodes.mp ht))
  shared := ⟨Redis.isHash_of_none h.deps, h.tasks, h.errors⟩

/-- The commands of a DAG are sent to keys of their kinds. -/
theorem dagCommand_fits (serialize : PbTask → List UInt8) (hl : req.Listed)
    (hchildren : ∀ t ∈ dagIds ctx req, r.IsSet (childrenKey t))
    (hdeps : r.IsHash (dependencyHash ctx.jobId)) (htasks : r.IsStream kTasks) {cmd : PipeCmd}
    (hcmd : cmd ∈ dagCommands serialize req ctx) : cmd.Fits r := by
  rcases List.mem_append.mp hcmd with hsadd | htask
  · obtain ⟨edge, hedge, rfl⟩ := List.mem_map.mp hsadd
    exact ⟨hchildren _ (mem_dagIds.mpr ⟨_, hl.parent edge hedge, rfl⟩), _, rfl⟩
  · obtain ⟨task, -, hpair⟩ := List.mem_flatMap.mp htask
    rcases List.mem_pair.mp hpair with rfl | rfl
    · exact ⟨_, rfl⟩
    · -- a waiting task goes to the counters, a root to the stream
      unfold dispatchCommand
      split
      · exact ⟨hdeps, _, rfl⟩
      · exact ⟨htasks, rfl⟩

theorem JobTyped.dagCommand_fits (serialize : PbTask → List UInt8) (ht : JobTyped ctx req r)
    (hl : req.Listed) {cmd : PipeCmd} (hcmd : cmd ∈ dagCommands serialize req ctx) : cmd.Fits r :=
  DistTaskSystem.dagCommand_fits serialize hl
    (fun t htask => ht.children t (mem_dagNodes.mpr htask)) ht.shared.deps ht.shared.tasks hcmd

/-- So are all commands of a publication: an EXPIRE fits any key. -/
theorem appendDag_fits (h : Assigns ctx req) (hl : req.Listed) (ht : JobTyped ctx req r)
    (hcmds : appendDagToPipeline serialize req ctx = .ok cmds) :
    ∀ cmd ∈ cmds, cmd.Fits r := by
  intro cmd hcmd
  by_cases hexpire : cmd.isExpire = true
  · cases cmd with
    | expire key ttl => trivial
    | _ => simp at hexpire
  · refine ht.dagCommand_fits serialize hl ?_
    rw [← (appendDag_ok h.jobId_ne_empty hcmds).2]
    exact List.mem_filter.mpr ⟨hcmd, by simpa using hexpire⟩

/-- A command keeps the types of the job's keys. -/
theorem JobTyped.exec (ht : JobTyped ctx req r) {cmd : PipeCmd} (hfits : cmd.Fits r) :
    JobTyped ctx req (cmd.exec r) where
  children t htask := exec_typed (k := .children t) hfits (ht.children t htask)
  shared := ⟨exec_typed (k := .deps _) hfits ht.shared.deps,
    exec_typed (k := .tasks) hfits ht.shared.tasks,
    exec_typed (k := .errors) hfits ht.shared.errors⟩

/-- Before phase 2 the countdown is exact: nothing published, nothing completed. -/
theorem phase1_exact (hfree : NoKeys ctx req r) :
    Exact (dagNodes ctx req) (dagGraph ctx req) (view ctx.jobId r).ready.count
      (view ctx.jobId r).faults [] ∅
      (actAll ctx.jobId (req.edges.map (saddCommand ctx)) (view ctx.jobId r)) := by
  rw [actAll_sadd]
  refine Exact.init (s := { view ctx.jobId r with
    children := fun p => (view ctx.jobId r).children p ∪ edgeChildren ctx req.edges p })
    (fun p hp => ?_) fun t => ?_
  · have hempty : (view ctx.jobId r).children p = ∅ := by
      simp [view, Redis.setAt_of_none (hfree.children p (mem_dagNodes.mp hp)), RedisSet.empty]
    show _ ∪ _ = _
    rw [hempty, Finset.empty_union]
    rfl
  · simp [view, Redis.hashAt_of_none hfree.deps]

/-- **A published request is in the exact state of its graph**: every task
published, none completed, over what the streams held before. -/
theorem publication_exact (h : Assigns ctx req) (hl : req.Listed) (hfree : NoKeys ctx req r)
    (hcmds : appendDagToPipeline serialize req ctx = .ok cmds) :
    Exact (dagNodes ctx req) (dagGraph ctx req) (view ctx.jobId r).ready.count
      (view ctx.jobId r).faults (dagIds ctx req) ∅
      (view ctx.jobId (execPipeline cmds r)) := by
  rw [execPipeline_view _ (appendDag_fits h hl hfree.typed hcmds), ← actAll_filter,
    (appendDag_ok h.jobId_ne_empty hcmds).2, dagCommands, actAll_append]
  exact actAll_tasks serialize h hl (fun task htask => List.mem_map_of_mem htask)
    (phase1_exact hfree)

theorem JobTyped.execPipeline (ht : JobTyped ctx req r) (hfits : ∀ cmd ∈ cmds, cmd.Fits r) :
    JobTyped ctx req (execPipeline cmds r) where
  children t htask := execPipeline_typed (k := .children t) hfits (ht.children t htask)
  shared := ⟨execPipeline_typed (k := .deps _) hfits ht.shared.deps,
    execPipeline_typed (k := .tasks) hfits ht.shared.tasks,
    execPipeline_typed (k := .errors) hfits ht.shared.errors⟩

end Publication

end DistTaskSystem
