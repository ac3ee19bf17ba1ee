import DistTaskSystem.Common.CompleteTask
import DistTaskSystem.Common.Schema
import DistTaskSystem.Common.Task

/-!
# DTS — publishing a DAG

`AppendDagToPipeline` turns a request into the list of Redis commands that
publish it: the children sets first, then for every task its meta and either
its counter or its stream entry. The pipeline is not a transaction: the
commands run one by one, and a command that answers an error does not stop the
others.

`appendDag_ok` gives the commands that matter (all but the EXPIREs) in closed
form; what they do to the countdown of a job is in `Publication`.
-/

namespace DistTaskSystem

/-! ## The context of a submission -/

/-- `DagCommitContext`: the ids generated for a request. -/
structure DagCommitContext where
  jobId : String
  naturalToUuid : String → Option String
  /-- the tasks without parents, noted by `FlushDBBatch` -/
  entryTaskIds : List String := []

/-- What the submitter's own code throws while it writes a batch. -/
inductive SubmitError where
  /-- `unordered_map::at` on an unknown natural id -/
  | outOfRange (naturalId : String)
  /-- a statement or COPY the database refused -/
  | sql (error : SqlError)
deriving DecidableEq, Repr

/-- `natural_to_uuid.at(natural_id)`. -/
def DagCommitContext.at (ctx : DagCommitContext) (naturalId : String) :
    Except SubmitError String :=
  match ctx.naturalToUuid naturalId with
  | some uuid => .ok uuid
  | none => .error (.outOfRange naturalId)

/-! ## Counting -/

/-- `std::unordered_map<std::string, int>`; a request has fewer edges than an `int` counts. -/
abbrev CountMap := String → Option Nat

namespace CountMap

def empty : CountMap := fun _ => none

/-- `counts[key]`, which enters a zero for a key that is not there. -/
def access (counts : CountMap) (key : String) : Nat × CountMap :=
  match counts key with
  | some n => (n, counts)
  | none => (0, Function.update counts key (some 0))

/-- `counts[key]++`. -/
def increment (counts : CountMap) (key : String) : CountMap :=
  let (n, counts) := counts.access key
  Function.update counts key (some (n + 1))

/-- What is read under a key. -/
def count (counts : CountMap) (key : String) : Nat := (counts.access key).1

theorem count_eq (counts : CountMap) (key : String) : counts.count key = (counts key).getD 0 := by
  rw [count, access]
  cases counts key <;> rfl

@[simp] theorem count_empty (key : String) : empty.count key = 0 := rfl

/-- The zero that a lookup enters is not seen. -/
@[simp] theorem count_access (counts : CountMap) (key key' : String) :
    (counts.access key).2.count key' = counts.count key' := by
  rw [access]
  cases hkey : counts key with
  | some n => rfl
  | none =>
    show count (Function.update counts key (some 0)) key' = counts.count key'
    rw [count_eq, count_eq]
    by_cases h : key' = key
    · rw [h, hkey, Function.update_self]
      rfl
    · rw [Function.update_of_ne h]

theorem count_increment (counts : CountMap) (key key' : String) :
    (counts.increment key).count key' = counts.count key' + if key = key' then 1 else 0 := by
  show count (Function.update (counts.access key).2 key (some (counts.count key + 1))) key' = _
  by_cases h : key = key'
  · subst h
    rw [count_eq, Function.update_self, if_pos rfl]
    rfl
  · rw [count_eq, Function.update_of_ne (Ne.symm h), ← count_eq, count_access, if_neg h,
      Nat.add_zero]

end CountMap

/-! ## Commands -/

/-- The commands the submitter queues. -/
inductive PipeCmd where
  | sadd (key : Key) (member : String)
  | expire (key : Key) (ttl : Nat)
  | set (key : Key) (payload : List UInt8) (ttl : Nat)
  | hset (key : Key) (field : String) (value : Int)
  | xadd (key : Key) (fields : List (String × String))
deriving DecidableEq

def PipeCmd.run : PipeCmd → RedisM Unit
  | .sadd key member => DistTaskSystem.sadd key.text member
  | .expire key ttl => expireKey key.text ttl
  | .set key payload ttl => setEx key.text payload ttl
  | .hset key field value => DistTaskSystem.hset key.text field value
  | .xadd key fields => do
    let _ ← DistTaskSystem.xadd key.text fields
    return ()

/-- One queued command: its reply, an error included, is collected and dropped. -/
def PipeCmd.exec (cmd : PipeCmd) (r : Redis) : Redis := (cmd.run r).2

/-- `pipe.exec()`. -/
def execPipeline (cmds : List PipeCmd) (r : Redis) : Redis :=
  cmds.foldl (fun r cmd => cmd.exec r) r

/-- `TTL` in `AppendDagToPipeline`: 24 hours. -/
def pipelineTtl : Nat := 24 * 60 * 60 * 1000

/-- Phase 1: the children sets, and `dependency_map`. `processed` is `processed_parents`. -/
def edgeLoop (ctx : DagCommitContext) :
    CountMap → List String → List TaskEdge → Except SubmitError (List PipeCmd × CountMap)
  | dependencyMap, _, [] => .ok ([], dependencyMap)
  | dependencyMap, processed, edge :: rest => do
    let dependencyMap := dependencyMap.increment edge.childNaturalId
    let parent ← ctx.at edge.parentNaturalId
    let child ← ctx.at edge.childNaturalId
    let key := Key.children parent
    if parent ∈ processed then
      let (more, dependencyMap) ← edgeLoop ctx dependencyMap processed rest
      return (.sadd key child :: more, dependencyMap)
    else
      let (more, dependencyMap) ← edgeLoop ctx dependencyMap (parent :: processed) rest
      return (.sadd key child :: .expire key pipelineTtl :: more, dependencyMap)

/-- The fields of the stored payload; the rest of the message is left at its
defaults. -/
def internalTask (ctx : DagCommitContext) (uuid : String) (task : PbTask) : PbTask where
  taskId := uuid
  jobId := ctx.jobId
  naturalId := task.naturalId
  funcName := task.funcName
  funcParams := task.funcParams
  priority := task.priority
  maxRetry := task.maxRetry
  timeoutMs := task.timeoutMs

/-- Phase 2: the metas, and the counter or the stream entry of every task. -/
def taskLoop (serialize : PbTask → List UInt8) (ctx : DagCommitContext) :
    CountMap → List PbTask → Except SubmitError (List PipeCmd)
  | _, [] => .ok []
  | dependencyMap, task :: rest => do
    let uuid ← ctx.at task.naturalId
    let payload := serialize (internalTask ctx uuid task)
    let (pending, dependencyMap) := dependencyMap.access task.naturalId
    let dispatch : PipeCmd :=
      if 0 < pending then .hset (.deps ctx.jobId) uuid pending
      else .xadd .tasks (toXAddArgs uuid ctx.jobId)
    let more ← taskLoop serialize ctx dependencyMap rest
    return .set (.taskMeta uuid) payload pipelineTtl :: dispatch :: more

/-- `AppendDagToPipeline`. -/
def appendDagToPipeline (serialize : PbTask → List UInt8) (req : SubmitDagRequest)
    (ctx : DagCommitContext) : Except SubmitError (List PipeCmd) :=
  if ctx.jobId = "" then .ok []
  else do
    let (phase1, dependencyMap) ← edgeLoop ctx .empty [] req.edges
    let phase2 ← taskLoop serialize ctx dependencyMap req.tasks
    if req.edges = [] then return phase1 ++ phase2
    else return phase1 ++ phase2 ++ [.expire (.deps ctx.jobId) pipelineTtl]

/-! ## What the loop counts -/

/-- The number of edges into a task. -/
def inDegree (edges : List TaskEdge) (naturalId : String) : Nat :=
  edges.countP fun edge => edge.childNaturalId = naturalId

theorem inDegree_cons (edge : TaskEdge) (rest : List TaskEdge) (n : String) :
    inDegree (edge :: rest) n = (if edge.childNaturalId = n then 1 else 0) + inDegree rest n := by
  rw [inDegree, List.countP_cons, Nat.add_comm]
  simp only [decide_eq_true_eq]
  rfl

/-- The commands of phase 1. -/
def edgeCommands (ctx : DagCommitContext) :
    List String → List TaskEdge → Except SubmitError (List PipeCmd)
  | _, [] => .ok []
  | processed, edge :: rest => do
    let parent ← ctx.at edge.parentNaturalId
    let child ← ctx.at edge.childNaturalId
    let key := Key.children parent
    if parent ∈ processed then
      let more ← edgeCommands ctx processed rest
      return .sadd key child :: more
    else
      let more ← edgeCommands ctx (parent :: processed) rest
      return .sadd key child :: .expire key pipelineTtl :: more

/-- The commands of phase 2, where the map holds the in-degrees. -/
def taskCommands (serialize : PbTask → List UInt8) (ctx : DagCommitContext)
    (edges : List TaskEdge) : List PbTask → Except SubmitError (List PipeCmd)
  | [] => .ok []
  | task :: rest => do
    let uuid ← ctx.at task.naturalId
    let payload := serialize (internalTask ctx uuid task)
    let pending := inDegree edges task.naturalId
    let dispatch : PipeCmd :=
      if 0 < pending then .hset (.deps ctx.jobId) uuid pending
      else .xadd .tasks (toXAddArgs uuid ctx.jobId)
    let more ← taskCommands serialize ctx edges rest
    return .set (.taskMeta uuid) payload pipelineTtl :: dispatch :: more

/-- **`dependency_map` holds the in-degrees** when the loop over the edges is through. -/
theorem edgeLoop_counts (ctx : DagCommitContext) (dependencyMap : CountMap)
    (processed : List String) (edges : List TaskEdge) : ∃ after : CountMap,
      (∀ n, after.count n = dependencyMap.count n + inDegree edges n) ∧
      edgeLoop ctx dependencyMap processed edges =
        (edgeCommands ctx processed edges).map fun cmds => (cmds, after) := by
  induction edges generalizing dependencyMap processed with
  | nil => exact ⟨dependencyMap, fun n => rfl, rfl⟩
  | cons edge rest ih =>
    have hcount : ∀ {after : CountMap} (n : String),
        after.count n = (dependencyMap.increment edge.childNaturalId).count n + inDegree rest n →
        after.count n = dependencyMap.count n + inDegree (edge :: rest) n := by
      intro after n hn
      rw [hn, CountMap.count_increment, inDegree_cons, Nat.add_assoc]
    rw [edgeLoop, edgeCommands]
    cases hparent : ctx.at edge.parentNaturalId with
    | error e =>
      obtain ⟨after, hafter, -⟩ := ih (dependencyMap.increment edge.childNaturalId) processed
      exact ⟨after, fun n => hcount n (hafter n), rfl⟩
    | ok parent =>
      cases hchild : ctx.at edge.childNaturalId with
      | error e =>
        obtain ⟨after, hafter, -⟩ := ih (dependencyMap.increment edge.childNaturalId) processed
        exact ⟨after, fun n => hcount n (hafter n), rfl⟩
      | ok child =>
        by_cases hprocessed : parent ∈ processed
        · obtain ⟨after, hafter, hloop⟩ :=
            ih (dependencyMap.increment edge.childNaturalId) processed
          refine ⟨after, fun n => hcount n (hafter n), ?_⟩
          simp only [bind, Except.bind, if_pos hprocessed, hloop]
          cases edgeCommands ctx processed rest <;> rfl
        · obtain ⟨after, hafter, hloop⟩ :=
            ih (dependencyMap.increment edge.childNaturalId) (parent :: processed)
          refine ⟨after, fun n => hcount n (hafter n), ?_⟩
          simp only [bind, Except.bind, if_neg hprocessed, hloop]
          cases edgeCommands ctx (parent :: processed) rest <;> rfl

/-- A map that holds the in-degrees still does when a lookup has changed it. -/
theorem taskLoop_eq (serialize : PbTask → List UInt8) (ctx : DagCommitContext)
    {edges : List TaskEdge} {dependencyMap : CountMap} (tasks : List PbTask)
    (h : ∀ n, dependencyMap.count n = inDegree edges n) :
    taskLoop serialize ctx dependencyMap tasks = taskCommands serialize ctx edges tasks := by
  induction tasks generalizing dependencyMap with
  | nil => rfl
  | cons task rest ih =>
    have hcounts : ∀ n, (dependencyMap.access task.naturalId).2.count n = inDegree edges n :=
      fun n => by rw [CountMap.count_access, h]
    have hrest := ih hcounts
    have hpending : (dependencyMap.access task.naturalId).1 = inDegree edges task.naturalId :=
      h task.naturalId
    rw [taskLoop, taskCommands]
    simp only [hpending, hrest]

/-- `AppendDagToPipeline` with the in-degrees in place of the map. -/
theorem appendDagToPipeline_eq (serialize : PbTask → List UInt8) (req : SubmitDagRequest)
    (ctx : DagCommitContext) : appendDagToPipeline serialize req ctx =
      if ctx.jobId = "" then .ok []
      else do
        let phase1 ← edgeCommands ctx [] req.edges
        let phase2 ← taskCommands serialize ctx req.edges req.tasks
        if req.edges = [] then return phase1 ++ phase2
        else return phase1 ++ phase2 ++ [.expire (.deps ctx.jobId) pipelineTtl] := by
  obtain ⟨after, hafter, hloop⟩ := edgeLoop_counts ctx .empty [] req.edges
  have hcounts : ∀ n, after.count n = inDegree req.edges n := fun n => by
    rw [hafter, CountMap.count_empty, Nat.zero_add]
  have htasks := taskLoop_eq serialize ctx req.tasks hcounts
  rw [appendDagToPipeline, hloop]
  split
  · rfl
  · cases edgeCommands ctx [] req.edges with
    | error e => rfl
    | ok phase1 =>
      simp only [Except.map, bind, Except.bind, htasks]

/-! ## The commands in closed form -/

namespace DagCommitContext

variable (ctx : DagCommitContext)

/-- The id of a task, by its natural id. -/
def uuidOf (naturalId : String) : String :=
  (ctx.naturalToUuid naturalId).getD ""

/-- Both endpoints of an edge have an id. -/
def Knows (edge : TaskEdge) : Prop :=
  (ctx.naturalToUuid edge.parentNaturalId).isSome ∧
    (ctx.naturalToUuid edge.childNaturalId).isSome

theorem at_eq_ok {naturalId uuid : String} :
    ctx.at naturalId = .ok uuid ↔ ctx.naturalToUuid naturalId = some uuid := by
  unfold DagCommitContext.at
  cases ctx.naturalToUuid naturalId <;> simp

theorem uuidOf_eq {naturalId uuid : String}
    (h : ctx.naturalToUuid naturalId = some uuid) : ctx.uuidOf naturalId = uuid := by
  rw [uuidOf, h, Option.getD_some]

end DagCommitContext

def PipeCmd.isExpire : PipeCmd → Bool
  | .expire .. => true
  | _ => false

section IsExpire

variable (key : Key)

@[simp] theorem isExpire_sadd (member : String) : (PipeCmd.sadd key member).isExpire = false := rfl

@[simp] theorem isExpire_expire (ttl : Nat) : (PipeCmd.expire key ttl).isExpire = true := rfl

@[simp] theorem isExpire_set (payload : List UInt8) (ttl : Nat) :
    (PipeCmd.set key payload ttl).isExpire = false := rfl

@[simp] theorem isExpire_hset (field : String) (value : Int) :
    (PipeCmd.hset key field value).isExpire = false := rfl

@[simp] theorem isExpire_xadd (fields : List (String × String)) :
    (PipeCmd.xadd key fields).isExpire = false := rfl

end IsExpire

/-- The command that links a child to its parent. -/
def saddCommand (ctx : DagCommitContext) (edge : TaskEdge) : PipeCmd :=
  .sadd (.children (ctx.uuidOf edge.parentNaturalId)) (ctx.uuidOf edge.childNaturalId)

/-- The command that stores a task's payload. -/
def metaCommand (serialize : PbTask → List UInt8) (ctx : DagCommitContext) (task : PbTask) :
    PipeCmd :=
  .set (.taskMeta (ctx.uuidOf task.naturalId))
    (((ctx.naturalToUuid task.naturalId).map fun uuid =>
      serialize (internalTask ctx uuid task)).getD []) pipelineTtl

/-- The command that makes a task wait or run. -/
def dispatchCommand (ctx : DagCommitContext) (edges : List TaskEdge) (task : PbTask) : PipeCmd :=
  if 0 < inDegree edges task.naturalId then
    .hset (.deps ctx.jobId) (ctx.uuidOf task.naturalId) (inDegree edges task.naturalId)
  else .xadd .tasks (toXAddArgs (ctx.uuidOf task.naturalId) ctx.jobId)

/-- The commands of a publication, the EXPIREs left out. -/
def dagCommands (serialize : PbTask → List UInt8) (req : SubmitDagRequest)
    (ctx : DagCommitContext) : List PipeCmd :=
  req.edges.map (saddCommand ctx) ++
    req.tasks.flatMap fun task =>
      [metaCommand serialize ctx task, dispatchCommand ctx req.edges task]


section ClosedForm

variable {serialize : PbTask → List UInt8} {ctx : DagCommitContext}

theorem edgeCommands_ok {processed : List String} {edges : List TaskEdge} {cmds : List PipeCmd}
    (h : edgeCommands ctx processed edges = .ok cmds) :
    (∀ edge ∈ edges, ctx.Knows edge) ∧
      cmds.filter (fun cmd => !cmd.isExpire) = edges.map (saddCommand ctx) := by
  induction edges generalizing processed cmds with
  | nil =>
    obtain rfl : [] = cmds := Except.ok.inj h
    simp
  | cons edge rest ih =>
    rw [edgeCommands] at h
    cases hparent : ctx.naturalToUuid edge.parentNaturalId with
    | none => simp [DagCommitContext.at, hparent, bind, Except.bind] at h
    | some parent =>
      cases hchild : ctx.naturalToUuid edge.childNaturalId with
      | none => simp [DagCommitContext.at, hparent, hchild, bind, Except.bind] at h
      | some child =>
        have hknows : ctx.Knows edge := ⟨by simp [hparent], by simp [hchild]⟩
        have hsadd : saddCommand ctx edge = .sadd (.children parent) child := by
          rw [saddCommand, ctx.uuidOf_eq hparent, ctx.uuidOf_eq hchild]
        simp only [ctx.at_eq_ok.mpr hparent, ctx.at_eq_ok.mpr hchild, bind, Except.bind] at h
        split at h
        · cases hmore : edgeCommands ctx processed rest with
          | error e => simp [hmore] at h
          | ok more =>
            obtain ⟨hall, hfilter⟩ := ih hmore
            simp only [hmore, pure, Except.pure, Except.ok.injEq] at h
            subst h
            exact ⟨List.forall_mem_cons.mpr ⟨hknows, hall⟩, by simp [hfilter, hsadd]⟩
        · cases hmore : edgeCommands ctx (parent :: processed) rest with
          | error e => simp [hmore] at h
          | ok more =>
            obtain ⟨hall, hfilter⟩ := ih hmore
            simp only [hmore, pure, Except.pure, Except.ok.injEq] at h
            subst h
            exact ⟨List.forall_mem_cons.mpr ⟨hknows, hall⟩, by simp [hfilter, hsadd]⟩

theorem edgeCommands_total {edges : List TaskEdge} (h : ∀ edge ∈ edges, ctx.Knows edge)
    (processed : List String) : ∃ cmds, edgeCommands ctx processed edges = .ok cmds := by
  induction edges generalizing processed with
  | nil => exact ⟨[], rfl⟩
  | cons edge rest ih =>
    obtain ⟨hedge, hrest⟩ := List.forall_mem_cons.mp h
    obtain ⟨parent, hparent⟩ := Option.isSome_iff_exists.mp hedge.1
    obtain ⟨child, hchild⟩ := Option.isSome_iff_exists.mp hedge.2
    obtain ⟨more, hmore⟩ := ih hrest processed
    obtain ⟨more', hmore'⟩ := ih hrest (parent :: processed)
    by_cases hp : parent ∈ processed <;>
      simp [edgeCommands, ctx.at_eq_ok.mpr hparent, ctx.at_eq_ok.mpr hchild, hp, hmore, hmore',
        bind, Except.bind, pure, Except.pure]

theorem taskCommands_ok {edges : List TaskEdge} {tasks : List PbTask} {cmds : List PipeCmd}
    (h : taskCommands serialize ctx edges tasks = .ok cmds) :
    (∀ task ∈ tasks, (ctx.naturalToUuid task.naturalId).isSome) ∧
      cmds = tasks.flatMap fun task =>
        [metaCommand serialize ctx task, dispatchCommand ctx edges task] := by
  induction tasks generalizing cmds with
  | nil =>
    obtain rfl : [] = cmds := Except.ok.inj h
    simp
  | cons task rest ih =>
    rw [taskCommands] at h
    cases huuid : ctx.naturalToUuid task.naturalId with
    | none => simp [DagCommitContext.at, huuid, bind, Except.bind] at h
    | some uuid =>
      simp only [ctx.at_eq_ok.mpr huuid, bind, Except.bind] at h
      cases hmore : taskCommands serialize ctx edges rest with
      | error e => simp [hmore] at h
      | ok more =>
        obtain ⟨hall, hrest⟩ := ih hmore
        simp only [hmore, pure, Except.pure, Except.ok.injEq] at h
        subst h
        refine ⟨List.forall_mem_cons.mpr ⟨by simp [huuid], hall⟩, ?_⟩
        rw [List.flatMap_cons, ← hrest, metaCommand, dispatchCommand, ctx.uuidOf_eq huuid, huuid]
        rfl

theorem taskCommands_total (serialize : PbTask → List UInt8) {tasks : List PbTask}
    (edges : List TaskEdge)
    (h : ∀ task ∈ tasks, (ctx.naturalToUuid task.naturalId).isSome) :
    ∃ cmds, taskCommands serialize ctx edges tasks = .ok cmds := by
  induction tasks with
  | nil => exact ⟨[], rfl⟩
  | cons task rest ih =>
    obtain ⟨htask, hrest⟩ := List.forall_mem_cons.mp h
    obtain ⟨uuid, huuid⟩ := Option.isSome_iff_exists.mp htask
    obtain ⟨more, hmore⟩ := ih hrest
    simp [taskCommands, ctx.at_eq_ok.mpr huuid, hmore, bind, Except.bind, pure, Except.pure]

/-- Every natural id of the request has an id: its tasks and the endpoints of
its edges. -/
structure Resolves (ctx : DagCommitContext) (req : SubmitDagRequest) : Prop where
  tasks : ∀ task ∈ req.tasks, (ctx.naturalToUuid task.naturalId).isSome
  edges : ∀ edge ∈ req.edges, ctx.Knows edge

/-- `AppendDagToPipeline` queues the commands of the DAG and some EXPIREs. -/
theorem appendDag_ok {req : SubmitDagRequest} {cmds : List PipeCmd} (hjob : ctx.jobId ≠ "")
    (h : appendDagToPipeline serialize req ctx = .ok cmds) :
    Resolves ctx req ∧
      cmds.filter (fun cmd => !cmd.isExpire) = dagCommands serialize req ctx := by
  rw [appendDagToPipeline_eq, if_neg hjob] at h
  cases hedges : edgeCommands ctx [] req.edges with
  | error e => simp [hedges, bind, Except.bind] at h
  | ok phase1 =>
    cases htasks : taskCommands serialize ctx req.edges req.tasks with
    | error e => simp [hedges, htasks, bind, Except.bind] at h
    | ok phase2 =>
      obtain ⟨hknows, hphase1⟩ := edgeCommands_ok hedges
      obtain ⟨hknown, hphase2⟩ := taskCommands_ok htasks
      have hkeep : phase2.filter (fun cmd => !cmd.isExpire) = phase2 := by
        rw [List.filter_eq_self, hphase2]
        intro cmd hcmd
        obtain ⟨task, -, hcmd⟩ := List.mem_flatMap.mp hcmd
        rcases List.mem_pair.mp hcmd with rfl | rfl
        · rfl
        · rw [dispatchCommand]
          split <;> rfl
      refine ⟨⟨hknown, hknows⟩, ?_⟩
      simp only [hedges, htasks, bind, Except.bind, pure, Except.pure] at h
      split at h
      all_goals
        obtain rfl := Except.ok.inj h
        simp [dagCommands, hphase1, hkeep, ← hphase2]

/-- It throws only on a natural id without an id. -/
theorem appendDag_total (serialize : PbTask → List UInt8) {req : SubmitDagRequest}
    (h : Resolves ctx req) : ∃ cmds, appendDagToPipeline serialize req ctx = .ok cmds := by
  by_cases hjob : ctx.jobId = ""
  · exact ⟨[], if_pos hjob⟩
  obtain ⟨phase1, hphase1⟩ := edgeCommands_total h.edges []
  obtain ⟨phase2, hphase2⟩ := taskCommands_total serialize req.edges h.tasks
  rw [appendDagToPipeline_eq, if_neg hjob]
  simp only [hphase1, hphase2, bind, Except.bind]
  split
  · exact ⟨_, rfl⟩
  · exact ⟨_, rfl⟩

end ClosedForm

end DistTaskSystem
