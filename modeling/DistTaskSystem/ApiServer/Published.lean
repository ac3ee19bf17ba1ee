import DistTaskSystem.ApiServer.FlushBatch
import DistTaskSystem.ApiServer.PipelineReads
import Mathlib.Data.List.Flatten

/-!
# DTS — published and absent

When a submission counts as completely published in Redis, and when Redis
knows nothing of it. `published_iff` reads this off the commands the server
executed: under fresh ids a submission is published exactly if all its
commands were among them, whatever else the pipeline carried.
-/

namespace DistTaskSystem

/-- Everything of a submission is in Redis: the children sets, the counters,
the payloads, and one stream entry for each root. -/
structure Published (serialize : PbTask → List UInt8) (sub : Submission) (r : Redis) : Prop where
  children : ∀ t ∈ dagIds sub.item.ctx sub.req,
    (view sub.jobId.text r).children t = dagGraph sub.item.ctx sub.req t
  counters : ∀ task ∈ sub.req.tasks,
    (view sub.jobId.text r).counter (sub.item.ctx.uuidOf task.naturalId) =
      if 0 < inDegree sub.req.edges task.naturalId then
        some (inDegree sub.req.edges task.naturalId : Int)
      else none
  payloads : ∀ task ∈ sub.req.tasks,
    payloadAt r (sub.item.ctx.uuidOf task.naturalId) = some (serialize
      (internalTask sub.item.ctx (sub.item.ctx.uuidOf task.naturalId) task))
  entries : ∀ task ∈ sub.req.tasks,
    entriesOf r (sub.item.ctx.uuidOf task.naturalId) =
      if 0 < inDegree sub.req.edges task.naturalId then []
      else [toXAddArgs (sub.item.ctx.uuidOf task.naturalId) sub.jobId.text]

/-- No key belongs to the submission, and no stream entry points to it. -/
structure NotInRedis (sub : Submission) (r : Redis) : Prop where
  children : ∀ u ∈ sub.uuids, r.keys (childrenKey u.text) = none
  metas : ∀ u ∈ sub.uuids, r.keys (taskMeta u.text) = none
  deps : r.keys (dependencyHash sub.jobId.text) = none
  entries : ∀ u ∈ sub.uuids, entriesOf r u.text = []

/-! ## Whose command it is -/

/-- The task a command is about. -/
def PipeCmd.task? : PipeCmd → Option String
  | .sadd (.children taskId) _ => some taskId
  | .set (.taskMeta taskId) _ _ => some taskId
  | .hset (.deps _) taskId _ => some taskId
  | .xadd .tasks fields => StreamEntry.taskId? ⟨0, fields⟩
  | _ => none

section Owner

variable {serialize : PbTask → List UInt8} {ctx : DagCommitContext} {req : SubmitDagRequest}
  {cmd : PipeCmd}

theorem mem_dagCommands : cmd ∈ dagCommands serialize req ctx ↔
    (∃ edge ∈ req.edges, cmd = saddCommand ctx edge) ∨
      ∃ task ∈ req.tasks, cmd = metaCommand serialize ctx task ∨
        cmd = dispatchCommand ctx req.edges task := by
  simp [dagCommands, eq_comm]

@[simp] theorem task?_saddCommand (ctx : DagCommitContext) (edge : TaskEdge) :
    (saddCommand ctx edge).task? = some (ctx.uuidOf edge.parentNaturalId) := rfl

@[simp] theorem task?_metaCommand (task : PbTask) :
    (metaCommand serialize ctx task).task? = some (ctx.uuidOf task.naturalId) := rfl

@[simp] theorem task?_dispatchCommand (edges : List TaskEdge) (task : PbTask) :
    (dispatchCommand ctx edges task).task? = some (ctx.uuidOf task.naturalId) := by
  unfold dispatchCommand
  split
  · rfl
  · exact taskId?_toXAddArgs 0 _ _

/-- Every command of a DAG is about one of its tasks. -/
theorem task?_dagCommands (hl : req.Listed) (h : cmd ∈ dagCommands serialize req ctx) :
    ∃ t ∈ dagIds ctx req, cmd.task? = some t := by
  rcases mem_dagCommands.mp h with ⟨edge, hedge, rfl⟩ | ⟨task, htask, rfl | rfl⟩
  · exact ⟨_, mem_dagIds.mpr ⟨_, hl.parent edge hedge, rfl⟩, task?_saddCommand ctx edge⟩
  · exact ⟨_, List.mem_map_of_mem htask, task?_metaCommand task⟩
  · exact ⟨_, List.mem_map_of_mem htask, task?_dispatchCommand req.edges task⟩

/-- The commands about a task, among those of its DAG. -/
theorem dagCommands_of_task (h : Assigns ctx req) (hdistinct : req.naturalIds.Nodup)
    {task : PbTask} (htask : task ∈ req.tasks) (hcmd : cmd ∈ dagCommands serialize req ctx)
    (ht : cmd.task? = some (ctx.uuidOf task.naturalId)) :
    (∃ edge ∈ req.edges, cmd = saddCommand ctx edge) ∨
      cmd = metaCommand serialize ctx task ∨ cmd = dispatchCommand ctx req.edges task := by
  -- distinct natural ids have distinct ids, so the task is determined
  have hsame : ∀ task' ∈ req.tasks,
      some (ctx.uuidOf task'.naturalId) = some (ctx.uuidOf task.naturalId) → task' = task := by
    intro task' htask' heq
    have hnatural := h.uuidOf_inj (List.mem_map_of_mem htask') (List.mem_map_of_mem htask)
      (Option.some.inj heq)
    exact List.inj_on_of_nodup_map hdistinct htask' htask hnatural
  rcases mem_dagCommands.mp hcmd with hsadd | ⟨task', htask', rfl | rfl⟩
  · exact .inl hsadd
  · rw [task?_metaCommand] at ht
    obtain rfl := hsame task' htask' ht
    exact .inr (.inl rfl)
  · rw [task?_dispatchCommand] at ht
    obtain rfl := hsame task' htask' ht
    exact .inr (.inr rfl)

/-- Which SADDs belong to a DAG. -/
theorem sadd_mem_dagCommands {t c : String} :
    .sadd (.children t) c ∈ dagCommands serialize req ctx ↔ c ∈ dagGraph ctx req t := by
  rw [mem_dagCommands, dagGraph, mem_edgeChildren]
  constructor
  · rintro (⟨edge, hedge, heq⟩ | ⟨task, -, heq | heq⟩)
    · obtain ⟨hkey, rfl⟩ := PipeCmd.sadd.inj heq
      exact ⟨edge, hedge, (Key.children.inj hkey).symm, rfl⟩
    · cases heq
    · unfold dispatchCommand at heq
      split at heq <;> cases heq
  · rintro ⟨edge, hedge, rfl, rfl⟩
    exact .inl ⟨edge, hedge, rfl⟩

end Owner

/-! ## The commands of a batch -/

/-- The commands of a batch, the EXPIREs left out. -/
def batchCommands (serialize : PbTask → List UInt8) (subs : List Submission) : List PipeCmd :=
  subs.flatMap fun sub => dagCommands serialize sub.req sub.item.ctx

/-- The command touches nothing of the submission. -/
structure Elsewhere (sub : Submission) (cmd : PipeCmd) : Prop where
  task : ∀ u ∈ sub.uuids, cmd.task? ≠ some u.text
  deps : cmd.key ≠ .deps sub.jobId.text

section Batch

variable {serialize : PbTask → List UInt8} {subs : List Submission} {db : Db}

/-- The commands of one submission concern no other. -/
theorem elsewhere_of_ne {sub other : Submission} (hl : other.req.Listed)
    (hjob : other.jobId ≠ sub.jobId) (huuids : List.Disjoint other.uuids sub.uuids)
    {cmd : PipeCmd} (hcmd : cmd ∈ dagCommands serialize other.req other.item.ctx) :
    Elsewhere sub cmd where
  task u hu heq := by
    obtain ⟨t, ht, htask⟩ := task?_dagCommands hl hcmd
    obtain ⟨v, hv, rfl⟩ := Submission.mem_uuids ht
    have huv : v = u := Uuid.text_inj.mp (Option.some.inj (htask.symm.trans heq))
    exact huuids hv (huv ▸ hu)
  deps heq := by
    -- only a waiting task's HSET goes to a dependency hash, and to its own job's
    have hhash : ∀ job, cmd.key = .deps job → job = other.jobId.text := by
      intro job hkey
      rcases mem_dagCommands.mp hcmd with ⟨edge, -, rfl⟩ | ⟨task, -, rfl | rfl⟩
      · exact nomatch hkey
      · exact nomatch hkey
      · unfold dispatchCommand at hkey
        split at hkey
        · exact (Key.deps.inj hkey).symm
        · exact nomatch hkey
    exact hjob (Uuid.text_inj.mp (hhash _ heq)).symm

/-- Two submissions of a batch have nothing in common. -/
theorem FreshIds.disjoint (hfresh : FreshIds subs db) {sub other : Submission} (hsub : sub ∈ subs)
    (hother : other ∈ subs) (hne : other ≠ sub) :
    other.jobId ≠ sub.jobId ∧ List.Disjoint other.uuids sub.uuids := by
  constructor
  · exact fun heq => hne (List.inj_on_of_nodup_map hfresh.jobs hother hsub heq)
  · have : Std.Symm (Function.onFun List.Disjoint Submission.uuids) :=
      ⟨fun a b h => List.Disjoint.symm h⟩
    exact hfresh.uuids_disjoint.forall hother hsub hne

/-- A command of the batch does not concern a submission, or one of its own. -/
theorem batch_elsewhere (hfresh : FreshIds subs db) (hlisted : ∀ sub ∈ subs, sub.req.Listed)
    {sub : Submission} (hsub : sub ∈ subs) {cmd : PipeCmd}
    (hcmd : cmd ∈ batchCommands serialize subs) :
    Elsewhere sub cmd ∨ cmd ∈ dagCommands serialize sub.req sub.item.ctx := by
  obtain ⟨other, hother, hcmd⟩ := List.mem_flatMap.mp hcmd
  by_cases hne : other = sub
  · exact .inr (hne ▸ hcmd)
  · obtain ⟨hjob, huuids⟩ := hfresh.disjoint hsub hother hne
    exact .inl (elsewhere_of_ne (hlisted other hother) hjob huuids hcmd)

/-- The task of an entry a command adds. -/
def PipeCmd.pushedTask (cmd : PipeCmd) : Option String :=
  cmd.pushed.bind fun fields => StreamEntry.taskId? ⟨0, fields⟩

theorem pushedTask_dispatchCommand (ctx : DagCommitContext) (edges : List TaskEdge)
    (task : PbTask) : (dispatchCommand ctx edges task).pushedTask =
      if 0 < inDegree edges task.naturalId then none else some (ctx.uuidOf task.naturalId) := by
  unfold dispatchCommand
  split
  · rfl
  · exact taskId?_toXAddArgs 0 _ _

/-- A DAG pushes some of its tasks, in order. -/
theorem dagCommands_pushed (ctx : DagCommitContext) (req : SubmitDagRequest) :
    ((dagCommands serialize req ctx).filterMap PipeCmd.pushedTask).Sublist (dagIds ctx req) := by
  have hsadd : (req.edges.map (saddCommand ctx)).filterMap PipeCmd.pushedTask = [] := by
    rw [List.filterMap_map, List.filterMap_eq_nil_iff]
    exact fun edge _ => rfl
  unfold dagCommands dagIds
  rw [List.filterMap_append, hsadd, List.nil_append]
  induction req.tasks with
  | nil => exact .slnil
  | cons task rest ih =>
    have hmeta : (metaCommand serialize ctx task).pushedTask = none := rfl
    rw [List.flatMap_cons, List.filterMap_append, List.filterMap_cons_none hmeta, List.map_cons]
    by_cases hwait : 0 < inDegree req.edges task.naturalId
    · rw [List.filterMap_cons_none
        ((pushedTask_dispatchCommand ctx req.edges task).trans (if_pos hwait)), List.filterMap_nil]
      exact ih.cons _
    · rw [List.filterMap_cons_some
        ((pushedTask_dispatchCommand ctx req.edges task).trans (if_neg hwait)), List.filterMap_nil]
      exact ih.cons_cons _

/-- **No task of a batch is pushed twice.** -/
theorem batch_pushed_nodup (hfresh : FreshIds subs db)
    (hdistinct : ∀ sub ∈ subs, sub.req.naturalIds.Nodup) :
    ((batchCommands serialize subs).filterMap PipeCmd.pushedTask).Nodup := by
  refine (hfresh.dagIds_nodup hdistinct).sublist ?_
  unfold batchCommands
  rw [List.filterMap_flatMap]
  exact List.Sublist.flatMap_right subs fun sub _ => dagCommands_pushed sub.item.ctx sub.req

/-- The commands of a DAG differ from each other. -/
theorem dagCommands_nodup {ctx : DagCommitContext} {req : SubmitDagRequest}
    (h : Assigns ctx req) (hl : req.Listed) (hdistinct : req.naturalIds.Nodup) :
    (dagCommands serialize req ctx).Nodup := by
  unfold dagCommands
  rw [List.nodup_append]
  refine ⟨?_, ?_, ?_⟩
  · -- the SADDs: an edge is determined by the ids of its ends
    refine hl.nodup.map_on fun e he e' he' heq => ?_
    obtain ⟨hkey, hmember⟩ := PipeCmd.sadd.inj heq
    have hparent := h.uuidOf_inj (hl.parent e he) (hl.parent e' he') (Key.children.inj hkey)
    have hchild := h.uuidOf_inj (hl.child e he) (hl.child e' he') hmember
    cases e
    cases e'
    exact TaskEdge.mk.injEq .. ▸ ⟨hparent, hchild⟩
  · -- the tasks: two commands each, and no command is about two tasks
    rw [List.nodup_flatMap]
    constructor
    · intro task _
      have hne : metaCommand serialize ctx task ≠ dispatchCommand ctx req.edges task := by
        intro heq
        unfold dispatchCommand at heq
        split at heq <;> exact nomatch heq
      simpa using hne
    · have hids : req.tasks.Pairwise fun a b => a.naturalId ≠ b.naturalId :=
        List.pairwise_map.mp hdistinct
      have hpairs : req.tasks.Pairwise fun a b => a ∈ req.tasks ∧ b ∈ req.tasks :=
        List.pairwise_of_forall_mem_list fun a ha b hb => ⟨ha, hb⟩
      refine (hids.and hpairs).imp ?_
      rintro a b ⟨hne, ha, hb⟩ cmd hcmd hcmd'
      have htask : ∀ {task : PbTask}, cmd ∈ [metaCommand serialize ctx task,
          dispatchCommand ctx req.edges task] → cmd.task? = some (ctx.uuidOf task.naturalId) := by
        intro task hmem
        rcases List.mem_pair.mp hmem with rfl | rfl
        · exact task?_metaCommand task
        · exact task?_dispatchCommand req.edges task
      have hid := Option.some.inj ((htask hcmd).symm.trans (htask hcmd'))
      exact hne (h.uuidOf_inj (List.mem_map_of_mem ha) (List.mem_map_of_mem hb) hid)
  · intro cmd hsadd cmd' htask heq
    subst heq
    obtain ⟨edge, -, rfl⟩ := List.mem_map.mp hsadd
    obtain ⟨task, -, hpair⟩ := List.mem_flatMap.mp htask
    rcases List.mem_pair.mp hpair with heq | heq
    · exact nomatch heq
    · unfold dispatchCommand at heq
      split at heq <;> exact nomatch heq

/-- So do the commands of a batch. -/
theorem batchCommands_nodup (hfresh : FreshIds subs db)
    (hlisted : ∀ sub ∈ subs, sub.req.Listed)
    (hdistinct : ∀ sub ∈ subs, sub.req.naturalIds.Nodup) :
    (batchCommands serialize subs).Nodup := by
  unfold batchCommands
  rw [List.nodup_flatMap]
  constructor
  · intro sub hsub
    exact dagCommands_nodup (hfresh.assigns hsub) (hlisted sub hsub) (hdistinct sub hsub)
  · have hpairs : subs.Pairwise fun a b => a ∈ subs ∧ b ∈ subs :=
      List.pairwise_of_forall_mem_list fun a ha b hb => ⟨ha, hb⟩
    refine (hfresh.uuids_disjoint.and hpairs).imp ?_
    rintro a b ⟨hdisjoint, ha, hb⟩ cmd hcmd hcmd'
    obtain ⟨t, ht, htask⟩ := task?_dagCommands (hlisted a ha) hcmd
    obtain ⟨t', ht', htask'⟩ := task?_dagCommands (hlisted b hb) hcmd'
    obtain rfl := Option.some.inj (htask.symm.trans htask')
    obtain ⟨u, hu, rfl⟩ := Submission.mem_uuids ht
    obtain ⟨v, hv, heq⟩ := Submission.mem_uuids ht'
    exact hdisjoint hu (Uuid.text_inj.mp heq ▸ hv)

end Batch

/-! ## Published exactly if all commands ran -/

section Iff

variable {serialize : PbTask → List UInt8} {subs : List Submission} {db : Db} {sub : Submission}
  {done : List PipeCmd} {r : Redis}

/-- A value that is found once, by any of its elements. -/
private theorem filter_once {α β : Type} [DecidableEq β] {g : α → Option β} {l : List α} {a : α}
    {t : β} (hnodup : (l.filterMap g).Nodup) (ha : g a = some t)
    (hall : ∀ b ∈ l, g b = some t → b = a) :
    l.filter (fun b => g b = some t) = [a] ∧ a ∈ l ∨
      l.filter (fun b => g b = some t) = [] ∧ a ∉ l := by
  induction l with
  | nil => exact .inr ⟨rfl, List.not_mem_nil⟩
  | cons b rest ih =>
    obtain ⟨hfirst, hrest⟩ := List.forall_mem_cons.mp hall
    by_cases hb : g b = some t
    · obtain rfl := hfirst hb
      rw [List.filterMap_cons_some hb, List.nodup_cons] at hnodup
      have hnone : rest.filter (fun c => g c = some t) = [] := by
        rw [List.filter_eq_nil_iff]
        intro c hc hg
        exact hnodup.1 (List.mem_filterMap.mpr ⟨c, hc, of_decide_eq_true hg⟩)
      refine .inl ⟨?_, List.mem_cons_self⟩
      rw [List.filter_cons_of_pos (by simpa using hb), hnone]
    · have hne : a ≠ b := fun heq => hb (heq ▸ ha)
      have hrestNodup : (rest.filterMap g).Nodup :=
        hnodup.sublist ((List.sublist_cons_self b rest).filterMap g)
      rw [List.filter_cons_of_neg (by simpa using hb), List.mem_cons, or_iff_right hne]
      exact ih hrestNodup hrest

/-- The server executed some commands of a batch, in order, and EXPIREs; the
batch has fresh ids, also for Redis, and its graphs are well formed. -/
structure PartOf (serialize : PbTask → List UInt8) (subs : List Submission) (db : Db) (r : Redis)
    (done : List PipeCmd) : Prop where
  fresh : FreshIds subs db
  distinct : ∀ sub ∈ subs, sub.req.naturalIds.Nodup
  listed : ∀ sub ∈ subs, sub.req.Listed
  absent : ∀ sub ∈ subs, NotInRedis sub r
  tasks : r.IsStream kTasks
  batch : (done.filter fun cmd => !cmd.isExpire).Sublist (batchCommands serialize subs)

namespace PartOf

variable (h : PartOf serialize subs db r done)

include h

/-- An executed command that is no EXPIRE belongs to the batch. -/
theorem mem {cmd : PipeCmd} (hcmd : cmd ∈ done) (hexpire : cmd.isExpire = false) :
    cmd ∈ batchCommands serialize subs :=
  h.batch.subset (List.mem_filter.mpr ⟨hcmd, by simp [hexpire]⟩)

/-- The keys of fresh ids are free, so no command meets a wrong type. -/
theorem fits : ∀ cmd ∈ done, cmd.Fits r := by
  intro cmd hcmd
  by_cases hexpire : cmd.isExpire = true
  · cases cmd with
    | expire key ttl => trivial
    | _ => simp at hexpire
  · obtain ⟨sub, hsub, hown⟩ := List.mem_flatMap.mp (h.mem hcmd (by simpa using hexpire))
    refine dagCommand_fits serialize (h.listed sub hsub) (fun t ht => ?_)
      (Redis.isHash_of_none (h.absent sub hsub).deps) h.tasks hown
    obtain ⟨u, hu, rfl⟩ := Submission.mem_uuids ht
    exact Redis.isSet_of_none ((h.absent sub hsub).children u hu)

/-- An EXPIRE pushes nothing, so what is pushed is pushed once. -/
theorem pushed_nodup : (done.filterMap PipeCmd.pushedTask).Nodup := by
  have hkeep : done.filterMap PipeCmd.pushedTask =
      (done.filter fun cmd => !cmd.isExpire).filterMap PipeCmd.pushedTask := by
    rw [List.filterMap_filter]
    refine List.filterMap_congr fun cmd _ => ?_
    cases cmd <;> rfl
  rw [hkeep]
  exact (batch_pushed_nodup h.fresh h.distinct).sublist (h.batch.filterMap _)

/-- The executed commands about a task of a submission are commands of its DAG. -/
theorem own (hsub : sub ∈ subs) {cmd : PipeCmd} (hcmd : cmd ∈ done)
    (hexpire : cmd.isExpire = false) {t : String} (ht : t ∈ dagIds sub.item.ctx sub.req)
    (htask : cmd.task? = some t) : cmd ∈ dagCommands serialize sub.req sub.item.ctx := by
  obtain ⟨u, hu, rfl⟩ := Submission.mem_uuids ht
  exact (batch_elsewhere h.fresh h.listed hsub (h.mem hcmd hexpire)).resolve_left
    fun helse => helse.task u hu htask

end PartOf

/-- The payload in a task's meta command. -/
theorem metaCommand_eq {task : PbTask} (htask : task ∈ sub.req.tasks) :
    metaCommand serialize sub.item.ctx task =
      .set (.taskMeta (sub.item.ctx.uuidOf task.naturalId)) (serialize (internalTask sub.item.ctx
        (sub.item.ctx.uuidOf task.naturalId) task)) pipelineTtl := by
  obtain ⟨u, -, hu⟩ := sub.naturalToUuid (List.mem_map_of_mem htask)
  unfold metaCommand
  rw [DagCommitContext.uuidOf_eq _ hu, hu]
  rfl

variable (h : PartOf serialize subs db r done) (hsub : sub ∈ subs)

include h hsub

/-- The payload of a task is there exactly if its SET was executed. -/
theorem payload_iff {task : PbTask} (htask : task ∈ sub.req.tasks) :
    payloadAt (execPipeline done r) (sub.item.ctx.uuidOf task.naturalId) = some (serialize
        (internalTask sub.item.ctx (sub.item.ctx.uuidOf task.naturalId) task)) ↔
      metaCommand serialize sub.item.ctx task ∈ done := by
  have hassigns := h.fresh.assigns hsub
  have hid : sub.item.ctx.uuidOf task.naturalId ∈ dagIds sub.item.ctx sub.req :=
    List.mem_map_of_mem htask
  -- a SET of this key is the task's own
  have hown : ∀ bytes ttl, .set (.taskMeta (sub.item.ctx.uuidOf task.naturalId)) bytes ttl ∈ done →
      .set (.taskMeta (sub.item.ctx.uuidOf task.naturalId)) bytes ttl =
        metaCommand serialize sub.item.ctx task := by
    intro bytes ttl hmem
    have hcmd := h.own hsub hmem rfl hid rfl
    rcases dagCommands_of_task hassigns (h.distinct sub hsub) htask hcmd rfl with
      ⟨edge, -, heq⟩ | heq | heq
    · exact nomatch heq
    · exact heq
    · unfold dispatchCommand at heq
      split at heq <;> exact nomatch heq
  rw [metaCommand_eq htask] at hown ⊢
  rcases execPipeline_payload h.fits fun bytes ttl hmem =>
    (PipeCmd.set.inj (hown bytes ttl hmem)).2.1 with ⟨hpay, ttl, hmem⟩ | ⟨hnone, hpay⟩
  · rw [hpay, ← hown _ _ hmem]
    exact iff_of_true rfl hmem
  · obtain ⟨u, hu, hut⟩ := Submission.mem_uuids hid
    have hbefore : payloadAt r (sub.item.ctx.uuidOf task.naturalId) = none :=
      payloadAt_of_none (by rw [hut]; exact (h.absent sub hsub).metas u hu)
    rw [hpay, hbefore]
    exact iff_of_false (by simp) (hnone _ _)

/-- An executed counter or stream command about a task is the task's own. -/
private theorem dispatch_own {task : PbTask} (htask : task ∈ sub.req.tasks) {cmd : PipeCmd}
    (hcmd : cmd ∈ done) (ht : cmd.task? = some (sub.item.ctx.uuidOf task.naturalId))
    (hkey : cmd.key = .deps sub.jobId.text ∨ cmd.key = .tasks) (hexpire : cmd.isExpire = false) :
    cmd = dispatchCommand sub.item.ctx sub.req.edges task := by
  have hown := h.own hsub hcmd hexpire (List.mem_map_of_mem htask) ht
  rcases dagCommands_of_task (h.fresh.assigns hsub) (h.distinct sub hsub) htask hown ht with
    ⟨edge, -, rfl⟩ | rfl | rfl
  · rcases hkey with hkey | hkey <;> exact nomatch hkey
  · rcases hkey with hkey | hkey <;> exact nomatch hkey
  · rfl

/-- Exactly the executed entry of the task is found in the stream. -/
private theorem entries_cases {task : PbTask} (htask : task ∈ sub.req.tasks) :
    entriesOf (execPipeline done r) (sub.item.ctx.uuidOf task.naturalId) =
        [toXAddArgs (sub.item.ctx.uuidOf task.naturalId) sub.jobId.text] ∧
      dispatchCommand sub.item.ctx sub.req.edges task =
        .xadd .tasks (toXAddArgs (sub.item.ctx.uuidOf task.naturalId) sub.jobId.text) ∧
      dispatchCommand sub.item.ctx sub.req.edges task ∈ done ∨
    entriesOf (execPipeline done r) (sub.item.ctx.uuidOf task.naturalId) = [] ∧
      (0 < inDegree sub.req.edges task.naturalId ∨
        dispatchCommand sub.item.ctx sub.req.edges task ∉ done) := by
  have hid : sub.item.ctx.uuidOf task.naturalId ∈ dagIds sub.item.ctx sub.req :=
    List.mem_map_of_mem htask
  obtain ⟨u, hu, hut⟩ := Submission.mem_uuids hid
  have hbefore : entriesOf r (sub.item.ctx.uuidOf task.naturalId) = [] := by
    rw [hut]
    exact (h.absent sub hsub).entries u hu
  have hmem : ∀ fields, fields ∈ done.filterMap PipeCmd.pushed ↔ .xadd .tasks fields ∈ done := by
    intro fields
    rw [List.mem_filterMap]
    constructor
    · rintro ⟨cmd, hcmd, hpushed⟩
      unfold PipeCmd.pushed at hpushed
      split at hpushed
      · exact Option.some.inj hpushed ▸ hcmd
      · exact nomatch hpushed
    · exact fun hcmd => ⟨_, hcmd, rfl⟩
  have hown : ∀ fields ∈ done.filterMap PipeCmd.pushed,
      StreamEntry.taskId? ⟨0, fields⟩ = some (sub.item.ctx.uuidOf task.naturalId) →
      .xadd .tasks fields = dispatchCommand sub.item.ctx sub.req.edges task := by
    intro fields hfields ht
    exact dispatch_own h hsub htask ((hmem fields).mp hfields)
      ht (.inr rfl) rfl
  rw [execPipeline_entriesOf h.fits, hbefore, List.nil_append]
  by_cases hwait : 0 < inDegree sub.req.edges task.naturalId
  · -- a waiting task is announced by its counter, no entry points to it
    refine .inr ⟨?_, .inl hwait⟩
    rw [List.filter_eq_nil_iff]
    intro fields hfields ht
    have heq := hown fields hfields (of_decide_eq_true ht)
    unfold dispatchCommand at heq
    rw [if_pos hwait] at heq
    exact nomatch heq
  · have hroot : dispatchCommand sub.item.ctx sub.req.edges task =
        .xadd .tasks (toXAddArgs (sub.item.ctx.uuidOf task.naturalId) sub.jobId.text) := by
      unfold dispatchCommand
      rw [if_neg hwait]
      rfl
    have hnodup : ((done.filterMap PipeCmd.pushed).filterMap fun fields =>
        StreamEntry.taskId? ⟨0, fields⟩).Nodup := by
      rw [List.filterMap_filterMap]
      exact h.pushed_nodup
    rw [hroot] at hown ⊢
    rcases filter_once hnodup (taskId?_toXAddArgs 0 _ sub.jobId.text)
      (fun fields hfields ht => (PipeCmd.xadd.inj (hown fields hfields ht)).2) with
      ⟨hfilter, hin⟩ | ⟨hfilter, hnot⟩
    · exact .inl ⟨hfilter, rfl, (hmem _).mp hin⟩
    · exact .inr ⟨hfilter, .inr fun hin => hnot ((hmem _).mpr hin)⟩

/-- The counter of a task is set exactly if its HSET was executed. -/
private theorem counter_cases {task : PbTask} (htask : task ∈ sub.req.tasks) :
    (view sub.jobId.text (execPipeline done r)).counter (sub.item.ctx.uuidOf task.naturalId) =
        some (inDegree sub.req.edges task.naturalId : Int) ∧
      0 < inDegree sub.req.edges task.naturalId ∧
      dispatchCommand sub.item.ctx sub.req.edges task ∈ done ∨
    (view sub.jobId.text (execPipeline done r)).counter (sub.item.ctx.uuidOf task.naturalId) =
        none ∧
      (¬ 0 < inDegree sub.req.edges task.naturalId ∨
        dispatchCommand sub.item.ctx sub.req.edges task ∉ done) := by
  have hbefore : (view sub.jobId.text r).counter (sub.item.ctx.uuidOf task.naturalId) = none := by
    show (r.hashAt (dependencyHash sub.jobId.text)).lookup _ = none
    rw [Redis.hashAt_of_none (h.absent sub hsub).deps]
    rfl
  have hown : ∀ v, .hset (.deps sub.jobId.text) (sub.item.ctx.uuidOf task.naturalId) v ∈ done →
      .hset (.deps sub.jobId.text) (sub.item.ctx.uuidOf task.naturalId) v =
        dispatchCommand sub.item.ctx sub.req.edges task := by
    intro v hmem
    exact dispatch_own h hsub htask hmem rfl (.inl rfl) rfl
  rw [execPipeline_view _ h.fits]
  by_cases hwait : 0 < inDegree sub.req.edges task.naturalId
  · have hset : dispatchCommand sub.item.ctx sub.req.edges task =
        .hset (.deps sub.jobId.text) (sub.item.ctx.uuidOf task.naturalId)
          (inDegree sub.req.edges task.naturalId) := by
      unfold dispatchCommand
      rw [if_pos hwait]
      rfl
    rw [hset] at hown ⊢
    rcases actAll_counter (view sub.jobId.text r)
      (fun v hmem => (PipeCmd.hset.inj (hown v hmem)).2.2) with ⟨hv, hmem⟩ | ⟨hnone, hv⟩
    · exact .inl ⟨hv, hwait, hmem⟩
    · exact .inr ⟨hv.trans hbefore, .inr (hnone _)⟩
  · -- a root has no counter: an HSET of it would be its dispatch command
    have hnone : ∀ v,
        .hset (.deps sub.jobId.text) (sub.item.ctx.uuidOf task.naturalId) v ∉ done := by
      intro v hmem
      have heq := hown v hmem
      unfold dispatchCommand at heq
      rw [if_neg hwait] at heq
      exact nomatch heq
    refine .inr ⟨?_, .inl hwait⟩
    rcases actAll_counter (v := 0) (view sub.jobId.text r) (fun v hmem => absurd hmem (hnone v))
      with ⟨-, hmem⟩ | ⟨-, hv⟩
    · exact absurd hmem (hnone 0)
    · exact hv.trans hbefore

/-- The children of a task are linked exactly if their SADDs were executed. -/
private theorem children_iff {t : String} (ht : t ∈ dagIds sub.item.ctx sub.req) :
    (view sub.jobId.text (execPipeline done r)).children t = dagGraph sub.item.ctx sub.req t ↔
      ∀ c ∈ dagGraph sub.item.ctx sub.req t, .sadd (.children t) c ∈ done := by
  obtain ⟨u, hu, rfl⟩ := Submission.mem_uuids ht
  have hbefore : (view sub.jobId.text r).children u.text = ∅ := by
    show (r.setAt (childrenKey u.text)).members.toFinset = ∅
    rw [Redis.setAt_of_none ((h.absent sub hsub).children u hu)]
    rfl
  have hmem : ∀ c, c ∈ (view sub.jobId.text (execPipeline done r)).children u.text ↔
      .sadd (.children u.text) c ∈ done := by
    intro c
    rw [execPipeline_view _ h.fits, mem_actAll_children, hbefore]
    exact or_iff_right (Finset.notMem_empty c)
  constructor
  · intro heq c hc
    rw [← heq, hmem] at hc
    exact hc
  · intro hall
    ext c
    rw [hmem]
    refine ⟨fun hdone => ?_, hall c⟩
    exact sadd_mem_dagCommands.mp (h.own hsub hdone rfl ht rfl)

/-- **A submission is published exactly if all its commands were executed.** -/
theorem published_iff : Published serialize sub (execPipeline done r) ↔
    ∀ cmd ∈ dagCommands serialize sub.req sub.item.ctx, cmd ∈ done := by
  constructor
  · intro hpub cmd hcmd
    rcases mem_dagCommands.mp hcmd with ⟨edge, hedge, rfl⟩ | ⟨task, htask, rfl | rfl⟩
    · -- an edge
      have hparent := (h.listed sub hsub).parent edge hedge
      have ht : sub.item.ctx.uuidOf edge.parentNaturalId ∈ dagIds sub.item.ctx sub.req :=
        mem_dagIds.mpr ⟨_, hparent, rfl⟩
      exact (children_iff h hsub ht).mp (hpub.children _ ht) _
        (mem_edgeChildren.mpr ⟨edge, hedge, rfl, rfl⟩)
    · -- a payload
      exact (payload_iff h hsub htask).mp (hpub.payloads task htask)
    · -- a counter or a stream entry
      by_cases hwait : 0 < inDegree sub.req.edges task.naturalId
      · have hv := hpub.counters task htask
        rw [if_pos hwait] at hv
        rcases counter_cases h hsub htask with
          ⟨-, -, hmem⟩ | ⟨hnone, -⟩
        · exact hmem
        · exact nomatch hv.symm.trans hnone
      · have hentry := hpub.entries task htask
        rw [if_neg hwait] at hentry
        rcases entries_cases h hsub htask with
          ⟨-, -, hmem⟩ | ⟨hnone, -⟩
        · exact hmem
        · exact nomatch hentry.symm.trans hnone
  · intro hall
    refine ⟨fun t ht => ?_, fun task htask => ?_, fun task htask => ?_, fun task htask => ?_⟩
    · exact (children_iff h hsub ht).mpr fun c hc =>
        hall _ (sadd_mem_dagCommands.mpr hc)
    · have hmem := hall _ (mem_dagCommands.mpr (.inr ⟨task, htask, .inr rfl⟩))
      rcases counter_cases h hsub htask with
        ⟨hv, hwait, -⟩ | ⟨hv, hroot | hnot⟩
      · rw [hv, if_pos hwait]
      · rw [hv, if_neg hroot]
      · exact absurd hmem hnot
    · exact (payload_iff h hsub htask).mpr
        (hall _ (mem_dagCommands.mpr (.inr ⟨task, htask, .inl rfl⟩)))
    · have hmem := hall _ (mem_dagCommands.mpr (.inr ⟨task, htask, .inr rfl⟩))
      rcases entries_cases h hsub htask with
        ⟨hentry, hroot, -⟩ | ⟨hentry, hwait | hnot⟩
      · have hnot : ¬ 0 < inDegree sub.req.edges task.naturalId := by
          intro hwait
          unfold dispatchCommand at hroot
          rw [if_pos hwait] at hroot
          exact nomatch hroot
        rw [hentry, if_neg hnot]
      · rw [hentry, if_pos hwait]
      · exact absurd hmem hnot

end Iff

/-! ## Commands about other submissions -/

section Frame

variable {serialize : PbTask → List UInt8} {sub : Submission} {cmds : List PipeCmd} {r : Redis}

/-- Nothing of the pipeline, the EXPIREs aside, concerns the submission. -/
def AllElsewhere (sub : Submission) (cmds : List PipeCmd) : Prop :=
  ∀ cmd ∈ cmds, cmd.isExpire = true ∨ Elsewhere sub cmd

/-- A command to a key of a task is about that task. -/
theorem task?_of_key {cmd : PipeCmd} (hexpire : cmd.isExpire = false) (hfits : cmd.Fits r)
    {t : String} (hkey : cmd.key = .children t ∨ cmd.key = .taskMeta t) : cmd.task? = some t := by
  cases cmd with
  | sadd key member =>
    obtain ⟨-, taskId, rfl⟩ := hfits
    rcases hkey with hkey | hkey
    · exact congrArg some (Key.children.inj hkey)
    · exact nomatch hkey
  | set key bytes ttl =>
    obtain ⟨taskId, rfl⟩ := hfits
    rcases hkey with hkey | hkey
    · exact nomatch hkey
    · exact congrArg some (Key.taskMeta.inj hkey)
  | hset key field value =>
    obtain ⟨-, job, rfl⟩ := hfits
    rcases hkey with hkey | hkey <;> exact nomatch hkey
  | xadd key fields =>
    obtain ⟨-, rfl⟩ := hfits
    rcases hkey with hkey | hkey <;> exact nomatch hkey
  | expire key ttl => simp at hexpire

/-- It adds no entry for a task of the submission. -/
theorem AllElsewhere.entriesOf (h : AllElsewhere sub cmds) (hfits : ∀ cmd ∈ cmds, cmd.Fits r)
    {u : Uuid} (hu : u ∈ sub.uuids) :
    entriesOf (execPipeline cmds r) u.text = DistTaskSystem.entriesOf r u.text := by
  rw [execPipeline_entriesOf hfits, List.append_right_eq_self, List.filter_eq_nil_iff]
  intro fields hfields ht
  obtain ⟨cmd, hcmd, hpushed⟩ := List.mem_filterMap.mp hfields
  unfold PipeCmd.pushed at hpushed
  split at hpushed
  · obtain rfl := Option.some.inj hpushed
    rcases h _ hcmd with hexpire | helse
    · exact nomatch hexpire
    · exact helse.task u hu (of_decide_eq_true ht)
  · exact nomatch hpushed

/-- What Redis knows nothing of stays unknown. -/
theorem NotInRedis.frame (habsent : NotInRedis sub r) (hfits : ∀ cmd ∈ cmds, cmd.Fits r)
    (h : AllElsewhere sub cmds) : NotInRedis sub (execPipeline cmds r) := by
  have hkeys : ∀ {k : Key}, (∀ cmd ∈ cmds, cmd.isExpire = false → Elsewhere sub cmd → cmd.key ≠ k) →
      r.keys k.text = none → (execPipeline cmds r).keys k.text = none := by
    intro k hk hnone
    refine execPipeline_none hfits (fun cmd hcmd => ?_) hnone
    by_cases hexpire : cmd.isExpire = true
    · exact .inl hexpire
    · exact .inr (hk cmd hcmd (by simpa using hexpire) ((h cmd hcmd).resolve_left hexpire))
  refine ⟨fun u hu => hkeys ?_ (habsent.children u hu), fun u hu => hkeys ?_ (habsent.metas u hu),
    hkeys ?_ habsent.deps, fun u hu => ?_⟩
  · exact fun cmd hcmd hexpire helse hkey =>
      helse.task u hu (task?_of_key hexpire (hfits cmd hcmd) (.inl hkey))
  · exact fun cmd hcmd hexpire helse hkey =>
      helse.task u hu (task?_of_key hexpire (hfits cmd hcmd) (.inr hkey))
  · exact fun cmd _ _ helse => helse.deps
  · rw [h.entriesOf hfits hu]
    exact habsent.entries u hu

/-- What is published stays published. -/
theorem Published.frame (hpub : Published serialize sub r) (hfits : ∀ cmd ∈ cmds, cmd.Fits r)
    (h : AllElsewhere sub cmds) : Published serialize sub (execPipeline cmds r) := by
  have hno : ∀ {cmd : PipeCmd} {t : String}, cmd ∈ cmds → cmd.isExpire = false →
      t ∈ dagIds sub.item.ctx sub.req → cmd.task? ≠ some t := by
    intro cmd t hcmd hexpire ht
    obtain ⟨u, hu, rfl⟩ := Submission.mem_uuids ht
    exact ((h cmd hcmd).resolve_left (by simp [hexpire])).task u hu
  have hlisted : ∀ task ∈ sub.req.tasks,
      sub.item.ctx.uuidOf task.naturalId ∈ dagIds sub.item.ctx sub.req :=
    fun task htask => List.mem_map_of_mem htask
  refine ⟨fun t ht => ?_, fun task htask => ?_, fun task htask => ?_, fun task htask => ?_⟩
  · rw [← hpub.children t ht, execPipeline_view _ hfits]
    ext c
    rw [mem_actAll_children, or_iff_left fun hmem => hno hmem rfl ht rfl]
  · rw [← hpub.counters task htask, execPipeline_view _ hfits]
    have hnone : ∀ v, .hset (.deps sub.jobId.text) (sub.item.ctx.uuidOf task.naturalId) v ∉ cmds :=
      fun v hmem => hno hmem rfl (hlisted task htask) rfl
    rcases actAll_counter (v := 0) (view sub.jobId.text r) (fun v hmem => absurd hmem (hnone v))
      with ⟨-, hmem⟩ | ⟨-, hv⟩
    · exact absurd hmem (hnone 0)
    · exact hv
  · rw [← hpub.payloads task htask]
    have hnone : ∀ bytes ttl,
        .set (.taskMeta (sub.item.ctx.uuidOf task.naturalId)) bytes ttl ∉ cmds :=
      fun bytes ttl hmem => hno hmem rfl (hlisted task htask) rfl
    rcases execPipeline_payload hfits
      (fun bytes ttl hmem => absurd hmem (hnone bytes ttl)) with ⟨-, ttl, hmem⟩ | ⟨-, hpay⟩
    · exact absurd hmem (hnone [] ttl)
    · exact hpay
  · rw [← hpub.entries task htask]
    obtain ⟨u, hu, hut⟩ := Submission.mem_uuids (hlisted task htask)
    rw [hut]
    exact h.entriesOf hfits hu

end Frame

end DistTaskSystem
