import DistTaskSystem.Guarantees.PoisonTask

/-!
# DTS — a task on its way to a worker

A task is converted five times between the client that adds it and the worker
that executes it: `TaskToProto` in `BuildProto`, the copy of the submitter,
`FromMetaBinary`, `TaskToProto` in `DoDispatch` and `TaskFromProto` in
`RunTask`. The two converters carry every field. The submitter's copy sets eight
fields and leaves the client id, the resources and the shard of the task behind,
so that the worker gets these as the empty message has them.

The libraries are taken to lose nothing of the one task and its one message
(`Lossless`).

## Results

* `runTask_published`      — the task a worker is handed, field by field.
* `received_asSubmitted_iff` — what is lost of it.
* `handed_as_submitted_iff` — when a task arrives as it was submitted.
-/

namespace DistTaskSystem

-- ---------------------------------------------------------------------------
-- What arrives
-- ---------------------------------------------------------------------------

/-- The message of a task survives the wire and the meta, and its parameters survive
their text. -/
structure Lossless (env : LoopEnv) (serialize : PbTask → List UInt8) (params : Json)
    (proto : PbTask) : Prop where
  text : env.parse (env.dump params) = .ok params
  textNonempty : env.dump params ≠ ""
  message : env.deserialize (serialize proto) = some proto
  bytesNonempty : serialize proto ≠ []

/-- The message that is published for a task. -/
def publishedMessage (dump : Json → String) (ctx : DagCommitContext) (uuid : String) (t : Task) :
    PbTask :=
  internalTask ctx uuid (taskToProto dump t)

/-- What a worker gets of a task. -/
def received (ctx : DagCommitContext) (uuid : String) (t : Task) : Task where
  jobId := ctx.jobId
  taskId := uuid
  naturalId := t.naturalId
  priority := t.priority
  funcName := t.funcName
  funcParams := t.funcParams
  shard := {}
  timeoutMs := t.timeoutMs
  maxRetry := t.maxRetry
  result := .object []

/-- The worker has the task of the client, under the ids of the submission. -/
structure AsSubmitted (jobId uuid : String) (t handed : Task) : Prop where
  naturalId : handed.naturalId = t.naturalId
  clientId : handed.clientId = t.clientId
  priority : handed.priority = t.priority
  funcName : handed.funcName = t.funcName
  funcParams : handed.funcParams = t.funcParams
  required : handed.required = t.required
  shard : handed.shard = t.shard
  timeoutMs : handed.timeoutMs = t.timeoutMs
  maxRetry : handed.maxRetry = t.maxRetry
  taskId : handed.taskId = uuid
  jobId : handed.jobId = jobId

section Conversions

variable {env : LoopEnv} {serialize : PbTask → List UInt8} {ctx : DagCommitContext}
  {uuid : String} {t handed task : Task}

/-- The second half of the way starts from what the first half has left. -/
theorem taskFromProto_published (hlossless : Lossless env serialize t.funcParams
      (publishedMessage env.dump ctx uuid t)) :
    taskFromProto env.parse (publishedMessage env.dump ctx uuid t) =
      .ok (received ctx uuid t) := by
  have hne : (publishedMessage env.dump ctx uuid t).funcParams ≠ "" := hlossless.textNonempty
  have hparse : env.parse (publishedMessage env.dump ctx uuid t).funcParams = .ok t.funcParams :=
    hlossless.text
  rw [taskFromProto, if_neg hne, hparse]
  rfl

/-- What has arrived once arrives unchanged. -/
theorem taskFromProto_received (hne : env.dump t.funcParams ≠ "")
    (htext : env.parse (env.dump t.funcParams) = .ok t.funcParams) :
    taskFromProto env.parse (taskToProto env.dump (received ctx uuid t)) =
      .ok (received ctx uuid t) := by
  have hne' : (taskToProto env.dump (received ctx uuid t)).funcParams ≠ "" := hne
  have hparse : env.parse (taskToProto env.dump (received ctx uuid t)).funcParams =
      .ok t.funcParams := htext
  rw [taskFromProto, if_neg hne', hparse]
  rfl

theorem fromMetaBinary_published (hlossless : Lossless env serialize t.funcParams
      (publishedMessage env.dump ctx uuid t)) :
    fromMetaBinary env.deserialize env.parse (serialize (publishedMessage env.dump ctx uuid t)) =
      .ok (some (received ctx uuid t)) := by
  rw [fromMetaBinary, if_neg hlossless.bytesNonempty, hlossless.message]
  show (taskFromProto env.parse (publishedMessage env.dump ctx uuid t)).map some = _
  rw [taskFromProto_published hlossless]
  rfl

/-- **The task a worker is handed.** -/
theorem runTask_published (hlossless : Lossless env serialize t.funcParams
      (publishedMessage env.dump ctx uuid t)) (streamId : Nat) (worker : WorkerInfo)
    {hasSubmitter : Bool} {faults : RunTaskFaults} :
    (runTask env.parse hasSubmitter faults
      (Dispatch.request env ⟨received ctx uuid t, streamId, worker⟩)).2 = some handed ↔
      (hasSubmitter = true ∧ faults.convert = false) ∧ handed = received ctx uuid t := by
  have hparsed : taskFromProto env.parse (taskToProto env.dump (received ctx uuid t)) =
      .ok (received ctx uuid t) :=
    taskFromProto_received hlossless.textNonempty hlossless.text
  rw [Dispatch.request, runTask_handed, hparsed, Except.ok.injEq, eq_comm (a := handed)]
  refine and_congr_left fun _ => ⟨fun h => ⟨h.submitter, h.convert⟩, fun h => ?_⟩
  exact ⟨h.1, h.2, _, hparsed⟩

/-- **What is lost**: exactly what the submitter does not copy. -/
theorem received_asSubmitted_iff : AsSubmitted ctx.jobId uuid t (received ctx uuid t) ↔
    t.clientId = "" ∧ t.required = {} ∧ t.shard = {} := by
  constructor
  · intro h
    exact ⟨h.clientId.symm, h.required.symm, h.shard.symm⟩
  · rintro ⟨hclient, hrequired, hshard⟩
    exact ⟨rfl, hclient.symm, rfl, rfl, rfl, hrequired.symm, hshard.symm, rfl, rfl, rfl, rfl⟩

end Conversions

-- ---------------------------------------------------------------------------
-- From the builder to the worker
-- ---------------------------------------------------------------------------

section Transport

variable {env : LoopEnv} {serialize : PbTask → List UInt8} {b : DagBuilder}
  {req : SubmitDagRequest} {jobId : Uuid} {uuids : List Uuid} {cmds : List PipeCmd}
  {key uuid : String} {t : Task}

/-- The publication stores the message of every task of the builder. -/
theorem published_mem (hbuild : b.buildProto env.dump = .ok req)
    (hcmds : appendDagToPipeline serialize req (commitContext req jobId uuids) = .ok cmds)
    (ht : (key, t) ∈ b.tasksMap)
    (huuid : (commitContext req jobId uuids).naturalToUuid t.naturalId = some uuid) :
    .set (.taskMeta uuid)
      (serialize (publishedMessage env.dump (commitContext req jobId uuids) uuid t))
      pipelineTtl ∈ cmds := by
  obtain ⟨-, hfilter⟩ := appendDag_ok
    (show (commitContext req jobId uuids).jobId ≠ "" from Uuid.text_ne_empty jobId) hcmds
  have hlisted : taskToProto env.dump t ∈ req.tasks := by
    rw [(DagBuilder.buildProto_ok hbuild).2.2.1]
    exact List.mem_map.mpr ⟨(key, t), ht, rfl⟩
  have hmeta : metaCommand serialize (commitContext req jobId uuids) (taskToProto env.dump t) =
      .set (.taskMeta uuid)
        (serialize (publishedMessage env.dump (commitContext req jobId uuids) uuid t))
        pipelineTtl := by
    have huuid' : (commitContext req jobId uuids).naturalToUuid
        (taskToProto env.dump t).naturalId = some uuid := huuid
    rw [metaCommand, DagCommitContext.uuidOf_eq _ huuid', huuid']
    rfl
  rw [← hmeta]
  refine List.mem_of_mem_filter (p := fun cmd => !cmd.isExpire) ?_
  rw [hfilter, dagCommands]
  exact List.mem_append_right _ (List.mem_flatMap.mpr ⟨_, hlisted, List.mem_cons_self⟩)

/-- **A task reaches its worker as it was submitted** exactly if it has no client id,
asks for no resources and is the shard 0 of 0. Whatever the publication of a built
request stores for the task is read back as some task, every worker with a
submitter is handed one, and that is all of the task but these three fields. -/
theorem handed_as_submitted_iff (hbuild : b.buildProto env.dump = .ok req)
    (hcmds : appendDagToPipeline serialize req (commitContext req jobId uuids) = .ok cmds)
    (ht : (key, t) ∈ b.tasksMap)
    (huuid : (commitContext req jobId uuids).naturalToUuid t.naturalId = some uuid)
    (hlossless : Lossless env serialize t.funcParams
      (publishedMessage env.dump (commitContext req jobId uuids) uuid t)) :
    ∃ payload task, .set (.taskMeta uuid) payload pipelineTtl ∈ cmds ∧
      fromMetaBinary env.deserialize env.parse payload = .ok (some task) ∧
      ∀ streamId worker,
        (∃ handed, (runTask env.parse true {}
          (Dispatch.request env ⟨task, streamId, worker⟩)).2 = some handed) ∧
        ∀ hasSubmitter faults handed, (runTask env.parse hasSubmitter faults
          (Dispatch.request env ⟨task, streamId, worker⟩)).2 = some handed →
          (AsSubmitted jobId.text uuid t handed ↔
            t.clientId = "" ∧ t.required = {} ∧ t.shard = {}) := by
  refine ⟨_, _, published_mem hbuild hcmds ht huuid, fromMetaBinary_published hlossless, ?_⟩
  intro streamId worker
  refine ⟨⟨_, (runTask_published hlossless streamId worker).mpr ⟨⟨rfl, rfl⟩, rfl⟩⟩, ?_⟩
  intro hasSubmitter faults handed hhanded
  obtain ⟨-, rfl⟩ := (runTask_published hlossless streamId worker).mp hhanded
  show AsSubmitted (commitContext req jobId uuids).jobId uuid t _ ↔ _
  exact received_asSubmitted_iff

end Transport

-- ---------------------------------------------------------------------------
-- One task, with and without a shard
-- ---------------------------------------------------------------------------

/-- What `AddTask` makes, and the same task after its shard is set to nothing. -/
def addedTask : Task := { naturalId := "a", funcName := "add", funcParams := .number 1 }

def bareTask : Task := { addedTask with shard := {} }

/-- A client with one task. -/
def singleBuilder (t : Task) : DagBuilder where
  idempotencyKey := "single"
  tasksMap := [("a", t)]
  taskEdges := []
  keyNonempty := by decide
  sorted := List.pairwise_singleton _ _
  parentListed := nofun
  childListed := nofun
  noLoop := nofun

def singleRequest (t : Task) : SubmitDagRequest where
  idempotencyKey := "single"
  tasks := [taskToProto (fun _ => "1") t]
  edges := []
  edgesSize := SubmitDagRequest.edgesSize_nil

def singleContext (t : Task) : DagCommitContext := commitContext (singleRequest t) jobX [taskA]

/-- The message as it is serialized. -/
def singleBytes : List UInt8 :=
  10 :: 36 :: (taskA.text.toUTF8.toList ++ [42, 3, 97, 100, 100, 50, 1, 49, 72, 176, 234, 1, 80, 3,
    138, 1, 1, 97, 146, 1, 36] ++ jobX.text.toUTF8.toList)

/-- The libraries, on the one message there is. -/
def singleEnv (t : Task) : LoopEnv :=
  { numeralEnv with
    deserialize := fun binaryData =>
      if binaryData = singleBytes then
        some (publishedMessage (fun _ => "1") (singleContext t) taskA.text t)
      else none }

theorem singleEnv_lossless (t : Task) (hparams : t.funcParams = .number 1) :
    Lossless (singleEnv t) (fun _ => singleBytes) t.funcParams
      (publishedMessage (singleEnv t).dump (singleContext t) taskA.text t) where
  text := by
    rw [hparams]
    simp [singleEnv, numeralEnv]
  textNonempty := show "1" ≠ "" by decide
  message := if_pos rfl
  bytesNonempty := List.cons_ne_nil _ _

theorem single_resolves (t : Task) :
    (singleContext t).naturalToUuid t.naturalId = some taskA.text := by
  show Function.update (fun _ => none) t.naturalId (some taskA.text) t.naturalId = _
  exact Function.update_self ..

theorem handed_as_submitted_iff_bare : ∃ cmds,
    appendDagToPipeline (fun _ => singleBytes) (singleRequest bareTask) (singleContext bareTask) =
      .ok cmds ∧
    ∃ payload task, .set (.taskMeta taskA.text) payload pipelineTtl ∈ cmds ∧
      fromMetaBinary (singleEnv bareTask).deserialize (singleEnv bareTask).parse payload =
        .ok (some task) ∧
      ∀ streamId worker, ∃ handed, (runTask (singleEnv bareTask).parse true {}
          (Dispatch.request (singleEnv bareTask) ⟨task, streamId, worker⟩)).2 = some handed ∧
        AsSubmitted jobX.text taskA.text bareTask handed := by
  refine ⟨_, rfl, ?_⟩
  obtain ⟨payload, task, hset, hmeta, hrun⟩ := @handed_as_submitted_iff (singleEnv bareTask)
    (fun _ => singleBytes) (singleBuilder bareTask) (singleRequest bareTask) jobX [taskA] _ "a"
    taskA.text bareTask rfl rfl (List.mem_singleton.mpr rfl) (single_resolves bareTask)
    (singleEnv_lossless bareTask rfl)
  refine ⟨payload, task, hset, hmeta, fun streamId worker => ?_⟩
  obtain ⟨⟨handed, hhanded⟩, hiff⟩ := hrun streamId worker
  exact ⟨handed, hhanded, (hiff true {} handed hhanded).mpr ⟨rfl, rfl, rfl⟩⟩

/-- **The task of `AddTask` loses its shard**: it arrives as a shard of nothing. -/
theorem added_task_loses_shard : ∃ cmds task handed,
    (singleBuilder addedTask).buildProto (singleEnv addedTask).dump =
      .ok (singleRequest addedTask) ∧
    appendDagToPipeline (fun _ => singleBytes) (singleRequest addedTask) (singleContext addedTask) =
      .ok cmds ∧
    .set (.taskMeta taskA.text) singleBytes pipelineTtl ∈ cmds ∧
    fromMetaBinary (singleEnv addedTask).deserialize (singleEnv addedTask).parse
        singleBytes =
      .ok (some task) ∧
    (runTask (singleEnv addedTask).parse true {}
      (Dispatch.request (singleEnv addedTask) ⟨task, 1, ⟨"worker", "10.0.0.1:50051", 0, 0⟩⟩)).2 =
      some handed ∧
    ¬ AsSubmitted jobX.text taskA.text addedTask handed := by
  have hlossless := singleEnv_lossless addedTask rfl
  refine ⟨_, received (singleContext addedTask) taskA.text addedTask,
    received (singleContext addedTask) taskA.text addedTask, rfl, rfl, ?_,
    fromMetaBinary_published hlossless,
    (runTask_published hlossless _ _).mpr ⟨⟨rfl, rfl⟩, rfl⟩, ?_⟩
  · exact List.mem_cons_self
  · intro h
    exact absurd h.shard (by decide)

end DistTaskSystem
