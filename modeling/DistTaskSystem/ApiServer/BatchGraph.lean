import DistTaskSystem.ApiServer.ProcessBatch
import DistTaskSystem.Scheduler.DagEngine

/-!
# DTS — the graphs of a batch

One pipeline publishes all jobs of a batch, and the completion scripts of all
jobs run against one keyspace. To a job, what is done for the others looks as
if nothing happened: `Countdown.State.Agree` on the tasks of the job.

## Results

* `actAll_agree`        — commands of other jobs.
* `completeTask_agree`  — a completion script of another job.
* `batch_exact`         — a published batch leaves each job in the exact state of its graph.
-/

namespace DistTaskSystem

open Countdown (Exact State.Agree)

section Commands

variable {serialize : PbTask → List UInt8} {sub : Submission} {cmd : PipeCmd}
  {cmds : List PipeCmd} {r : Redis} {s : Countdown.State String}

/-- The tasks of a submission, as a set of ids. -/
theorem Submission.mem_nodes {t : String} (ht : t ∈ dagNodes sub.item.ctx sub.req) :
    ∃ u ∈ sub.uuids, t = u.text :=
  Submission.mem_uuids (mem_dagNodes.mp ht)

/-- A command of another job. -/
theorem act_agree (helse : Elsewhere sub cmd) (hfits : cmd.Fits r) (s : Countdown.State String) :
    s.Agree (dagNodes sub.item.ctx sub.req) (cmd.act sub.jobId.text s) := by
  have hother : ∀ t ∈ dagNodes sub.item.ctx sub.req, cmd.task? ≠ some t := by
    intro t ht
    obtain ⟨u, hu, rfl⟩ := Submission.mem_nodes ht
    exact helse.task u hu
  cases cmd with
  | sadd key member =>
    obtain ⟨-, taskId, rfl⟩ := hfits
    refine ⟨fun p hp => ?_, rfl, fun _ _ => rfl, fun _ _ => rfl, rfl⟩
    exact Function.update_of_ne (fun heq => hother p hp (congrArg some heq.symm)) _ _
  | expire key ttl => exact .refl _ s
  | set key payload ttl =>
    obtain ⟨taskId, rfl⟩ := hfits
    refine ⟨fun _ _ => rfl, rfl, fun t ht => ?_, fun _ _ => rfl, rfl⟩
    exact Function.update_of_ne (fun heq => hother t ht (congrArg some heq.symm)) _ _
  | hset key field value =>
    obtain ⟨-, job, rfl⟩ := hfits
    have hjob : job ≠ sub.jobId.text := fun heq => helse.deps (congrArg Key.deps heq)
    rw [PipeCmd.act, if_neg hjob]
    exact .refl _ s
  | xadd key fields =>
    obtain ⟨-, rfl⟩ := hfits
    refine ⟨fun _ _ => rfl, rfl, fun _ _ => rfl, fun t ht => ?_, rfl⟩
    have hnone : (StreamEntry.taskId? ⟨0, fields⟩).toList.count t = 0 := by
      rw [List.count_eq_zero]
      exact fun hmem => hother t ht (Option.mem_toList.mp hmem)
    show (s.ready ++ _).count t = _
    rw [List.count_append, hnone, Nat.add_zero]

/-- **Commands of other jobs.** -/
theorem actAll_agree (helse : ∀ cmd ∈ cmds, Elsewhere sub cmd) (hfits : ∀ cmd ∈ cmds, cmd.Fits r)
    (s : Countdown.State String) :
    s.Agree (dagNodes sub.item.ctx sub.req) (actAll sub.jobId.text cmds s) := by
  induction cmds generalizing s with
  | nil => exact .refl _ s
  | cons cmd rest ih =>
    obtain ⟨hfirst, helse⟩ := List.forall_mem_cons.mp helse
    obtain ⟨hfit, hfits⟩ := List.forall_mem_cons.mp hfits
    exact (act_agree hfirst hfit s).trans (ih helse hfits _)

/-- The commands of a job, over a state that holds nothing of it. -/
theorem dag_exact {ctx : DagCommitContext} {req : SubmitDagRequest} (h : Assigns ctx req)
    (hl : req.Listed) (hchildren : ∀ t ∈ dagNodes ctx req, s.children t = ∅)
    (hcounter : ∀ t, s.counter t = none) :
    Exact (dagNodes ctx req) (dagGraph ctx req) s.ready.count s.faults (dagIds ctx req) ∅
      (actAll ctx.jobId (dagCommands serialize req ctx) s) := by
  rw [dagCommands, actAll_append, actAll_sadd]
  refine actAll_tasks serialize h hl (fun task htask => List.mem_map_of_mem htask)
    (Exact.init (s := { s with children := fun p => s.children p ∪ edgeChildren ctx req.edges p })
      (fun p hp => ?_) hcounter)
  show s.children p ∪ edgeChildren ctx req.edges p = _
  rw [hchildren p hp, Finset.empty_union]
  rfl

end Commands

-- ---------------------------------------------------------------------------
-- A published batch
-- ---------------------------------------------------------------------------

section Batch

variable {serialize : PbTask → List UInt8} {subs : List Submission} {db : Db} {r : Redis}
  {cmds : List PipeCmd} {sub : Submission}

/-- A pipeline that executed the whole batch is the batch, with EXPIREs between. -/
theorem PartOf.filter_eq (h : PartOf serialize subs db r cmds)
    (hall : ∀ cmd ∈ batchCommands serialize subs, cmd ∈ cmds) :
    (cmds.filter fun cmd => !cmd.isExpire) = batchCommands serialize subs := by
  have hnodup : (batchCommands serialize subs).Nodup :=
    batchCommands_nodup h.fresh h.listed h.distinct
  refine h.batch.eq_of_length_le ?_
  refine (hnodup.subperm fun cmd hcmd => List.mem_filter.mpr ⟨hall cmd hcmd, ?_⟩).length_le
  obtain ⟨sub, -, hown⟩ := List.mem_flatMap.mp hcmd
  rcases mem_dagCommands.mp hown with ⟨edge, -, rfl⟩ | ⟨task, -, rfl | rfl⟩
  · rfl
  · rfl
  · unfold dispatchCommand
    split <;> rfl

/-- The keys of a new job are free, so they take values of any type. -/
theorem NotInRedis.typed (h : NotInRedis sub r) (htasks : r.IsStream kTasks)
    (herrors : r.IsStream kErrors) : JobTyped sub.item.ctx sub.req r where
  children t ht := by
    obtain ⟨u, hu, rfl⟩ := Submission.mem_nodes ht
    exact Redis.isSet_of_none (h.children u hu)
  shared := ⟨Redis.isHash_of_none h.deps, htasks, herrors⟩

/-- No entry of the stream is for a task of a new job. -/
theorem NotInRedis.count (h : NotInRedis sub r) {t : String}
    (ht : t ∈ dagNodes sub.item.ctx sub.req) : streamCount r t = 0 := by
  obtain ⟨u, hu, rfl⟩ := Submission.mem_nodes ht
  have hnone := h.entries u hu
  rw [streamCount, List.count_eq_zero]
  intro hmem
  obtain ⟨e, he, htask⟩ := List.mem_filterMap.mp hmem
  have hfields : e.fields ∈ entriesOf r u.text := by
    refine List.mem_filter.mpr ⟨List.mem_map_of_mem he, ?_⟩
    rw [decide_eq_true_iff, ← taskId?_id e.id]
    exact htask
  rw [hnone] at hfields
  exact List.not_mem_nil hfields

/-- **A published batch** leaves each of its jobs in the exact state of its graph, with
every task published and none completed. -/
theorem batch_exact (h : PartOf serialize subs db r cmds)
    (hall : ∀ cmd ∈ batchCommands serialize subs, cmd ∈ cmds) (hsub : sub ∈ subs) :
    ∃ base errs, (∀ t ∈ dagNodes sub.item.ctx sub.req, base t = 0) ∧
      Exact (dagNodes sub.item.ctx sub.req) (dagGraph sub.item.ctx sub.req) base errs
        (dagIds sub.item.ctx sub.req) ∅ (view sub.jobId.text (execPipeline cmds r)) := by
  obtain ⟨before, after, hsubs⟩ := List.append_of_mem hsub
  have hnodup : (subs.map Submission.jobId).Nodup := h.fresh.jobs
  -- the commands of the other jobs
  have hother : ∀ other ∈ before ++ after,
      ∀ cmd ∈ dagCommands serialize other.req other.item.ctx, Elsewhere sub cmd := by
    intro other hmem cmd hcmd
    have hin : other ∈ subs := by
      rw [hsubs]
      exact (List.mem_append.mp hmem).elim (List.mem_append_left _)
        fun hafter => List.mem_append_right _ (List.mem_cons_of_mem _ hafter)
    have hne : other ≠ sub := by
      rintro rfl
      rw [hsubs, List.map_append, List.map_cons] at hnodup
      exact (List.nodup_middle.mp hnodup).notMem
        (List.map_append ▸ List.mem_map_of_mem hmem)
    obtain ⟨hjob, huuids⟩ := h.fresh.disjoint hsub hin hne
    exact elsewhere_of_ne (h.listed other hin) hjob huuids hcmd
  have hfits : ∀ cmd ∈ batchCommands serialize subs, cmd.Fits r := fun cmd hcmd =>
    h.fits cmd (hall cmd hcmd)
  have hsplit : batchCommands serialize subs = batchCommands serialize before ++
      (dagCommands serialize sub.req sub.item.ctx ++ batchCommands serialize after) := by
    rw [hsubs, batchCommands, List.flatMap_append, List.flatMap_cons]
    rfl
  rw [hsplit] at hfits
  have hbefore : ∀ s : Countdown.State String, s.Agree (dagNodes sub.item.ctx sub.req)
      (actAll sub.jobId.text (batchCommands serialize before) s) := by
    refine actAll_agree (r := r) (fun cmd hcmd => ?_) fun cmd hcmd => ?_
    · obtain ⟨other, hmem, hown⟩ := List.mem_flatMap.mp hcmd
      exact hother other (List.mem_append_left _ hmem) cmd hown
    · exact hfits cmd (List.mem_append_left _ hcmd)
  have hafter : ∀ s : Countdown.State String, s.Agree (dagNodes sub.item.ctx sub.req)
      (actAll sub.jobId.text (batchCommands serialize after) s) := by
    refine actAll_agree (r := r) (fun cmd hcmd => ?_) fun cmd hcmd => ?_
    · obtain ⟨other, hmem, hown⟩ := List.mem_flatMap.mp hcmd
      exact hother other (List.mem_append_right _ hmem) cmd hown
    · exact hfits cmd (List.mem_append_right _ (List.mem_append_right _ hcmd))
  have habsent := h.absent sub hsub
  rw [execPipeline_view _ h.fits, ← actAll_filter, h.filter_eq hall, hsplit, actAll_append,
    actAll_append]
  have hbefore := hbefore (view sub.jobId.text r)
  generalize actAll sub.jobId.text (batchCommands serialize before) (view sub.jobId.text r) = s₁
    at hbefore ⊢
  have hexact := @dag_exact serialize s₁ _ _ (h.fresh.assigns hsub) (h.listed sub hsub)
    (fun t ht => ?_) fun t => ?_
  · obtain ⟨base, hbase, hfinal⟩ := hexact.agree (fun t ht => mem_dagNodes.mpr ht) (hafter _)
    refine ⟨base, s₁.faults, fun t ht => ?_, hfinal⟩
    rw [hbase t ht, hbefore.ready t ht]
    exact habsent.count ht
  · rw [hbefore.children t ht]
    obtain ⟨u, hu, rfl⟩ := Submission.mem_nodes ht
    simp [view, Redis.setAt_of_none (habsent.children u hu), RedisSet.empty]
  · rw [hbefore.counter]
    simp [view, Redis.hashAt_of_none habsent.deps]

end Batch

-- ---------------------------------------------------------------------------
-- The script of another job
-- ---------------------------------------------------------------------------

section Script

variable {sub other : Submission} {r r' : Redis} {base : String → ℕ}
  {errs : List (Countdown.Fault String)} {P : List String} {R R' : Finset String}

/-- The tasks of another job are no nodes of this one's graph. -/
theorem not_mem_graph (hl : other.req.Listed) (huuids : List.Disjoint other.uuids sub.uuids)
    {t : String} (ht : t ∈ dagNodes sub.item.ctx sub.req) :
    t ∉ dagIds other.item.ctx other.req ∧ ∀ p, t ∉ dagGraph other.item.ctx other.req p := by
  obtain ⟨u, hu, rfl⟩ := Submission.mem_nodes ht
  have hnot : u.text ∉ dagIds other.item.ctx other.req := by
    intro hmem
    obtain ⟨v, hv, heq⟩ := Submission.mem_uuids hmem
    exact huuids hv (Uuid.text_inj.mp heq ▸ hu)
  refine ⟨hnot, fun p hp => hnot ?_⟩
  obtain ⟨edge, hedge, -, hchild⟩ := mem_edgeChildren.mp hp
  exact mem_dagIds.mpr ⟨_, hl.child edge hedge, hchild⟩

/-- **A completion script of another job**, between two exact states of that job. -/
theorem completeTask_agree (hl : other.req.Listed) (hjob : other.jobId ≠ sub.jobId)
    (huuids : List.Disjoint other.uuids sub.uuids) {p : String}
    (hp : p ∈ dagIds other.item.ctx other.req)
    (hexact : Exact (dagNodes other.item.ctx other.req) (dagGraph other.item.ctx other.req) base
      errs (dagIds other.item.ctx other.req) R (view other.jobId.text r))
    (hexact' : Exact (dagNodes other.item.ctx other.req) (dagGraph other.item.ctx other.req) base
      errs (dagIds other.item.ctx other.req) R' (view other.jobId.text r'))
    (hframe : ScriptFrame other.jobId.text [childrenKey p] r r') :
    (view sub.jobId.text r).Agree (dagNodes sub.item.ctx sub.req) (view sub.jobId.text r') := by
  have hkey : ∀ t ∈ dagNodes sub.item.ctx sub.req, t ≠ p := by
    rintro t ht rfl
    exact (not_mem_graph hl huuids ht).1 hp
  have hdeps : sub.jobId.text ≠ other.jobId.text := fun heq => hjob (Uuid.text_inj.mp heq).symm
  have herrors : (r'.streamAt kErrors).entries = (r.streamAt kErrors).entries :=
    hframe.errors_unchanged (hexact'.faults.trans hexact.faults.symm)
  refine ⟨fun t ht => ?_, ?_, fun t ht => ?_, fun t ht => ?_, ?_⟩
  · have hsame : r'.keys (childrenKey t) = r.keys (childrenKey t) :=
      hframe.other _ (by simpa using hkey t ht) (by simp) (by simp) (by simp)
    simp only [view, Redis.setAt, hsame]
  · have hsame : r'.keys (dependencyHash sub.jobId.text) = r.keys (dependencyHash sub.jobId.text) :=
      hframe.other _ (by simp) (by simpa using hdeps) (by simp) (by simp)
    simp only [view, Redis.hashAt, hsame]
  · have hsame : r'.keys (taskMeta t) = r.keys (taskMeta t) :=
      hframe.other _ (by simp) (by simp) (by simp) (by simp)
    simp only [view, Redis.has, hsame]
  · obtain ⟨hid, hgraph⟩ := not_mem_graph hl huuids ht
    have hbefore := hexact.count_outside (fun p _ => hgraph p) hid
    have hafter := hexact'.count_outside (fun p _ => hgraph p) hid
    exact hafter.trans hbefore.symm
  · simp only [view, herrors]

/-- It keeps the types of the keys. -/
theorem completeTask_typed (hjob : other.jobId ≠ sub.jobId)
    (hl : other.req.Listed) (huuids : List.Disjoint other.uuids sub.uuids) {p : String}
    (hp : p ∈ dagIds other.item.ctx other.req) (ht : JobTyped sub.item.ctx sub.req r)
    (ht' : JobTyped other.item.ctx other.req r')
    (hframe : ScriptFrame other.jobId.text [childrenKey p] r r') :
    JobTyped sub.item.ctx sub.req r' where
  children t htask := by
    have hne : t ≠ p := by
      rintro rfl
      exact (not_mem_graph hl huuids htask).1 hp
    refine (Redis.isSet_congr ?_).mpr (ht.children t htask)
    exact hframe.other _ (by simpa using hne) (by simp) (by simp) (by simp)
  shared := by
    have hdeps : sub.item.ctx.jobId ≠ other.jobId.text := fun heq =>
      hjob (Uuid.text_inj.mp heq).symm
    refine ⟨(Redis.isHash_congr ?_).mpr ht.shared.deps, ht'.shared.tasks, ht'.shared.errors⟩
    exact hframe.other _ (by simp) (by simpa using hdeps) (by simp) (by simp)

end Script

end DistTaskSystem
