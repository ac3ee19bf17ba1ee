import DistTaskSystem.ApiServer.Published

/-!
# DTS — processing a batch

`processBatch_written` says what is left behind when the transaction's
statements succeed: the tables if the server kept them, and the keyspace after
the executed part of the pipeline. `Needs` locates the last command of a
pipeline that is not an EXPIRE, so that a pipeline cut after any number of
commands can be judged by that number alone.
-/

namespace DistTaskSystem

/-! ## The length of a pipeline -/

/-- The commands of a request up to its final EXPIRE: one for each edge, an
EXPIRE for each parent, and two for each task. -/
def SubmitDagRequest.queued (req : SubmitDagRequest) : Nat :=
  req.edges.length + (req.edges.map TaskEdge.parentNaturalId).toFinset.card + 2 * req.tasks.length

/-- The final EXPIRE. -/
def SubmitDagRequest.trailer (req : SubmitDagRequest) : Nat := if req.edges = [] then 0 else 1

/-- How many commands of a batch have to run until only an EXPIRE is left. -/
def neededCommands : List Submission → Nat
  | [] => 0
  | sub :: rest =>
    if neededCommands rest = 0 then sub.req.queued
    else sub.req.queued + sub.req.trailer + neededCommands rest

/-- Whatever follows the first `k` commands is an EXPIRE, exactly from `n` on. -/
def Needs (n : Nat) (cmds : List PipeCmd) : Prop :=
  ∀ k, (∀ cmd ∈ cmds.drop k, cmd.isExpire = true) ↔ n ≤ k

namespace Needs

variable {n m : Nat} {cmds more batch : List PipeCmd}

theorem nil : Needs 0 [] := by
  intro k
  simp

theorem le_length (h : Needs n cmds) : n ≤ cmds.length := by
  refine (h cmds.length).mp ?_
  rw [List.drop_length]
  simp

/-- The last command that is not an EXPIRE closes what is needed. -/
theorem of_last {last : PipeCmd} (hlast : last.isExpire = false)
    (hmore : ∀ cmd ∈ more, cmd.isExpire = true) :
    Needs (cmds.length + 1) (cmds ++ [last] ++ more) := by
  intro k
  constructor
  · intro hall
    by_contra hk
    -- the last command is still to come
    have hmem : last ∈ (cmds ++ [last] ++ more).drop k := by
      rw [List.append_assoc, List.drop_append_of_le_length (by omega)]
      simp
    exact nomatch (hall last hmem).symm.trans hlast
  · intro hk cmd hcmd
    rw [List.drop_append, List.drop_eq_nil_of_le (by simpa using hk), List.nil_append] at hcmd
    exact hmore cmd (List.mem_of_mem_drop hcmd)

theorem append (h : Needs n cmds) (h' : Needs m more) :
    Needs (if m = 0 then n else cmds.length + m) (cmds ++ more) := by
  intro k
  have hn := h.le_length
  have hsplit : (∀ cmd ∈ (cmds ++ more).drop k, cmd.isExpire = true) ↔
      n ≤ k ∧ m ≤ k - cmds.length := by
    rw [← h k, ← h' (k - cmds.length), List.drop_append]
    exact List.forall_mem_append
  rw [hsplit]
  split <;> omega

/-- Cutting off what is not needed cuts off no command of the batch. -/
theorem take_iff (h : Needs n cmds) (hfilter : (cmds.filter fun cmd => !cmd.isExpire) = batch)
    (hnodup : batch.Nodup) (k : Nat) : (∀ cmd ∈ batch, cmd ∈ cmds.take k) ↔ n ≤ k := by
  have hsplit : ((cmds.take k).filter fun cmd => !cmd.isExpire) ++
      ((cmds.drop k).filter fun cmd => !cmd.isExpire) = batch := by
    rw [← List.filter_append, List.take_append_drop, hfilter]
  rw [← h k]
  constructor
  · intro hall cmd hcmd
    by_contra hexpire
    -- a command that was cut off is not among the first ones: it occurs once
    have hdrop : cmd ∈ (cmds.drop k).filter fun cmd => !cmd.isExpire :=
      List.mem_filter.mpr ⟨hcmd, by simpa using hexpire⟩
    have hbatch : cmd ∈ batch := hsplit ▸ List.mem_append_right _ hdrop
    have htake : cmd ∈ (cmds.take k).filter fun cmd => !cmd.isExpire :=
      List.mem_filter.mpr ⟨hall cmd hbatch, by simpa using hexpire⟩
    rw [← hsplit, List.nodup_append] at hnodup
    exact hnodup.2.2 cmd htake cmd hdrop rfl
  · intro hall cmd hcmd
    rw [← hsplit] at hcmd
    rcases List.mem_append.mp hcmd with htake | hdrop
    · exact (List.mem_filter.mp htake).1
    · obtain ⟨hmem, hexpire⟩ := List.mem_filter.mp hdrop
      rw [hall cmd hmem] at hexpire
      exact nomatch hexpire

end Needs

section Length

variable {serialize : PbTask → List UInt8} {ctx : DagCommitContext} {req : SubmitDagRequest}
  {cmds : List PipeCmd}

/-- Phase 1 queues one EXPIRE for each parent it has not seen. -/
theorem edgeCommands_length {processed : List String} {edges : List TaskEdge}
    (h : edgeCommands ctx processed edges = .ok cmds) :
    cmds.length = edges.length +
      ((edges.map fun edge => ctx.uuidOf edge.parentNaturalId).toFinset \
        processed.toFinset).card := by
  induction edges generalizing processed cmds with
  | nil =>
    obtain rfl : [] = cmds := Except.ok.inj h
    simp
  | cons edge rest ih =>
    rw [edgeCommands] at h
    obtain ⟨parent, hparent, h⟩ := Fallible.bind_eq_ok.mp h
    obtain ⟨child, -, h⟩ := Fallible.bind_eq_ok.mp h
    have hid : ctx.uuidOf edge.parentNaturalId = parent :=
      ctx.uuidOf_eq (ctx.at_eq_ok.mp hparent)
    rw [List.map_cons, hid, List.toFinset_cons, List.length_cons]
    by_cases hseen : parent ∈ processed
    · rw [if_pos hseen] at h
      obtain ⟨more, hmore, h⟩ := Fallible.bind_eq_ok.mp h
      obtain rfl := Except.ok.inj h
      rw [List.length_cons, ih hmore, Finset.insert_sdiff_of_mem _ (List.mem_toFinset.mpr hseen)]
      omega
    · rw [if_neg hseen] at h
      obtain ⟨more, hmore, h⟩ := Fallible.bind_eq_ok.mp h
      obtain rfl := Except.ok.inj h
      have hnotMem : parent ∉ processed.toFinset := fun hmem => hseen (List.mem_toFinset.mp hmem)
      -- the new parent is counted here, and no longer in the rest
      have hcount : ∀ parents : Finset String, insert parent parents \ processed.toFinset =
          insert parent (parents \ insert parent processed.toFinset) := by
        intro parents
        ext p
        by_cases hp : p = parent
        · subst hp
          simp [hseen]
        · simp [hp]
      rw [List.length_cons, List.length_cons, ih hmore, List.toFinset_cons, hcount,
        Finset.card_insert_of_notMem (by simp)]
      omega

theorem taskCommands_length {edges : List TaskEdge} {tasks : List PbTask}
    (h : taskCommands serialize ctx edges tasks = .ok cmds) : cmds.length = 2 * tasks.length := by
  rw [(taskCommands_ok h).2, List.length_flatMap]
  simp [Nat.mul_comm]

/-- Ids are assigned one to one, so parents may be counted by their natural ids. -/
theorem card_parents (hassigns : Assigns ctx req) (hl : req.Listed) :
    (req.edges.map fun edge => ctx.uuidOf edge.parentNaturalId).toFinset.card =
      (req.edges.map TaskEdge.parentNaturalId).toFinset.card := by
  have himage : (req.edges.map fun edge => ctx.uuidOf edge.parentNaturalId).toFinset =
      (req.edges.map TaskEdge.parentNaturalId).toFinset.image ctx.uuidOf := by
    ext t
    simp
  have hlisted : ∀ n ∈ (req.edges.map TaskEdge.parentNaturalId).toFinset, n ∈ req.naturalIds := by
    intro n hn
    obtain ⟨edge, hedge, rfl⟩ := List.mem_map.mp (List.mem_toFinset.mp hn)
    exact hl.parent edge hedge
  rw [himage]
  refine Finset.card_image_of_injOn fun n hn m hm heq => ?_
  exact hassigns.uuidOf_inj (hlisted n hn) (hlisted m hm) heq

/-- Of a request, everything but the final EXPIRE is needed. -/
theorem appendDag_needs (hassigns : Assigns ctx req) (hl : req.Listed)
    (h : appendDagToPipeline serialize req ctx = .ok cmds) :
    Needs req.queued cmds ∧ cmds.length = req.queued + req.trailer := by
  rw [appendDagToPipeline_eq, if_neg hassigns.jobId_ne_empty] at h
  obtain ⟨phase1, hphase1, h⟩ := Fallible.bind_eq_ok.mp h
  obtain ⟨phase2, hphase2, h⟩ := Fallible.bind_eq_ok.mp h
  have hlength : (phase1 ++ phase2).length = req.queued := by
    have h₁ := edgeCommands_length hphase1
    have h₂ := taskCommands_length hphase2
    rw [List.toFinset_nil, Finset.sdiff_empty, card_parents hassigns hl] at h₁
    rw [List.length_append, h₁, h₂]
    rfl
  -- what follows the two phases is at most an EXPIRE
  obtain ⟨more, rfl, hmore, htrailer⟩ : ∃ more, cmds = phase1 ++ phase2 ++ more ∧
      (∀ cmd ∈ more, cmd.isExpire = true) ∧ more.length = req.trailer := by
    unfold SubmitDagRequest.trailer
    split at h
    · next hnone =>
      rw [if_pos hnone]
      exact ⟨[], by rw [List.append_nil]; exact (Except.ok.inj h).symm, by simp, rfl⟩
    · next hsome =>
      rw [if_neg hsome]
      exact ⟨_, (Except.ok.inj h).symm, by simp, rfl⟩
  refine ⟨?_, by rw [List.length_append, hlength, htrailer]⟩
  rw [(taskCommands_ok hphase2).2] at hlength ⊢
  rcases List.eq_nil_or_concat' req.tasks with hnone | ⟨front, task, htasks⟩
  · -- no tasks, so no edges either
    have hedges : req.edges = [] := by
      rw [List.eq_nil_iff_forall_not_mem]
      intro edge hedge
      have hparent := hl.parent edge hedge
      rw [SubmitDagRequest.naturalIds, hnone] at hparent
      exact List.not_mem_nil hparent
    have hempty : (phase1 ++ req.tasks.flatMap fun task =>
        [metaCommand serialize ctx task, dispatchCommand ctx req.edges task]) = [] := by
      rw [← List.length_eq_zero_iff, hlength, SubmitDagRequest.queued, hnone, hedges]
      rfl
    have hmoreNil : more = [] := by
      rw [← List.length_eq_zero_iff, htrailer, SubmitDagRequest.trailer, if_pos hedges]
    rw [← hlength, hempty, hmoreNil]
    exact Needs.nil
  · -- the last task's second command is the last one that counts
    obtain ⟨init, hinit⟩ : ∃ init, (phase1 ++ req.tasks.flatMap fun task =>
        [metaCommand serialize ctx task, dispatchCommand ctx req.edges task]) =
        init ++ [dispatchCommand ctx req.edges task] := by
      refine ⟨phase1 ++ (front.flatMap fun task => [metaCommand serialize ctx task,
        dispatchCommand ctx req.edges task]) ++ [metaCommand serialize ctx task], ?_⟩
      rw [htasks]
      simp
    have hlast : (dispatchCommand ctx req.edges task).isExpire = false := by
      unfold dispatchCommand
      split <;> rfl
    rw [hinit] at hlength ⊢
    rw [← hlength, List.length_append]
    exact Needs.of_last hlast hmore

end Length

/-! ## The pipeline of a batch -/

section Append

variable {serialize : PbTask → List UInt8} {subs : List Submission} {batch : List BatchItem}
  {cmds : List PipeCmd} {db : Db}

/-! The entry tasks noted in a context play no role for its commands. -/

theorem edgeCommands_entries (ctx : DagCommitContext) (entries processed : List String)
    (edges : List TaskEdge) : edgeCommands { ctx with entryTaskIds := entries } processed edges =
      edgeCommands ctx processed edges := by
  induction edges generalizing processed with
  | nil => rfl
  | cons edge rest ih =>
    unfold edgeCommands
    simp only [ih]
    rfl

theorem taskCommands_entries (ctx : DagCommitContext) (entries : List String)
    (edges : List TaskEdge) (tasks : List PbTask) :
    taskCommands serialize { ctx with entryTaskIds := entries } edges tasks =
      taskCommands serialize ctx edges tasks := by
  induction tasks with
  | nil => rfl
  | cons task rest ih =>
    unfold taskCommands
    simp only [ih]
    rfl

/-- The commands of an item are those of its submission. -/
theorem SameItem.commands {sub : Submission} {item : BatchItem} (h : SameItem sub item) :
    appendDagToPipeline serialize item.req item.ctx =
      appendDagToPipeline serialize sub.req sub.item.ctx := by
  have hctx : item.ctx = { sub.item.ctx with entryTaskIds := item.ctx.entryTaskIds } := by
    obtain ⟨-, hjob, huuid⟩ := h
    show item.ctx = ⟨sub.item.ctx.jobId, sub.item.ctx.naturalToUuid, item.ctx.entryTaskIds⟩
    rw [← hjob, ← huuid]
  rw [h.req, hctx]
  rw [appendDagToPipeline_eq, appendDagToPipeline_eq, edgeCommands_entries, taskCommands_entries]

/-- Item by item, the queued commands are those of the batch, and EXPIREs. -/
theorem parts_ok (hassigns : ∀ sub ∈ subs, Assigns sub.item.ctx sub.req)
    (hlisted : ∀ sub ∈ subs, sub.req.Listed) (hsame : List.Forall₂ SameItem subs batch)
    {parts : List (List PipeCmd)} (hparts : List.Forall₂ (fun item part =>
      appendDagToPipeline serialize item.req item.ctx = .ok part) batch parts) :
    (parts.flatten.filter fun cmd => !cmd.isExpire) = batchCommands serialize subs ∧
      Needs (neededCommands subs) parts.flatten := by
  induction hsame generalizing parts with
  | nil =>
    obtain rfl := List.forall₂_nil_left_iff.mp hparts
    exact ⟨rfl, Needs.nil⟩
  | @cons sub item subs batch hitem _ ih =>
    obtain ⟨part, parts, hpart, hmore, rfl⟩ := List.forall₂_cons_left_iff.mp hparts
    obtain ⟨hl, hlisted⟩ := List.forall_mem_cons.mp hlisted
    obtain ⟨ha, hassigns⟩ := List.forall_mem_cons.mp hassigns
    obtain ⟨hfilter, hneeds⟩ := ih hassigns hlisted hmore
    rw [hitem.commands] at hpart
    obtain ⟨hneedsPart, hlength⟩ := appendDag_needs ha hl hpart
    constructor
    · rw [List.flatten_cons, List.filter_append, hfilter, (appendDag_ok ha.jobId_ne_empty hpart).2]
      rfl
    · have happend := hneedsPart.append hneeds
      rwa [hlength] at happend

/-- Listed requests are queued: in order, with some EXPIREs between them. -/
theorem appendBatch_ok (serialize : PbTask → List UInt8)
    (hassigns : ∀ sub ∈ subs, Assigns sub.item.ctx sub.req)
    (hlisted : ∀ sub ∈ subs, sub.req.Listed) (hsame : List.Forall₂ SameItem subs batch) :
    ∃ cmds, appendBatch serialize batch = .ok cmds ∧
      (cmds.filter fun cmd => !cmd.isExpire) = batchCommands serialize subs ∧
      Needs (neededCommands subs) cmds := by
  obtain ⟨parts, hparts⟩ := Fallible.mapM_total
    (f := fun item : BatchItem => appendDagToPipeline serialize item.req item.ctx) (l := batch)
    fun item hitem => by
      obtain ⟨sub, hsub, hitem⟩ := Fallible.exists_left hsame hitem
      rw [hitem.commands]
      exact appendDag_total serialize ((hassigns sub hsub).resolves (hlisted sub hsub))
  exact ⟨parts.flatten, Fallible.bind_eq_ok.mpr ⟨parts, hparts, rfl⟩,
    parts_ok hassigns hlisted hsame (Fallible.mapM_eq_ok.mp hparts)⟩

end Append

/-! ## What a batch leaves behind -/

/-- The part of the pipeline the server executes: none of it, unless the
transaction ended without an exception. -/
def BatchFaults.executedOf (faults : BatchFaults) (cmds : List PipeCmd) : List PipeCmd :=
  if faults.tx = .committed then cmds.take (faults.executed.getD cmds.length) else []

/-- Enough of the pipeline is executed. -/
def BatchFaults.Enough (faults : BatchFaults) (needed : Nat) : Prop :=
  needed = 0 ∨ faults.tx = .committed ∧ ∀ k, faults.executed = some k → needed ≤ k

theorem Needs.executedOf_iff {n : Nat} {cmds batch : List PipeCmd} (h : Needs n cmds)
    (hfilter : (cmds.filter fun cmd => !cmd.isExpire) = batch) (hnodup : batch.Nodup)
    (faults : BatchFaults) :
    (∀ cmd ∈ batch, cmd ∈ faults.executedOf cmds) ↔ faults.Enough n := by
  have htake := h.take_iff hfilter hnodup
  have hn := h.le_length
  unfold BatchFaults.executedOf BatchFaults.Enough
  by_cases hcommitted : faults.tx = .committed
  · rw [if_pos hcommitted, htake]
    cases hexecuted : faults.executed with
    | none => simp [hcommitted, hn]
    | some k =>
      simp only [Option.getD_some, hcommitted, Option.some.injEq, forall_eq', true_and]
      omega
  · have hnone := htake 0
    rw [List.take_zero] at hnone
    rw [if_neg hcommitted, hnone]
    simp [hcommitted]

section Process

variable {jsonbIn : String → Option String} {serialize : PbTask → List UInt8}
  {faults : BatchFaults} {nowTs : Int} {subs : List Submission} {db : Db} {r : Redis}

/-- A batch the database refuses leaves nothing behind. -/
theorem processBatch_refused (h : ∀ batch db',
    flushDBBatch jsonbIn nowTs (subs.map Submission.item) db ≠ .ok (batch, db')) :
    processBatch jsonbIn serialize faults nowTs (subs.map Submission.item) db r = (db, r) := by
  unfold processBatch
  split
  · rfl
  · cases hflush : flushDBBatch jsonbIn nowTs (subs.map Submission.item) db with
    | ok result => exact absurd hflush (h result.1 result.2)
    | error e =>
      simp only [executeTx_error hflush]
      rfl

/-- **What a batch leaves behind** if all its statements succeed. -/
theorem processBatch_written (serialize : PbTask → List UInt8) (faults : BatchFaults) (r : Redis)
    (hfresh : FreshIds subs db) {batch : List BatchItem} {db' : Db}
    (hflush : flushDBBatch jsonbIn nowTs (subs.map Submission.item) db = .ok (batch, db')) :
    ∃ cmds, (cmds.filter fun cmd => !cmd.isExpire) = batchCommands serialize subs ∧
      Needs (neededCommands subs) cmds ∧
      processBatch jsonbIn serialize faults nowTs (subs.map Submission.item) db r =
        (if faults.tx.kept then db' else db, execPipeline (faults.executedOf cmds) r) := by
  have hsame : List.Forall₂ SameItem subs batch := by
    obtain ⟨-, -, -, -, -, hsame⟩ := flush_ok hflush
    exact hsame
  have hstorable := ((flush_ok_iff nowTs hfresh).mp ⟨batch, db', hflush⟩).1
  obtain ⟨cmds, hcmds, hfilter, hneeds⟩ := appendBatch_ok serialize
    (fun sub hsub => hfresh.assigns hsub) (fun sub hsub => (hstorable sub hsub).listed) hsame
  refine ⟨cmds, hfilter, hneeds, ?_⟩
  unfold processBatch
  split
  · next hempty =>
    -- an empty batch: nothing to write, nothing to queue
    rw [hempty] at hflush
    obtain ⟨rfl, rfl⟩ := Prod.mk.inj (Except.ok.inj hflush)
    obtain rfl := Except.ok.inj hcmds
    simp [BatchFaults.executedOf]
  · simp only [executeTx_returned hflush, executeTx_db hflush]
    by_cases hcommitted : faults.tx = .committed
    · simp [BatchFaults.executedOf, hcommitted, hcmds]
    · simp [BatchFaults.executedOf, hcommitted]

end Process

end DistTaskSystem
