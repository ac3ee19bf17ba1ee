import DistTaskSystem.Guarantees.PublicationOrder
import DistTaskSystem.Library.Runs

/-!
# DTS — an empty children set

`kCompleteTaskScript` takes an empty children set for a task it has been run for
before. The set is empty after that run, which deletes it; it is also empty once
the EXPIRE of the publication is 24 hours old, and nothing renews that EXPIRE.
The two cannot be told apart: a task that is reported later leaves its children
waiting, and nobody notices.

The runs here interleave the commands of a publication, SUCCESS reports and the
passage of time in any order.

## Results

* `slot_step`            — what becomes of a children set in a step.
* `linked_of_dispatched` — a task that has a stream entry has all its children.
* `empty_means_processed_iff` — when an empty set tells the truth.
-/

namespace DistTaskSystem

open Runs TwoRuns

/-- A job that is published and reported: the commands of its pipeline that are
left, and the stores. -/
structure JobRun where
  cmds : List PipeCmd
  stores : SchedulerState
  /-- when the EXPIRE of a children set was executed, and the tasks a script run of
  which decremented every child: kept for the statements, no function reads them -/
  armed : String → Option Nat := fun _ => none
  processed : List String := []

inductive JobRunAction where
  /-- the next command of the pipeline -/
  | command
  /-- the service handles a SUCCESS report -/
  | report (faults : CallFaults) (ord : MembersOrder) (request : UpdateTaskStatusRequest)
  | pass (ms : Nat)

/-- A script run decrements every child of its task: it finds all of them, and its
loop comes to the end. -/
def DecrementsAll (ctx : DagCommitContext) (req : SubmitDagRequest) (ord : MembersOrder)
    (taskId : String) (r : Redis) : Prop :=
  dagGraph ctx req taskId ⊆ (r.setAt (childrenKey taskId)).members.toFinset ∧
    (completeTask ord taskId ctx.jobId r).1.isOk = true

instance (ctx : DagCommitContext) (req : SubmitDagRequest) (ord : MembersOrder) (taskId : String)
    (r : Redis) : Decidable (DecrementsAll ctx req ord taskId r) :=
  inferInstanceAs (Decidable (_ ∧ _))

/-- The report is about a task of the job. -/
def IsSuccessOf (ctx : DagCommitContext) (req : SubmitDagRequest)
    (request : UpdateTaskStatusRequest) : Prop :=
  request.finalState = .success ∧ request.jobId = ctx.jobId ∧ request.taskId ∈ dagIds ctx req

instance (ctx : DagCommitContext) (req : SubmitDagRequest) (request : UpdateTaskStatusRequest) :
    Decidable (IsSuccessOf ctx req request) :=
  inferInstanceAs (Decidable (_ ∧ _ ∧ _))

namespace JobRun

/-- Before the first command of a publication. -/
def start (cmds : List PipeCmd) (stores : SchedulerState) : JobRun where
  cmds := cmds
  stores := stores

def setRedis (s : JobRun) (r : Redis) : JobRun := { s with stores := { s.stores with redis := r } }

/-- The arming times after a command. -/
def arm (s : JobRun) : PipeCmd → String → Option Nat
  | .expire (.children taskId) _ => Function.update s.armed taskId (some s.stores.redis.now)
  | _ => s.armed

def afterCommand (s : JobRun) (cmd : PipeCmd) (rest : List PipeCmd) : JobRun :=
  { s.setRedis (cmd.exec s.stores.redis) with cmds := rest, armed := s.arm cmd }

def afterReport (ctx : DagCommitContext) (req : SubmitDagRequest) (svc : SchedulerService)
    (s : JobRun) (faults : CallFaults) (ord : MembersOrder) (request : UpdateTaskStatusRequest) :
    JobRun :=
  { s with
    stores := (updateTaskStatus svc faults ord 0 request s.stores).2
    processed :=
      if faults.evalSha ≠ .refused ∧ DecrementsAll ctx req ord request.taskId s.stores.redis then
        request.taskId :: s.processed
      else s.processed }

def step (ctx : DagCommitContext) (req : SubmitDagRequest) (svc : SchedulerService) (s : JobRun) :
    JobRunAction → Option JobRun
  | .command =>
    match s.cmds with
    | [] => none
    | cmd :: rest => some (s.afterCommand cmd rest)
  | .report faults ord request =>
    if IsSuccessOf ctx req request then some (s.afterReport ctx req svc faults ord request)
    else none
  | .pass ms => some (s.setRedis (s.stores.redis.advance ms))

/-- A step is one of the three. -/
inductive Moves (ctx : DagCommitContext) (req : SubmitDagRequest) (svc : SchedulerService)
    (s : JobRun) : JobRunAction → JobRun → Prop
  | command {cmd : PipeCmd} {rest : List PipeCmd} (hcmds : s.cmds = cmd :: rest) :
    Moves ctx req svc s .command (s.afterCommand cmd rest)
  | report (faults : CallFaults) (ord : MembersOrder) {request : UpdateTaskStatusRequest}
    (hsuccess : IsSuccessOf ctx req request) :
    Moves ctx req svc s (.report faults ord request) (s.afterReport ctx req svc faults ord request)
  | pass (ms : Nat) :
    Moves ctx req svc s (.pass ms) (s.setRedis (s.stores.redis.advance ms))

theorem step_moves {ctx : DagCommitContext} {req : SubmitDagRequest} {svc : SchedulerService}
    {s t : JobRun} {a : JobRunAction} (hstep : s.step ctx req svc a = some t) :
    Moves ctx req svc s a t := by
  cases a with
  | command =>
    cases hcmds : s.cmds with
    | nil =>
      rw [step, hcmds] at hstep
      exact nomatch hstep
    | cons cmd rest =>
      rw [step, hcmds] at hstep
      obtain rfl := Option.some.inj hstep
      exact .command hcmds
  | report faults ord request =>
    rw [step] at hstep
    split at hstep
    · next hsuccess =>
      obtain rfl := Option.some.inj hstep
      exact .report faults ord hsuccess
    · exact nomatch hstep
  | pass ms =>
    obtain rfl := Option.some.inj hstep
    exact .pass ms

-- ---------------------------------------------------------------------------
-- The statements about a step
-- ---------------------------------------------------------------------------

/-- All children of the task have been added to its set. -/
def Linked (s : JobRun) (taskId : String) : Prop := ∀ cmd ∈ s.cmds, cmd.key ≠ .children taskId

/-- The script run of a report that finds no children and returns 0 comes after one
that has decremented all of them. -/
def EmptyMeansProcessed (ctx : DagCommitContext) (req : SubmitDagRequest) (s : JobRun) :
    JobRunAction → Prop
  | .report faults ord request => faults.evalSha ≠ .refused → dagGraph ctx req request.taskId ≠ ∅ →
    (smembers ord (childrenKey request.taskId) s.stores.redis).1 = .ok [] →
    (completeTask ord request.taskId ctx.jobId s.stores.redis).1 = .ok 0 →
      request.taskId ∈ s.processed
  | _ => True

/-- The script run of a report comes after one that has decremented all children, or
after all children were added and before their EXPIRE is 24 hours old. -/
def InTime (ctx : DagCommitContext) (req : SubmitDagRequest) (s : JobRun) : JobRunAction → Prop
  | .report faults _ request => faults.evalSha ≠ .refused → dagGraph ctx req request.taskId ≠ ∅ →
    request.taskId ∈ s.processed ∨ s.Linked request.taskId ∧
      ∃ t ∈ s.armed request.taskId, s.stores.redis.now < t + pipelineTtl
  | _ => True

/-- The report is about a task that was pushed to the task stream. -/
def Dispatched (s : JobRun) : JobRunAction → Prop
  | .report _ _ request => 0 < streamCount s.stores.redis request.taskId
  | _ => True

/-- The publication adds no child to a set that has expired. -/
def Prompt (s : JobRun) : JobRunAction → Prop
  | .command => ∀ taskId child, s.cmds.head? = some (.sadd (.children taskId) child) →
    ∀ t ∈ s.armed taskId, s.stores.redis.now < t + pipelineTtl
  | _ => True

end JobRun

-- ---------------------------------------------------------------------------
-- The commands on a children set
-- ---------------------------------------------------------------------------

/-- The children of a task, in the order of their edges. -/
def childIds (ctx : DagCommitContext) (edges : List TaskEdge) (taskId : String) : List String :=
  (edges.filter fun edge => ctx.uuidOf edge.parentNaturalId = taskId).map
    fun edge => ctx.uuidOf edge.childNaturalId

/-- The commands that are sent to a children set. -/
def commandsFor (taskId : String) (cmds : List PipeCmd) : List PipeCmd :=
  cmds.filter fun cmd => cmd.key = .children taskId

def linkCommands (taskId : String) (children : List String) : List PipeCmd :=
  children.map fun child => .sadd (.children taskId) child

/-- The EXPIRE comes right behind the first child. -/
def publishCommands (taskId : String) : List String → List PipeCmd
  | [] => []
  | child :: rest =>
    .sadd (.children taskId) child :: .expire (.children taskId) pipelineTtl ::
      linkCommands taskId rest

section Commands

variable {ctx : DagCommitContext} {req : SubmitDagRequest} {serialize : PbTask → List UInt8}
  {edges : List TaskEdge} {processed : List String} {cmds : List PipeCmd} {p : String}

theorem edgeCommands_cons {edge : TaskEdge} {rest : List TaskEdge}
    (h : edgeCommands ctx processed (edge :: rest) = .ok cmds) :
    ∃ more, cmds = saddCommand ctx edge ::
        (if ctx.uuidOf edge.parentNaturalId ∈ processed then more
        else .expire (.children (ctx.uuidOf edge.parentNaturalId)) pipelineTtl :: more) ∧
      edgeCommands ctx (if ctx.uuidOf edge.parentNaturalId ∈ processed then processed
        else ctx.uuidOf edge.parentNaturalId :: processed) rest = .ok more := by
  rw [edgeCommands] at h
  obtain ⟨parent, hparent, h⟩ := Fallible.bind_eq_ok.mp h
  obtain ⟨child, hchild, h⟩ := Fallible.bind_eq_ok.mp h
  rw [saddCommand, ctx.uuidOf_eq (ctx.at_eq_ok.mp hparent), ctx.uuidOf_eq (ctx.at_eq_ok.mp hchild)]
  dsimp only at h
  split at h
  · next hmem =>
    obtain ⟨more, hmore, h⟩ := Fallible.bind_eq_ok.mp h
    obtain rfl := Except.ok.inj h
    exact ⟨more, by rw [if_pos hmem], by rw [if_pos hmem, hmore]⟩
  · next hmem =>
    obtain ⟨more, hmore, h⟩ := Fallible.bind_eq_ok.mp h
    obtain rfl := Except.ok.inj h
    exact ⟨more, by rw [if_neg hmem], by rw [if_neg hmem, hmore]⟩

/-- Phase 1 sends the children of a task to its set, and one EXPIRE. -/
theorem commandsFor_edgeCommands (h : edgeCommands ctx processed edges = .ok cmds) :
    commandsFor p cmds =
      if p ∈ processed then linkCommands p (childIds ctx edges p)
      else publishCommands p (childIds ctx edges p) := by
  induction edges generalizing processed cmds with
  | nil =>
    obtain rfl : [] = cmds := Except.ok.inj h
    simp [commandsFor, childIds, linkCommands, publishCommands]
  | cons edge rest ih =>
    obtain ⟨more, rfl, hmore⟩ := edgeCommands_cons h
    have hrest := ih hmore
    by_cases hp : ctx.uuidOf edge.parentNaturalId = p
    · subst hp
      have hchildren : childIds ctx (edge :: rest) (ctx.uuidOf edge.parentNaturalId) =
          ctx.uuidOf edge.childNaturalId ::
            childIds ctx rest (ctx.uuidOf edge.parentNaturalId) := by
        simp [childIds]
      rw [hchildren]
      by_cases hmem : ctx.uuidOf edge.parentNaturalId ∈ processed
      · rw [if_pos hmem, if_pos hmem] at hrest
        rw [if_pos hmem, if_pos hmem, commandsFor, List.filter_cons_of_pos (by simp [saddCommand,
          PipeCmd.key])]
        exact congrArg (_ :: ·) hrest
      · rw [if_neg hmem, if_pos List.mem_cons_self] at hrest
        rw [if_neg hmem, if_neg hmem, commandsFor, List.filter_cons_of_pos (by simp [saddCommand,
          PipeCmd.key]), List.filter_cons_of_pos (by simp [PipeCmd.key])]
        exact congrArg (_ :: _ :: ·) hrest
    · -- the edge is another task's
      have hchildren : childIds ctx (edge :: rest) p = childIds ctx rest p := by
        simp [childIds, hp]
      have hcommands : commandsFor p (saddCommand ctx edge ::
          (if ctx.uuidOf edge.parentNaturalId ∈ processed then more
          else .expire (.children (ctx.uuidOf edge.parentNaturalId)) pipelineTtl :: more)) =
          commandsFor p more := by
        split <;> simp [commandsFor, saddCommand, PipeCmd.key, hp]
      have hprocessed : p ∈ (if ctx.uuidOf edge.parentNaturalId ∈ processed then processed
          else ctx.uuidOf edge.parentNaturalId :: processed) ↔ p ∈ processed := by
        split
        · exact Iff.rfl
        · exact List.mem_cons.trans (or_iff_right (Ne.symm hp))
      rw [hcommands, hrest, hchildren, if_congr hprocessed rfl rfl]

/-- Phase 2 sends nothing to a children set. -/
theorem taskCommands_key {tasks : List PbTask}
    (h : taskCommands serialize ctx edges tasks = .ok cmds) {cmd : PipeCmd} (hcmd : cmd ∈ cmds) :
    cmd.key ≠ .children p := by
  rw [(taskCommands_ok h).2] at hcmd
  obtain ⟨task, -, hcmd⟩ := List.mem_flatMap.mp hcmd
  rcases List.mem_pair.mp hcmd with rfl | rfl
  · exact Key.noConfusion
  · unfold dispatchCommand
    split <;> exact Key.noConfusion

/-- Phase 1 sends nothing elsewhere. -/
theorem edgeCommands_key (h : edgeCommands ctx processed edges = .ok cmds) {cmd : PipeCmd}
    (hcmd : cmd ∈ cmds) : ∃ p, cmd.key = .children p := by
  induction edges generalizing processed cmds with
  | nil =>
    obtain rfl : [] = cmds := Except.ok.inj h
    exact absurd hcmd List.not_mem_nil
  | cons edge rest ih =>
    obtain ⟨more, rfl, hmore⟩ := edgeCommands_cons h
    rcases List.mem_cons.mp hcmd with rfl | hcmd
    · exact ⟨_, rfl⟩
    · split at hcmd
      · exact ih hmore hcmd
      · rcases List.mem_cons.mp hcmd with rfl | hcmd
        · exact ⟨_, rfl⟩
        · exact ih hmore hcmd

/-- The commands on the children sets, and those behind them. -/
theorem appendDag_phases (hjob : ctx.jobId ≠ "")
    (h : appendDagToPipeline serialize req ctx = .ok cmds) :
    ∃ phase1 phase2, cmds = phase1 ++ phase2 ∧ edgeCommands ctx [] req.edges = .ok phase1 ∧
      ∀ cmd ∈ phase2, ∀ p, cmd.key ≠ .children p := by
  rw [appendDagToPipeline_eq, if_neg hjob] at h
  obtain ⟨phase1, hphase1, h⟩ := Fallible.bind_eq_ok.mp h
  obtain ⟨phase2, hphase2, h⟩ := Fallible.bind_eq_ok.mp h
  have htasks : ∀ cmd ∈ phase2, ∀ p, cmd.key ≠ .children p :=
    fun cmd hcmd p => taskCommands_key hphase2 hcmd
  split at h
  · exact ⟨phase1, phase2, (Except.ok.inj h).symm, hphase1, htasks⟩
  · refine ⟨phase1, phase2 ++ [.expire (.deps ctx.jobId) pipelineTtl], ?_, hphase1, ?_⟩
    · rw [← List.append_assoc]
      exact (Except.ok.inj h).symm
    · intro cmd hcmd p
      rcases List.mem_append.mp hcmd with hcmd | hcmd
      · exact htasks cmd hcmd p
      · obtain rfl := List.mem_singleton.mp hcmd
        exact Key.noConfusion

theorem commandsFor_appendDag (hjob : ctx.jobId ≠ "")
    (h : appendDagToPipeline serialize req ctx = .ok cmds) (p : String) :
    commandsFor p cmds = publishCommands p (childIds ctx req.edges p) := by
  obtain ⟨phase1, phase2, rfl, hphase1, hphase2⟩ := appendDag_phases hjob h
  have hnone : commandsFor p phase2 = [] := by
    rw [commandsFor, List.filter_eq_nil_iff]
    exact fun cmd hcmd => by simpa using hphase2 cmd hcmd p
  have hfirst := commandsFor_edgeCommands (p := p) hphase1
  rw [if_neg List.not_mem_nil] at hfirst
  rw [commandsFor, List.filter_append, ← commandsFor, ← commandsFor, hfirst, hnone,
    List.append_nil]

theorem dagGraph_eq_empty : dagGraph ctx req p = ∅ ↔ childIds ctx req.edges p = [] :=
  List.toFinset_eq_empty_iff _

end Commands

-- ---------------------------------------------------------------------------
-- The stages of a children set
-- ---------------------------------------------------------------------------

/-- What becomes of the children set of a task that no script run has processed.
`prompt` says whether the publication is fast enough not to outlast the EXPIRE. -/
inductive ChildrenStage (prompt : Prop) (ctx : DagCommitContext) (req : SubmitDagRequest)
    (p : String) (s : JobRun) : Prop
  | processed (h : p ∈ s.processed)
  | unlinked (hcmds : commandsFor p s.cmds = publishCommands p (childIds ctx req.edges p))
      (hslot : s.stores.redis.keys (childrenKey p) = none) (harmed : s.armed p = none)
  /-- between the first SADD and the EXPIRE -/
  | unarmed (child : String) (left : List String) (hids : childIds ctx req.edges p = child :: left)
      (hcmds : commandsFor p s.cmds =
        .expire (.children p) pipelineTtl :: linkCommands p left)
      (hslot : ∃ members : RedisSet, members.members.toFinset = {child} ∧
        s.stores.redis.keys (childrenKey p) = some ⟨.set members, none⟩)
      (harmed : s.armed p = none)
  | alive (done left : List String) (t : Nat) (hids : childIds ctx req.edges p = done ++ left)
      (hdone : done ≠ []) (hcmds : commandsFor p s.cmds = linkCommands p left)
      (harmed : s.armed p = some t) (hnow : s.stores.redis.now < t + pipelineTtl)
      (hslot : ∃ members : RedisSet, members.members.toFinset = done.toFinset ∧
        s.stores.redis.keys (childrenKey p) = some ⟨.set members, some (t + pipelineTtl)⟩)
  | expired (left : List String) (t : Nat) (hcmds : commandsFor p s.cmds = linkCommands p left)
      (harmed : s.armed p = some t) (hnow : t + pipelineTtl ≤ s.stores.redis.now)
      (hslot : prompt → s.stores.redis.keys (childrenKey p) = none)

namespace JobRun

section Stages

variable {prompt : Prop} {serialize : PbTask → List UInt8} {ctx : DagCommitContext}
  {req : SubmitDagRequest} {svc : SchedulerService} {s t : JobRun} {a : JobRunAction}
  {cmds : List PipeCmd} {p : String}

theorem linked_iff {s : JobRun} : s.Linked p ↔ commandsFor p s.cmds = [] := by
  rw [Linked, commandsFor, List.filter_eq_nil_iff]
  exact forall₂_congr fun cmd _ => by simp

/-- What a script run of `p` is about to see: all its children, or none because it
has none. -/
def Reportable (ctx : DagCommitContext) (req : SubmitDagRequest) (s : JobRun) :
    JobRunAction → Prop
  | .report faults _ request => faults.evalSha ≠ .refused → dagGraph ctx req request.taskId ≠ ∅ →
    request.taskId ∈ s.processed ∨ s.Linked request.taskId
  | _ => True

theorem InTime.reportable (h : s.InTime ctx req a) : s.Reportable ctx req a := by
  cases a with
  | command => trivial
  | pass ms => trivial
  | report faults ord request =>
    exact fun hreached hchildren => (h hreached hchildren).imp_right And.left

/-- What is done elsewhere leaves a children set in its stage. -/
theorem stage_frame (h : ChildrenStage prompt ctx req p s)
    (hcmds : commandsFor p t.cmds = commandsFor p s.cmds)
    (hslot : t.stores.redis.keys (childrenKey p) = s.stores.redis.keys (childrenKey p))
    (hnow : t.stores.redis.now = s.stores.redis.now) (harmed : t.armed p = s.armed p)
    (hprocessed : s.processed ⊆ t.processed) : ChildrenStage prompt ctx req p t := by
  cases h with
  | processed h => exact .processed (hprocessed h)
  | unlinked hcmds' hslot' harmed' =>
    exact .unlinked (hcmds.trans hcmds') (hslot.trans hslot') (harmed.trans harmed')
  | unarmed child left hids hcmds' hslot' harmed' =>
    exact .unarmed child left hids (hcmds.trans hcmds') (hslot ▸ hslot') (harmed.trans harmed')
  | alive done left t' hids hdone hcmds' harmed' hnow' hslot' =>
    exact .alive done left t' hids hdone (hcmds.trans hcmds') (harmed.trans harmed')
      (hnow ▸ hnow') (hslot ▸ hslot')
  | expired left t' hcmds' harmed' hnow' hslot' =>
    exact .expired left t' (hcmds.trans hcmds') (harmed.trans harmed') (hnow ▸ hnow')
      (hslot ▸ hslot')

/-- A new children set. -/
theorem stage_start (hassigns : Assigns ctx req)
    (hcmds : appendDagToPipeline serialize req ctx = .ok cmds) {stores : SchedulerState}
    (hfresh : NoKeys ctx req stores.redis) (hp : p ∈ dagIds ctx req) :
    ChildrenStage prompt ctx req p ⟨cmds, stores, fun _ => none, []⟩ :=
  .unlinked (commandsFor_appendDag hassigns.jobId_ne_empty hcmds p) (hfresh.children p hp) rfl

/-! A command of the pipeline. -/

theorem arm_ne (s : JobRun) {cmd : PipeCmd} (hkey : cmd.key ≠ .children p) :
    s.arm cmd p = s.armed p := by
  cases cmd with
  | expire key ttl =>
    cases key with
    | children q => exact Function.update_of_ne (fun h => hkey (by rw [h]; rfl)) _ _
    | deps _ => rfl
    | taskMeta _ => rfl
    | tasks => rfl
    | errors => rfl
  | sadd _ _ => rfl
  | set _ _ _ => rfl
  | hset _ _ _ => rfl
  | xadd _ _ => rfl

theorem exec_sadd_none {r : Redis} (h : r.keys (childrenKey p) = none) (child : String) :
    ((PipeCmd.sadd (.children p) child).exec r).keys (childrenKey p) =
      some ⟨.set (RedisSet.empty.insert child), none⟩ := by
  rw [PipeCmd.exec, PipeCmd.run, sadd_ok (Redis.isSet_of_none h), Redis.setAt_of_none h,
    Redis.keys_put_self, h]
  rfl

theorem exec_sadd_set {r : Redis} {members : RedisSet} {deadline : Option Nat}
    (h : r.keys (childrenKey p) = some ⟨.set members, deadline⟩) (child : String) :
    ((PipeCmd.sadd (.children p) child).exec r).keys (childrenKey p) =
      some ⟨.set (members.insert child), deadline⟩ := by
  rw [PipeCmd.exec, PipeCmd.run, sadd_ok (Redis.isSet_of_set h), Redis.setAt_of_set h,
    Redis.keys_put_self, h]
  rfl

theorem stage_command {cmd : PipeCmd} {rest : List PipeCmd} (hcmds : s.cmds = cmd :: rest)
    (h : ChildrenStage prompt ctx req p s) (hprompt : prompt → s.Prompt .command) :
    ChildrenStage prompt ctx req p (s.afterCommand cmd rest) := by
  have hnow : (s.afterCommand cmd rest).stores.redis.now = s.stores.redis.now :=
    exec_now cmd s.stores.redis
  by_cases hkey : cmd.key = .children p
  · have hhead : commandsFor p s.cmds = cmd :: commandsFor p rest := by
      rw [hcmds, commandsFor, List.filter_cons_of_pos (by simpa using hkey)]
      rfl
    cases h with
    | processed h => exact .processed h
    | unlinked hall hslot harmed =>
      -- the first child
      rw [hhead] at hall
      cases hids : childIds ctx req.edges p with
      | nil => exact absurd (hids ▸ hall) (List.cons_ne_nil _ _)
      | cons child left =>
        rw [hids, publishCommands] at hall
        obtain ⟨rfl, hrest⟩ := List.cons.inj hall
        exact .unarmed child left hids hrest
          ⟨_, by simp [RedisSet.toFinset_insert, RedisSet.empty], exec_sadd_none hslot child⟩ harmed
    | unarmed child left hids hall hslot harmed =>
      -- its EXPIRE
      rw [hhead] at hall
      obtain ⟨rfl, hrest⟩ := List.cons.inj hall
      obtain ⟨members, hmembers, hslot⟩ := hslot
      refine .alive [child] left s.stores.redis.now hids (List.cons_ne_nil _ _) hrest
        (Function.update_self ..) ?_ ⟨members, by simpa using hmembers, ?_⟩
      · rw [hnow]
        exact Nat.lt_add_of_pos_right (by decide)
      · show (Redis.put _ _ _).keys _ = _
        rw [Redis.keys_put_self]
        show (s.stores.redis.keys (childrenKey p)).map _ = _
        rw [hslot]
        rfl
    | alive done left t hids hdone hall harmed hyoung hslot =>
      -- one child more
      rw [hhead] at hall
      cases left with
      | nil => exact absurd hall (List.cons_ne_nil _ _)
      | cons child left =>
        obtain ⟨rfl, hrest⟩ := List.cons.inj hall
        obtain ⟨members, hmembers, hslot⟩ := hslot
        refine .alive (done ++ [child]) left t (by rw [hids, List.append_assoc]; rfl)
          (by simp) hrest harmed (hnow ▸ hyoung) ⟨members.insert child, ?_, ?_⟩
        · rw [RedisSet.toFinset_insert, hmembers]
          ext c
          simp
        · exact exec_sadd_set hslot child
    | expired left t hall harmed hold hslot =>
      rw [hhead] at hall
      cases left with
      | nil => exact absurd hall (List.cons_ne_nil _ _)
      | cons child left =>
        obtain ⟨rfl, hrest⟩ := List.cons.inj hall
        refine .expired left t hrest harmed (hnow ▸ hold) fun hfast => ?_
        have hyoung := hprompt hfast p child (by rw [hcmds]; rfl) t harmed
        omega
  · refine stage_frame h ?_ (exec_keys_ne fun hkey' => hkey (Key.text_inj.mp hkey').symm) hnow
      (arm_ne s hkey) (List.Subset.refl _)
    rw [hcmds, commandsFor, commandsFor, List.filter_cons_of_neg (by simpa using hkey)]
    rfl

/-! A report. -/

theorem report_redis {faults : CallFaults} {ord : MembersOrder} {request : UpdateTaskStatusRequest}
    (hassigns : Assigns ctx req) (hsuccess : IsSuccessOf ctx req request) (s : JobRun) :
    (s.afterReport ctx req svc faults ord request).stores.redis =
      if faults.evalSha = .refused then s.stores.redis
      else (completeTask ord request.taskId ctx.jobId s.stores.redis).2 := by
  obtain ⟨hstate, hjob, htask⟩ := hsuccess
  rw [afterReport, updateTaskStatus, if_neg (hassigns.id_ne_empty htask), if_pos hstate, ← hjob]
  exact redisCall_state faults.evalSha _ s.stores.redis

theorem report_now {faults : CallFaults} {ord : MembersOrder} {request : UpdateTaskStatusRequest}
    (hassigns : Assigns ctx req) (hsuccess : IsSuccessOf ctx req request) (s : JobRun) :
    (s.afterReport ctx req svc faults ord request).stores.redis.now = s.stores.redis.now := by
  rw [report_redis hassigns hsuccess]
  split
  · rfl
  · exact completeTask_now ord request.taskId ctx.jobId s.stores.redis

theorem report_processed {faults : CallFaults} {ord : MembersOrder}
    {request : UpdateTaskStatusRequest} (s : JobRun) :
    s.processed ⊆ (s.afterReport ctx req svc faults ord request).processed := by
  unfold afterReport
  dsimp only
  split
  · exact List.subset_cons_self _ _
  · exact List.Subset.refl _

/-- Only a script run that decrements every child changes the children set. -/
theorem report_children {faults : CallFaults} {ord : MembersOrder}
    {request : UpdateTaskStatusRequest} (hassigns : Assigns ctx req)
    (hsuccess : IsSuccessOf ctx req request)
    (hfound : faults.evalSha ≠ .refused → dagGraph ctx req request.taskId ⊆
        (s.stores.redis.setAt (childrenKey request.taskId)).members.toFinset ∨
      s.stores.redis.keys (childrenKey request.taskId) = none) :
    request.taskId ∈ (s.afterReport ctx req svc faults ord request).processed ∨
      (s.afterReport ctx req svc faults ord request).stores.redis.keys
          (childrenKey request.taskId) =
        s.stores.redis.keys (childrenKey request.taskId) := by
  rw [report_redis hassigns hsuccess]
  split
  · exact .inr rfl
  · next hreached =>
    rcases hfound hreached with hall | hnone
    · by_cases hok : (completeTask ord request.taskId ctx.jobId s.stores.redis).1.isOk = true
      · refine .inl ?_
        rw [afterReport, if_pos ⟨hreached, hall, hok⟩]
        exact List.mem_cons_self
      · exact .inr (completeTask_failed ord ctx.jobId hok)
    · rw [completeTask_absent ord ctx.jobId hnone]
      exact .inr rfl

theorem stage_report {faults : CallFaults} {ord : MembersOrder}
    {request : UpdateTaskStatusRequest} (hassigns : Assigns ctx req)
    (hsuccess : IsSuccessOf ctx req request) (h : ChildrenStage prompt ctx req p s)
    (hreport : s.Reportable ctx req (.report faults ord request)) :
    ChildrenStage prompt ctx req p (s.afterReport ctx req svc faults ord request) := by
  have hnow := @report_now ctx req svc faults ord request hassigns hsuccess s
  have hprocessed := @report_processed ctx req svc faults ord request s
  by_cases hp : p = request.taskId
  · subst hp
    -- the children set is as it was, or the task is processed
    have hkeep : (faults.evalSha ≠ .refused → dagGraph ctx req request.taskId ⊆
          (s.stores.redis.setAt (childrenKey request.taskId)).members.toFinset ∨
        s.stores.redis.keys (childrenKey request.taskId) = none) →
        ChildrenStage prompt ctx req request.taskId
          (s.afterReport ctx req svc faults ord request) := fun hfound =>
      (@report_children ctx req svc s faults ord request hassigns hsuccess hfound).elim .processed
        fun hslot => stage_frame h rfl hslot hnow rfl hprocessed
    cases h with
    | processed h => exact .processed (hprocessed h)
    | unlinked hall hslot harmed => exact hkeep fun _ => .inr hslot
    | unarmed child left hids hall hslot harmed =>
      by_cases hreached : faults.evalSha = .refused
      · exact hkeep fun h => absurd hreached h
      · rcases hreport hreached (fun hnone => by simp [dagGraph_eq_empty.mp hnone] at hids) with
          hmem | hlinked
        · exact .processed (hprocessed hmem)
        · exact absurd (hall.symm.trans (linked_iff.mp hlinked)) (List.cons_ne_nil _ _)
    | alive done left t hids hdone hall harmed hyoung hslot =>
      by_cases hreached : faults.evalSha = .refused
      · exact hkeep fun h => absurd hreached h
      · rcases hreport hreached (fun hnone => by
          simp [dagGraph_eq_empty.mp hnone, hdone] at hids) with hmem | hlinked
        · exact .processed (hprocessed hmem)
        · -- all children are linked, and still there
          obtain rfl : left = [] :=
            List.map_eq_nil_iff.mp (hall.symm.trans (linked_iff.mp hlinked))
          obtain ⟨members, hmembers, hslot⟩ := hslot
          refine hkeep fun _ => .inl ?_
          rw [Redis.setAt_of_set hslot, hmembers, ← List.append_nil done, ← hids]
          exact Finset.Subset.refl _
    | expired left t hall harmed hold hslot =>
      by_cases hprompt : prompt
      · exact hkeep fun _ => .inr (hslot hprompt)
      · exact .expired left t hall harmed (hnow ▸ hold) fun h => absurd h hprompt
  · refine stage_frame h rfl ?_ hnow rfl hprocessed
    rw [report_redis hassigns hsuccess]
    split
    · rfl
    · exact completeTask_children_ne ord hp ctx.jobId s.stores.redis

/-! Time passes. -/

theorem stage_pass (h : ChildrenStage prompt ctx req p s) (ms : Nat) :
    ChildrenStage prompt ctx req p (s.setRedis (s.stores.redis.advance ms)) := by
  have hnow : (s.setRedis (s.stores.redis.advance ms)).stores.redis.now =
      s.stores.redis.now + ms := rfl
  cases h with
  | processed h => exact .processed h
  | unlinked hall hslot harmed => exact .unlinked hall (Redis.advance_none hslot ms) harmed
  | unarmed child left hids hall hslot harmed =>
    obtain ⟨members, hmembers, hslot⟩ := hslot
    exact .unarmed child left hids hall
      ⟨members, hmembers, Redis.advance_persistent hslot rfl ms⟩ harmed
  | alive done left t hids hdone hall harmed hyoung hslot =>
    obtain ⟨members, hmembers, hslot⟩ := hslot
    by_cases hlive : s.stores.redis.now + ms < t + pipelineTtl
    · exact .alive done left t hids hdone hall harmed (hnow ▸ hlive)
        ⟨members, hmembers, Redis.advance_live hslot rfl hlive⟩
    · have hdue := Nat.le_of_not_lt hlive
      exact .expired left t hall harmed (hnow ▸ hdue) fun _ => Redis.advance_due hslot rfl hdue
  | expired left t hall harmed hold hslot =>
    exact .expired left t hall harmed (hnow ▸ Nat.le_add_right_of_le hold) fun hprompt =>
      Redis.advance_none (hslot hprompt) ms

/-- **What becomes of a children set in a step.** -/
theorem slot_step (hassigns : Assigns ctx req) (h : ChildrenStage prompt ctx req p s)
    (hreport : s.Reportable ctx req a) (hprompt : prompt → s.Prompt a)
    (hstep : s.step ctx req svc a = some t) : ChildrenStage prompt ctx req p t := by
  cases step_moves hstep with
  | command hcmds => exact stage_command hcmds h hprompt
  | report faults ord hsuccess => exact stage_report hassigns hsuccess h hreport
  | pass ms => exact stage_pass h ms

-- ---------------------------------------------------------------------------
-- Reports of dispatched tasks
-- ---------------------------------------------------------------------------

/-- A command on a children set has none but such commands in front of it. -/
def ChildrenFirst (cmds : List PipeCmd) : Prop :=
  cmds.Pairwise fun earlier later =>
    (∃ p, later.key = .children p) → ∃ p, earlier.key = .children p

theorem childrenFirst_appendDag (hjob : ctx.jobId ≠ "")
    (h : appendDagToPipeline serialize req ctx = .ok cmds) : ChildrenFirst cmds := by
  obtain ⟨phase1, phase2, rfl, hphase1, hphase2⟩ := appendDag_phases hjob h
  refine List.pairwise_append.mpr ⟨?_, ?_, ?_⟩
  · exact List.pairwise_of_forall_mem_list fun _ hearlier _ _ _ => edgeCommands_key hphase1 hearlier
  · exact List.pairwise_of_forall_mem_list fun _ _ later hlater ⟨p, hp⟩ =>
      absurd hp (hphase2 later hlater p)
  · exact fun _ hearlier _ _ _ => edgeCommands_key hphase1 hearlier

/-- As long as a children set is incomplete, no task of the job is in the stream. -/
structure LinkedFirst (ctx : DagCommitContext) (req : SubmitDagRequest) (s : JobRun) : Prop where
  first : ChildrenFirst s.cmds
  waiting : (∃ cmd ∈ s.cmds, ∃ p, cmd.key = .children p) →
    ∀ q ∈ dagIds ctx req, streamCount s.stores.redis q = 0

theorem streamCount_congr {r r' : Redis} (h : r'.keys kTasks = r.keys kTasks) (q : String) :
    streamCount r' q = streamCount r q := by
  rw [streamCount, streamCount, Redis.streamAt_congr h]

theorem streamCount_advance {r : Redis} {q : String} (h : streamCount r q = 0) (ms : Nat) :
    streamCount (r.advance ms) q = 0 := by
  rcases r.advance_gone_or_kept ms kTasks with hgone | hkept
  · rw [streamCount, Redis.streamAt_of_none hgone]
    rfl
  · rw [streamCount_congr hkept, h]

theorem linkedFirst_start (hassigns : Assigns ctx req)
    (hcmds : appendDagToPipeline serialize req ctx = .ok cmds) {stores : SchedulerState}
    (hfresh : Fresh ctx req stores.redis) : LinkedFirst ctx req ⟨cmds, stores, fun _ => none, []⟩ :=
  ⟨childrenFirst_appendDag hassigns.jobId_ne_empty hcmds, fun _ => hfresh.entries⟩

theorem LinkedFirst.linked (h : LinkedFirst ctx req s) (hp : p ∈ dagIds ctx req)
    (hentry : 0 < streamCount s.stores.redis p) : s.Linked p := by
  intro cmd hcmd hkey
  have hnone := h.waiting ⟨cmd, hcmd, p, hkey⟩ p hp
  omega

theorem LinkedFirst.step (h : LinkedFirst ctx req s) (hdispatched : s.Dispatched a)
    (hstep : s.step ctx req svc a = some t) : LinkedFirst ctx req t := by
  cases step_moves hstep with
  | @command cmd rest hcmds =>
    have hfirst := hcmds ▸ h.first
    obtain ⟨hhead, htail⟩ := List.pairwise_cons.mp hfirst
    refine ⟨htail, ?_⟩
    rintro ⟨later, hlater, hkey⟩ q hq
    -- the command in front goes to a children set too
    obtain ⟨p, hp⟩ := hhead later hlater hkey
    have hstream : (cmd.exec s.stores.redis).keys kTasks = s.stores.redis.keys kTasks :=
      exec_keys_ne (by simp [hp])
    exact (streamCount_congr hstream q).trans
      (h.waiting ⟨cmd, by rw [hcmds]; exact List.mem_cons_self, p, hp⟩ q hq)
  | report faults ord hsuccess =>
    refine ⟨h.first, fun ⟨cmd, hcmd, hkey⟩ => ?_⟩
    have hnone := h.waiting ⟨cmd, hcmd, hkey⟩ _ hsuccess.2.2
    exact absurd hnone hdispatched.ne'
  | pass ms =>
    exact ⟨h.first, fun hleft q hq => streamCount_advance (h.waiting hleft q hq) ms⟩

/-- **A task that has a stream entry has all its children.** -/
theorem LinkedFirst.reportable (h : LinkedFirst ctx req s) (hdispatched : s.Dispatched a)
    (hstep : s.step ctx req svc a = some t) : s.Reportable ctx req a := by
  cases step_moves hstep with
  | command hcmds => trivial
  | pass ms => trivial
  | report faults ord hsuccess =>
    exact fun _ _ => .inr (h.linked hsuccess.2.2 hdispatched)

-- ---------------------------------------------------------------------------
-- When an empty set tells the truth
-- ---------------------------------------------------------------------------

/-- A children set that is complete and young has children in it. -/
theorem emptyMeansProcessed_of_inTime
    (hstage : ∀ p ∈ dagIds ctx req, ChildrenStage prompt ctx req p s)
    (h : s.InTime ctx req a) (hstep : s.step ctx req svc a = some t) :
    s.EmptyMeansProcessed ctx req a := by
  cases step_moves hstep with
  | command hcmds => trivial
  | pass ms => trivial
  | @report faults ord request hsuccess =>
    intro hreached hchildren hempty _
    rcases h hreached hchildren with hmem | ⟨hlinked, time, harmed, hyoung⟩
    · exact hmem
    · cases hstage _ hsuccess.2.2 with
      | processed hmem => exact hmem
      | unlinked hall hslot harmed' => exact nomatch harmed'.symm.trans harmed
      | unarmed child left hids hall hslot harmed' => exact nomatch harmed'.symm.trans harmed
      | alive done left time' hids hdone hall harmed' hyoung' hslot =>
        obtain ⟨members, hmembers, hslot⟩ := hslot
        rw [smembers_ok ord (Redis.isSet_of_set hslot), Redis.setAt_of_set hslot] at hempty
        have hnone : members.members = [] :=
          List.perm_nil.mp ((Except.ok.inj hempty) ▸ (ord.perm members.members)).symm
        rw [hnone] at hmembers
        exact absurd (List.toFinset_eq_empty_iff done |>.mp hmembers.symm) hdone
      | expired left time' hall harmed' hold hslot =>
        obtain rfl : time' = time := Option.some.inj (harmed'.symm.trans harmed)
        omega

/-- A run for a task whose children were lost finds none, and says so to nobody. -/
theorem inTime_of_emptyMeansProcessed
    (hstage : ∀ p ∈ dagIds ctx req, ChildrenStage True ctx req p s)
    (hreport : s.Reportable ctx req a) (h : s.EmptyMeansProcessed ctx req a)
    (hstep : s.step ctx req svc a = some t) : s.InTime ctx req a := by
  cases step_moves hstep with
  | command hcmds => trivial
  | pass ms => trivial
  | @report faults ord request hsuccess =>
    intro hreached hchildren
    rcases hreport hreached hchildren with hmem | hlinked
    · exact .inl hmem
    · have hnone := linked_iff.mp hlinked
      cases hstage _ hsuccess.2.2 with
      | processed hmem => exact .inl hmem
      | unlinked hall hslot harmed =>
        cases hids : childIds ctx req.edges request.taskId with
        | nil => exact absurd (dagGraph_eq_empty.mpr hids) hchildren
        | cons child left =>
          rw [hids] at hall
          exact nomatch hall.symm.trans hnone
      | unarmed child left hids hall hslot harmed => exact nomatch hall.symm.trans hnone
      | alive done left time hids hdone hall harmed hyoung hslot =>
        exact .inr ⟨hlinked, time, harmed, hyoung⟩
      | expired left time hall harmed hold hslot =>
        have hgone := hslot trivial
        refine .inl (h hreached hchildren ?_ ?_)
        · rw [smembers_ok ord (Redis.isSet_of_none hgone), Redis.setAt_of_none hgone]
          exact congrArg Except.ok (List.perm_nil.mp (ord.perm []))
        · rw [completeTask_absent ord ctx.jobId hgone]

/-- **When an empty children set tells the truth.** It does in every run that reports
a task first when its children are complete, and within 24 hours of their EXPIRE. In
a run that reports what was dispatched and does not add to expired sets, these are
the only ones. -/
theorem empty_means_processed_iff (hassigns : Assigns ctx req)
    (hcmds : appendDagToPipeline serialize req ctx = .ok cmds) {stores : SchedulerState}
    (hfresh : Fresh ctx req stores.redis) (svc : SchedulerService) {actions : List JobRunAction}
    (hrun : run (JobRun.step ctx req svc) (start cmds stores) actions = some t) :
    (Along (JobRun.step ctx req svc) (JobRun.InTime ctx req) (start cmds stores) actions →
      Along (JobRun.step ctx req svc) (JobRun.EmptyMeansProcessed ctx req) (start cmds stores)
        actions) ∧
    (Along (JobRun.step ctx req svc) JobRun.Dispatched (start cmds stores) actions →
      Along (JobRun.step ctx req svc) JobRun.Prompt (start cmds stores) actions →
      (Along (JobRun.step ctx req svc) (JobRun.EmptyMeansProcessed ctx req) (start cmds stores)
          actions ↔
        Along (JobRun.step ctx req svc) (JobRun.InTime ctx req) (start cmds stores) actions)) := by
  have hsound : Along (JobRun.step ctx req svc) (JobRun.InTime ctx req) (start cmds stores)
      actions →
      Along (JobRun.step ctx req svc) (JobRun.EmptyMeansProcessed ctx req) (start cmds stores)
        actions := by
    intro hok
    refine Along.imp (P := fun s => ∀ p ∈ dagIds ctx req, ChildrenStage False ctx req p s)
      (fun s a u hstage hin hstep => ⟨fun p hp => ?_, ?_⟩) hrun hok fun p hp => ?_
    · exact slot_step hassigns (hstage p hp) hin.reportable False.elim hstep
    · exact emptyMeansProcessed_of_inTime hstage hin hstep
    · exact stage_start hassigns hcmds hfresh.toNoKeys hp
  refine ⟨hsound, fun hdispatched hprompt => ⟨fun hempty => ?_, hsound⟩⟩
  have hok := (along_and hrun).mpr ⟨hdispatched, (along_and hrun).mpr ⟨hprompt, hempty⟩⟩
  refine Along.imp (P := fun s => LinkedFirst ctx req s ∧
      ∀ p ∈ dagIds ctx req, ChildrenStage True ctx req p s) ?_ hrun hok
    ⟨linkedFirst_start hassigns hcmds hfresh, fun p hp =>
      stage_start hassigns hcmds hfresh.toNoKeys hp⟩
  rintro s a u ⟨hlinked, hstage⟩ ⟨hdisp, hfast, hemp⟩ hstep
  have hreport := hlinked.reportable hdisp hstep
  refine ⟨⟨hlinked.step hdisp hstep, fun p hp => ?_⟩, ?_⟩
  · exact slot_step hassigns (hstage p hp) hreport (fun _ => hfast) hstep
  · exact inTime_of_emptyMeansProcessed hstage hreport hemp hstep

end Stages

section Decidable

variable (ctx : DagCommitContext) (req : SubmitDagRequest) (s : JobRun)

instance (p : String) : Decidable (s.Linked p) :=
  inferInstanceAs (Decidable (∀ cmd ∈ s.cmds, cmd.key ≠ .children p))

instance : ∀ a, Decidable (s.EmptyMeansProcessed ctx req a)
  | .report .. => inferInstanceAs (Decidable (_ → _))
  | .command => inferInstanceAs (Decidable True)
  | .pass _ => inferInstanceAs (Decidable True)

instance : ∀ a, Decidable (s.InTime ctx req a)
  | .report .. => inferInstanceAs (Decidable (_ → _))
  | .command => inferInstanceAs (Decidable True)
  | .pass _ => inferInstanceAs (Decidable True)

instance : ∀ a, Decidable (s.Dispatched a)
  | .report .. => inferInstanceAs (Decidable (_ < _))
  | .command => inferInstanceAs (Decidable True)
  | .pass _ => inferInstanceAs (Decidable True)

end Decidable

/-! Two tasks in a row: the first is reported twice, a day apart; or for the first time after a
day. -/

def chainPipeline : List PipeCmd :=
  (appendDagToPipeline (fun _ => []) chainRequest chainContext).toOption.getD []

def chainService : SchedulerService := ⟨true, true, fun _ => .ok .null⟩

def chainStart : JobRun := start chainPipeline ⟨.empty, .empty, [], []⟩

def chainPublished : List JobRunAction := chainPipeline.map fun _ => .command

def rootReported : JobRunAction := .report {} .insertion (successOf taskA).request

theorem empty_means_processed_iff_chain :
    Along (JobRun.step chainContext chainRequest chainService)
      (JobRun.EmptyMeansProcessed chainContext chainRequest) chainStart
      (chainPublished ++ [rootReported, .pass pipelineTtl, rootReported]) := by
  have hassigns : Assigns chainContext chainRequest := commitContext_assigns jobX rfl (by decide)
  have hcmds : appendDagToPipeline (fun _ => []) chainRequest chainContext = .ok chainPipeline :=
    rfl
  obtain ⟨u, hrun⟩ : ∃ u, run (JobRun.step chainContext chainRequest chainService) chainStart
      (chainPublished ++ [rootReported, .pass pipelineTtl, rootReported]) = some u :=
    Option.isSome_iff_exists.mp (by decide +kernel)
  refine (empty_means_processed_iff hassigns hcmds (fresh_empty _ _) chainService hrun).1 ?_
  decide +kernel

theorem not_empty_means_processed :
    appendDagToPipeline (fun _ => []) chainRequest chainContext = .ok chainPipeline ∧
      Fresh chainContext chainRequest .empty ∧
      (∃ u, run (JobRun.step chainContext chainRequest chainService) chainStart
        (chainPublished ++ [.pass pipelineTtl, rootReported]) = some u) ∧
      Along (JobRun.step chainContext chainRequest chainService) JobRun.Dispatched chainStart
        (chainPublished ++ [.pass pipelineTtl, rootReported]) ∧
      ¬ Along (JobRun.step chainContext chainRequest chainService)
        (JobRun.EmptyMeansProcessed chainContext chainRequest) chainStart
        (chainPublished ++ [.pass pipelineTtl, rootReported]) :=
  ⟨rfl, fresh_empty _ _, Option.isSome_iff_exists.mp (by decide +kernel), by decide +kernel,
    by decide +kernel⟩

end JobRun

end DistTaskSystem
