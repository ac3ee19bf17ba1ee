import DistTaskSystem.Guarantees.DagEngine

/-!
# DTS — publishing while tasks complete

`pipe.exec()` sends the commands of a publication one by one, so a fast worker
can report a root task before its descendants have their counters. This module
lets completion scripts and other clients run between any two commands
(`Publishing`) and determines which requests survive it: `publication_race_iff`
— no script finds a child without its counter **iff** the tasks are listed in
an order in which no parent of a task can become ready before the task itself
is listed (`SubmitDagRequest.Ordered`).
-/

namespace DistTaskSystem

open Countdown (Exact parents pending)

/-! ## Interleavings -/

/-- A keyspace before a publication under fresh ids: no key of the job, no
entry that points to one of its tasks and none that reports about it. -/
structure Fresh (ctx : DagCommitContext) (req : SubmitDagRequest) (r : Redis) : Prop extends
    NoKeys ctx req r where
  entries : ∀ t ∈ dagIds ctx req, streamCount r t = 0
  faults : (view ctx.jobId r).faults = []

/-- What other clients may do: they use neither the keys of the job nor the
ids of its tasks. -/
structure Foreign (ctx : DagCommitContext) (req : SubmitDagRequest) (r r' : Redis) : Prop where
  children : ∀ t ∈ dagIds ctx req, r'.keys (childrenKey t) = r.keys (childrenKey t)
  metas : ∀ t ∈ dagIds ctx req, r'.keys (taskMeta t) = r.keys (taskMeta t)
  deps : r'.keys (dependencyHash ctx.jobId) = r.keys (dependencyHash ctx.jobId)
  tasks : r'.IsStream kTasks
  errors : r'.IsStream kErrors
  entries : ∀ t ∈ dagIds ctx req, streamCount r' t = streamCount r t
  faults : (view ctx.jobId r').faults = (view ctx.jobId r).faults

/-- The states of a publication under way: the commands still to be executed,
the tasks whose script has run, and the keyspace. -/
inductive Publishing (serialize : PbTask → List UInt8) (ctx : DagCommitContext)
    (req : SubmitDagRequest) (r₀ : Redis) : List PipeCmd → Finset String → Redis → Prop where
  | start {cmds : List PipeCmd} (h : appendDagToPipeline serialize req ctx = .ok cmds) :
    Publishing serialize ctx req r₀ cmds ∅ r₀
  | command {cmd : PipeCmd} {rest : List PipeCmd} {R : Finset String} {r : Redis}
    (h : Publishing serialize ctx req r₀ (cmd :: rest) R r) :
    Publishing serialize ctx req r₀ rest R (cmd.exec r)
  | script {cmds : List PipeCmd} {R : Finset String} {r : Redis} (ord : MembersOrder)
    {p : String} (h : Publishing serialize ctx req r₀ cmds R r) (hp : p ∈ dagIds ctx req)
    (hentry : 0 < streamCount r p) :
    Publishing serialize ctx req r₀ cmds (insert p R) (completeTask ord p ctx.jobId r).2
  | other {cmds : List PipeCmd} {R : Finset String} {r r' : Redis}
    (h : Publishing serialize ctx req r₀ cmds R r) (hforeign : Foreign ctx req r r') :
    Publishing serialize ctx req r₀ cmds R r'

/-- No script run finds a child without its counter, and after the last command
every task with parents is pushed once or waits for its unreported parents. -/
def RaceFree (serialize : PbTask → List UInt8) (ctx : DagCommitContext) (req : SubmitDagRequest)
    (r₀ : Redis) : Prop :=
  ∀ cmds R r, Publishing serialize ctx req r₀ cmds R r →
    (∀ c, Countdown.Fault.negative c ∉ (view ctx.jobId r).faults) ∧
    (cmds = [] → ∀ t ∈ dagIds ctx req, dagParents ctx req t ≠ ∅ →
      streamCount r t = 1 ∨ (r.hashAt (dependencyHash ctx.jobId)).lookup t =
        some ((dagParents ctx req t \ R).card : ℤ))

/-! ## The condition on the request -/

/-- A task that can become ready although only the tasks in `listed` have been
announced: its roots are among them. -/
inductive SubmitDagRequest.Startable (req : SubmitDagRequest) (listed : List String) :
    String → Prop where
  | intro {n : String} (hroot : (∀ edge ∈ req.edges, edge.childNaturalId ≠ n) → n ∈ listed)
    (hparents : ∀ edge ∈ req.edges, edge.childNaturalId = n →
      req.Startable listed edge.parentNaturalId) : req.Startable listed n

/-- No parent of a task can become ready from the tasks listed before it. -/
def SubmitDagRequest.Ordered (req : SubmitDagRequest) : Prop :=
  ∀ earlier task later, req.tasks = earlier ++ task :: later →
    ∀ edge ∈ req.edges, edge.childNaturalId = task.naturalId →
      ¬ req.Startable (earlier.map PbTask.naturalId) edge.parentNaturalId

section Startable

variable {req : SubmitDagRequest}

theorem Startable.mono {listed listed' : List String} (hsub : listed ⊆ listed') {n : String}
    (h : req.Startable listed n) : req.Startable listed' n := by
  induction h with
  | intro hroot _ ih => exact .intro (fun hn => hsub (hroot hn)) ih

/-- Nothing can start before a task is listed. -/
theorem not_startable_nil {n : String} : ¬ req.Startable [] n := by
  intro h
  induction h with
  | @intro n hroot _ ih =>
    by_cases hn : ∀ edge ∈ req.edges, edge.childNaturalId ≠ n
    · exact absurd (hroot hn) List.not_mem_nil
    · push Not at hn
      obtain ⟨edge, hedge, hchild⟩ := hn
      exact ih edge hedge hchild

end Startable


/-! ## What a publication under way looks like -/

/-- The ids of a list of tasks. -/
def idsOf (ctx : DagCommitContext) (tasks : List PbTask) : List String :=
  tasks.map fun task => ctx.uuidOf task.naturalId

/-- The commands of phase 2 for a list of tasks. -/
def taskPart (serialize : PbTask → List UInt8) (ctx : DagCommitContext) (req : SubmitDagRequest)
    (tasks : List PbTask) : List PipeCmd :=
  tasks.flatMap fun task => [metaCommand serialize ctx task, dispatchCommand ctx req.edges task]

/-- The edges in `edges` are linked, the tasks in `done` announced and those in
`R` completed; everything completed could start from what is announced. -/
structure Core (ctx : DagCommitContext) (req : SubmitDagRequest) (edges : List TaskEdge)
    (done : List PbTask) (R : Finset String) (r : Redis) : Prop where
  exact : ∃ base : String → ℕ, (∀ t ∈ dagNodes ctx req, base t = 0) ∧
    Exact (dagNodes ctx req) (edgeChildren ctx edges) base [] (idsOf ctx done) R
      (view ctx.jobId r)
  typed : JobTyped ctx req r
  startable : ∀ p ∈ R, ∃ n ∈ req.naturalIds, ctx.uuidOf n = p ∧
    req.Startable (done.map PbTask.naturalId) n

/-- Where a publication stands; `cmds` are the commands left, the EXPIREs
dropped. -/
inductive Stage (serialize : PbTask → List UInt8) (ctx : DagCommitContext)
    (req : SubmitDagRequest) (cmds : List PipeCmd) (R : Finset String) (r : Redis) : Prop where
  /-- phase 1 -/
  | linking (done left : List TaskEdge) (hedges : req.edges = done ++ left) (hR : R = ∅)
    (hcmds : cmds = left.map (saddCommand ctx) ++ taskPart serialize ctx req req.tasks)
    (core : Core ctx req done [] ∅ r)
  /-- phase 2, before a task -/
  | between (done left : List PbTask) (htasks : req.tasks = done ++ left)
    (hcmds : cmds = taskPart serialize ctx req left) (core : Core ctx req req.edges done R r)
  /-- phase 2, between the two commands of a task -/
  | inside (done : List PbTask) (task : PbTask) (left : List PbTask)
    (htasks : req.tasks = done ++ task :: left)
    (hcmds : cmds = dispatchCommand ctx req.edges task :: taskPart serialize ctx req left)
    (hknown : (view ctx.jobId r).known (ctx.uuidOf task.naturalId) = true)
    (core : Core ctx req req.edges done R r)

section Stages

variable {serialize : PbTask → List UInt8} {ctx : DagCommitContext} {req : SubmitDagRequest}
  {r r' : Redis} {R : Finset String} {edges : List TaskEdge} {done : List PbTask}

theorem idsOf_append (tasks tasks' : List PbTask) :
    idsOf ctx (tasks ++ tasks') = idsOf ctx tasks ++ idsOf ctx tasks' :=
  List.map_append

theorem idsOf_subset (hdone : done ⊆ req.tasks) {t : String} (ht : t ∈ idsOf ctx done) :
    t ∈ dagNodes ctx req := by
  obtain ⟨task, htask, rfl⟩ := List.mem_map.mp ht
  exact mem_dagNodes.mpr (List.mem_map.mpr ⟨task, hdone htask, rfl⟩)

/-- The initial state of phase 1. -/
theorem core_start (hfresh : Fresh ctx req r) : Core ctx req [] [] ∅ r where
  exact := by
    refine ⟨(view ctx.jobId r).ready.count, fun t ht => hfresh.entries t (mem_dagNodes.mp ht), ?_⟩
    have hexact := Exact.init (V := dagNodes ctx req) (G := edgeChildren ctx [])
      (s := view ctx.jobId r) (fun p hp => ?_) fun t => ?_
    · rw [hfresh.faults] at hexact
      exact hexact
    · simp [view, edgeChildren, RedisSet.empty,
        Redis.setAt_of_none (hfresh.children p (mem_dagNodes.mp hp))]
    · simp [view, Redis.hashAt_of_none hfresh.deps]
  typed := hfresh.typed
  startable := by simp

/-- Other clients do not disturb a publication. -/
theorem Core.foreign (hdone : done ⊆ req.tasks) (h : Core ctx req edges done R r)
    (hforeign : Foreign ctx req r r') : Core ctx req edges done R r' where
  exact := by
    obtain ⟨base, hbase, hexact⟩ := h.exact
    obtain ⟨base', hbase', hexact'⟩ := hexact.frame (view ctx.jobId r')
      (fun t ht => idsOf_subset hdone ht)
      (fun p hp => by
        show (r'.setAt _).members.toFinset = (r.setAt _).members.toFinset
        rw [Redis.setAt_congr (hforeign.children p (mem_dagNodes.mp hp))])
      (by
        show (fun t => (r'.hashAt _).lookup t) = fun t => (r.hashAt _).lookup t
        rw [Redis.hashAt_congr hforeign.deps])
      (fun t ht => by
        show (r'.keys _).isSome = (r.keys _).isSome
        rw [hforeign.metas t (mem_dagNodes.mp ht)])
      (fun t ht => hforeign.entries t (mem_dagNodes.mp ht)) hforeign.faults
    exact ⟨base', fun t ht => (hbase' t ht).trans (hbase t ht), hexact'⟩
  typed := {
    children := fun t ht =>
      (Redis.isSet_congr (hforeign.children t (mem_dagNodes.mp ht))).mpr (h.typed.children t ht)
    shared := ⟨(Redis.isHash_congr hforeign.deps).mpr h.typed.shared.deps, hforeign.tasks,
      hforeign.errors⟩ }
  startable := h.startable

/-- A command that only adds to what is known keeps the core. -/
theorem Core.meta (serialize : PbTask → List UInt8) (h : Core ctx req edges done R r)
    (task : PbTask) :
    Core ctx req edges done R ((metaCommand serialize ctx task).exec r) ∧
      (view ctx.jobId ((metaCommand serialize ctx task).exec r)).known
        (ctx.uuidOf task.naturalId) = true := by
  have hfits : (metaCommand serialize ctx task).Fits r := ⟨_, rfl⟩
  have hview := exec_view ctx.jobId hfits
  rw [act_meta] at hview
  refine ⟨⟨?_, h.typed.exec hfits, h.startable⟩, ?_⟩
  · obtain ⟨base, hbase, hexact⟩ := h.exact
    exact ⟨base, hbase, hview ▸ hexact.learn _⟩
  · rw [hview]
    exact Function.update_self ..

theorem Core.expire (h : Core ctx req edges done R r) (key : Key) (ttl : Nat) :
    Core ctx req edges done R ((PipeCmd.expire key ttl).exec r) ∧
      (view ctx.jobId ((PipeCmd.expire key ttl).exec r)).known = (view ctx.jobId r).known := by
  have hview : view ctx.jobId ((PipeCmd.expire key ttl).exec r) = view ctx.jobId r :=
    exec_view ctx.jobId (show (PipeCmd.expire key ttl).Fits r from trivial)
  refine ⟨⟨?_, h.typed.exec trivial, h.startable⟩, by rw [hview]⟩
  rw [hview]
  exact h.exact

/-- Phase 1 links one edge more. -/
theorem Core.link (hlisted : req.Listed) {linked : List TaskEdge} {edge : TaskEdge}
    (hedge : edge ∈ req.edges) (h : Core ctx req linked [] ∅ r) :
    Core ctx req (linked ++ [edge]) [] ∅ ((saddCommand ctx edge).exec r) := by
  have hfits : (saddCommand ctx edge).Fits r :=
    ⟨h.typed.children _ (mem_dagNodes.mpr (mem_dagIds.mpr ⟨_, hlisted.parent edge hedge, rfl⟩)),
      _, rfl⟩
  have hview := exec_view ctx.jobId hfits
  have hlink := actAll_sadd ctx [edge] (view ctx.jobId r)
  obtain ⟨base, hbase, hexact⟩ := h.exact
  refine ⟨⟨base, hbase, ?_⟩, h.typed.exec hfits, by simp⟩
  rw [hview]
  refine ⟨fun p hp => ?_, fun t => ?_, fun t ht => absurd ht List.not_mem_nil, fun t => ?_,
    hexact.faults⟩
  · rw [show (saddCommand ctx edge).act ctx.jobId (view ctx.jobId r) =
      actAll ctx.jobId ([edge].map (saddCommand ctx)) (view ctx.jobId r) from rfl, hlink]
    have hchildren := hexact.children p hp
    simp only [Finset.notMem_empty, if_false] at hchildren ⊢
    rw [hchildren]
    ext c
    simp only [Finset.mem_union, mem_edgeChildren, List.mem_append, List.mem_singleton,
      or_and_right, exists_or]
  · simpa [idsOf, saddCommand, PipeCmd.act] using hexact.counter t
  · have hready := hexact.ready t
    simpa [idsOf, saddCommand, PipeCmd.act] using hready

/-- Membership of the completed tasks, by natural id. -/
theorem Core.startable_of_mem (hassigns : Assigns ctx req) (h : Core ctx req edges done R r)
    {n : String} (hn : n ∈ req.naturalIds) (hR : ctx.uuidOf n ∈ R) :
    req.Startable (done.map PbTask.naturalId) n := by
  obtain ⟨m, hm, heq, hstart⟩ := h.startable _ hR
  rwa [hassigns.uuidOf_inj hm hn heq] at hstart

theorem mem_dagParents (hassigns : Assigns ctx req) (hlisted : req.Listed) {n p : String}
    (hn : n ∈ req.naturalIds) : p ∈ dagParents ctx req (ctx.uuidOf n) ↔
      ∃ edge ∈ req.edges, edge.childNaturalId = n ∧ ctx.uuidOf edge.parentNaturalId = p := by
  rw [dagParents, parents_eq hassigns hlisted hn]
  simp [and_assoc]

/-- A task whose parents could not have completed is announced. -/
theorem Core.dispatch (hassigns : Assigns ctx req) (hlisted : req.Listed) (hordered : req.Ordered)
    {task : PbTask} {left : List PbTask} (htasks : req.tasks = done ++ task :: left)
    (hknown : (view ctx.jobId r).known (ctx.uuidOf task.naturalId) = true)
    (h : Core ctx req req.edges done R r) :
    Core ctx req req.edges (done ++ [task]) R ((dispatchCommand ctx req.edges task).exec r) := by
  have hmem : task ∈ req.tasks := by simp [htasks]
  have hn : task.naturalId ∈ req.naturalIds := List.mem_map_of_mem hmem
  have hfits : (dispatchCommand ctx req.edges task).Fits r :=
    h.typed.dagCommand_fits (fun _ => []) hlisted
      (List.mem_append_right _ (List.mem_flatMap.mpr ⟨task, hmem, by simp⟩))
  have hR : ∀ p ∈ parents (dagNodes ctx req) (dagGraph ctx req) (ctx.uuidOf task.naturalId),
      p ∉ R := by
    intro p hp hpR
    obtain ⟨edge, hedge, hchild, rfl⟩ := (mem_dagParents hassigns hlisted hn).mp hp
    exact hordered done task left htasks edge hedge hchild
      (h.startable_of_mem hassigns (hlisted.parent edge hedge) hpR)
  obtain ⟨base, hbase, hexact⟩ := h.exact
  refine ⟨⟨base, hbase, ?_⟩, h.typed.exec hfits, fun p hp => ?_⟩
  · rw [exec_view ctx.jobId hfits, idsOf_append]
    exact Exact.dispatch hassigns hlisted hexact hn hknown hR
  · obtain ⟨n, hn', heq, hstart⟩ := h.startable p hp
    exact ⟨n, hn', heq, Startable.mono (by simp) hstart⟩

/-- A task with a stream entry is announced and all its parents are completed. -/
theorem Core.of_entry (h : Core ctx req edges done R r) {p : String} (hp : p ∈ dagNodes ctx req)
    (hentry : 0 < streamCount r p) :
    p ∈ idsOf ctx done ∧ parents (dagNodes ctx req) (edgeChildren ctx edges) p ⊆ R := by
  obtain ⟨base, hbase, hexact⟩ := h.exact
  have hready := hexact.ready p
  have hcount : (view ctx.jobId r).ready.count p = streamCount r p := rfl
  rw [hcount, hbase p hp] at hready
  by_cases hroot : parents (dagNodes ctx req) (edgeChildren ctx edges) p = ∅
  · rw [if_pos hroot] at hready
    exact ⟨List.count_pos_iff.mp (by omega), hroot ▸ Finset.empty_subset R⟩
  · rw [if_neg hroot] at hready
    split at hready
    · next hpub => exact ⟨hpub.1, Countdown.pending_eq_zero.mp hpub.2⟩
    · omega

/-- A task with a stream entry could start from the announced tasks. -/
theorem Core.startable_of_entry (hassigns : Assigns ctx req) (hlisted : req.Listed)
    (hdone : done ⊆ req.tasks) (h : Core ctx req req.edges done R r) {p : String}
    (hp : p ∈ dagNodes ctx req) (hentry : 0 < streamCount r p) :
    ∃ n ∈ req.naturalIds, ctx.uuidOf n = p ∧ req.Startable (done.map PbTask.naturalId) n := by
  obtain ⟨hpub, hparents⟩ := h.of_entry hp hentry
  obtain ⟨task, htask, rfl⟩ := List.mem_map.mp hpub
  have hn : task.naturalId ∈ req.naturalIds := List.mem_map_of_mem (hdone htask)
  refine ⟨_, hn, rfl, .intro (fun _ => List.mem_map_of_mem htask) fun edge hedge hchild => ?_⟩
  refine h.startable_of_mem hassigns (hlisted.parent edge hedge) (hparents ?_)
  exact (mem_dagParents hassigns hlisted hn).mpr ⟨edge, hedge, hchild, rfl⟩

/-- **A script run between two commands** finds all its children announced. -/
theorem Core.script (hassigns : Assigns ctx req) (hlisted : req.Listed) (hordered : req.Ordered)
    {left : List PbTask} (htasks : req.tasks = done ++ left)
    (h : Core ctx req req.edges done R r) (ord : MembersOrder) {p : String}
    (hp : p ∈ dagNodes ctx req) (hentry : 0 < streamCount r p) :
    Core ctx req req.edges done (insert p R) (completeTask ord p ctx.jobId r).2 ∧
      ∀ t ∈ dagNodes ctx req, (view ctx.jobId (completeTask ord p ctx.jobId r).2).known t =
        (view ctx.jobId r).known t := by
  have hdone : done ⊆ req.tasks := by simp [htasks]
  obtain ⟨n, hn, heq, hstart⟩ := h.startable_of_entry hassigns hlisted hdone hp hentry
  have hpub : ∀ c ∈ dagGraph ctx req p, c ∈ idsOf ctx done := by
    intro c hc
    obtain ⟨edge, hedge, hparent, rfl⟩ := mem_edgeChildren.mp hc
    have hedgeParent : edge.parentNaturalId = n :=
      hassigns.uuidOf_inj (hlisted.parent edge hedge) hn (hparent.trans heq.symm)
    by_contra hnot
    -- the child is still to be listed, but its parent could already start
    obtain ⟨task, htask, htaskId⟩ := List.mem_map.mp (hlisted.child edge hedge)
    rw [htasks] at htask
    rcases List.mem_append.mp htask with hin | hin
    · exact hnot (List.mem_map.mpr ⟨task, hin, by rw [htaskId]⟩)
    · obtain ⟨before, after, rfl⟩ := List.append_of_mem hin
      refine hordered (done ++ before) task after (by simp [htasks]) edge hedge htaskId.symm ?_
      rw [hedgeParent]
      exact Startable.mono (by simp) hstart
  obtain ⟨base, hbase, hexact⟩ := h.exact
  obtain ⟨k, r', hrun, hexact', htyped', hframe⟩ :=
    completeTask_exact h.typed hexact ord hp fun _ => hpub
  rw [hrun]
  refine ⟨⟨⟨base, hbase, hexact'⟩, htyped', fun q hq => ?_⟩, fun t _ => ?_⟩
  · rcases Finset.mem_insert.mp hq with rfl | hq
    · exact ⟨n, hn, heq, hstart⟩
    · exact h.startable q hq
  · show (r'.keys _).isSome = (r.keys _).isSome
    rw [hframe.other _ (by simp) (by simp) (by simp) (by simp)]

end Stages

/-! ## Every interleaving of an ordered request -/

section Interleaving

variable {serialize : PbTask → List UInt8} {ctx : DagCommitContext} {req : SubmitDagRequest}
  {r₀ : Redis}

@[simp] theorem taskPart_cons (task : PbTask) (rest : List PbTask) :
    taskPart serialize ctx req (task :: rest) = metaCommand serialize ctx task ::
      dispatchCommand ctx req.edges task :: taskPart serialize ctx req rest := rfl

/-- One command of the publication, the EXPIREs aside. -/
theorem Stage.command (hassigns : Assigns ctx req) (hlisted : req.Listed)
    (hordered : req.Ordered) {cmd : PipeCmd} {rest : List PipeCmd} {R : Finset String} {r : Redis}
    (h : Stage serialize ctx req (cmd :: rest) R r) :
    Stage serialize ctx req rest R (cmd.exec r) := by
  -- phase 1 without a link left is phase 2 without a task done
  have hbetween : ∀ done left, req.tasks = done ++ left →
      cmd :: rest = taskPart serialize ctx req left → Core ctx req req.edges done R r →
      Stage serialize ctx req rest R (cmd.exec r) := by
    intro done left htasks hcmds core
    cases left with
    | nil => simp [taskPart] at hcmds
    | cons task left =>
      rw [taskPart_cons, List.cons.injEq] at hcmds
      obtain ⟨rfl, rfl⟩ := hcmds
      obtain ⟨hcore, hknown⟩ := core.meta serialize task
      exact .inside done task left htasks rfl hknown hcore
  cases h with
  | linking done left hedges hR hcmds core =>
    subst hR
    cases left with
    | nil =>
      rw [List.append_nil] at hedges
      exact hbetween [] req.tasks rfl hcmds (hedges ▸ core)
    | cons edge left =>
      rw [List.map_cons, List.cons_append, List.cons.injEq] at hcmds
      obtain ⟨rfl, rfl⟩ := hcmds
      exact .linking (done ++ [edge]) left (by simp [hedges]) rfl rfl
        (core.link hlisted (by simp [hedges]))
  | between done left htasks hcmds core => exact hbetween done left htasks hcmds core
  | inside done task left htasks hcmds hknown core =>
    rw [List.cons.injEq] at hcmds
    obtain ⟨rfl, rfl⟩ := hcmds
    exact .between (done ++ [task]) left (by simp [htasks]) rfl
      (core.dispatch hassigns hlisted hordered htasks hknown)

theorem Stage.expire {cmds : List PipeCmd} {R : Finset String} {r : Redis} (key : Key) (ttl : Nat)
    (h : Stage serialize ctx req cmds R r) :
    Stage serialize ctx req cmds R ((PipeCmd.expire key ttl).exec r) := by
  cases h with
  | linking done left hedges hR hcmds core =>
    exact .linking done left hedges hR hcmds (core.expire key ttl).1
  | between done left htasks hcmds core =>
    exact .between done left htasks hcmds (core.expire key ttl).1
  | inside done task left htasks hcmds hknown core =>
    exact .inside done task left htasks hcmds (by rw [(core.expire key ttl).2, hknown])
      (core.expire key ttl).1

/-- **Every interleaving of an ordered request stays in order**, by induction on
the run. -/
theorem publishing_stage (hassigns : Assigns ctx req) (hlisted : req.Listed)
    (hordered : req.Ordered) (hfresh : Fresh ctx req r₀) {cmds : List PipeCmd}
    {R : Finset String} {r : Redis} (h : Publishing serialize ctx req r₀ cmds R r) :
    Stage serialize ctx req (cmds.filter fun cmd => !cmd.isExpire) R r := by
  induction h with
  | start hcmds =>
    rw [(appendDag_ok hassigns.jobId_ne_empty hcmds).2]
    exact .linking [] req.edges rfl rfl rfl (core_start hfresh)
  | @command cmd rest R r _ ih =>
    cases cmd with
    | expire key ttl => exact ih.expire key ttl
    | _ => exact ih.command hassigns hlisted hordered
  | @script cmds R r ord p _ hp hentry ih =>
    have hnode := mem_dagNodes.mpr hp
    cases ih with
    | linking done left hedges hR hcmds core =>
      -- nothing is announced in phase 1
      subst hR
      exact absurd (core.of_entry hnode hentry).1 List.not_mem_nil
    | between done left htasks hcmds core =>
      exact .between done left htasks hcmds
        (core.script hassigns hlisted hordered htasks ord hnode hentry).1
    | inside done task left htasks hcmds hknown core =>
      obtain ⟨hcore, hsame⟩ := core.script hassigns hlisted hordered htasks ord hnode hentry
      refine .inside done task left htasks hcmds ?_ hcore
      rw [hsame _ (mem_dagNodes.mpr (List.mem_map.mpr ⟨task, by simp [htasks], rfl⟩)), hknown]
  | @other cmds R r r' _ hforeign ih =>
    cases ih with
    | linking done left hedges hR hcmds core =>
      exact .linking done left hedges hR hcmds (core.foreign (List.nil_subset _) hforeign)
    | between done left htasks hcmds core =>
      exact .between done left htasks hcmds (core.foreign (by simp [htasks]) hforeign)
    | inside done task left htasks hcmds hknown core =>
      refine .inside done task left htasks hcmds ?_ (core.foreign (by simp [htasks]) hforeign)
      show (r'.keys _).isSome = true
      rw [hforeign.metas _ (List.mem_map.mpr ⟨task, by simp [htasks], rfl⟩)]
      exact hknown

/-- An ordered request survives every interleaving. -/
theorem raceFree_of_ordered (hassigns : Assigns ctx req)
    (hlisted : req.Listed) (hordered : req.Ordered) (hfresh : Fresh ctx req r₀) :
    RaceFree serialize ctx req r₀ := by
  intro cmds R r h
  have hstage := publishing_stage hassigns hlisted hordered hfresh h
  have hfaults : (view ctx.jobId r).faults = [] := by
    cases hstage with
    | linking _ _ _ _ _ core => exact core.exact.elim fun _ hexact => hexact.2.faults
    | between _ _ _ _ core => exact core.exact.elim fun _ hexact => hexact.2.faults
    | inside _ _ _ _ _ _ core => exact core.exact.elim fun _ hexact => hexact.2.faults
  refine ⟨fun c => by simp [hfaults], fun hnil t ht hroot => ?_⟩
  subst hnil
  -- no command is left: every task is announced
  have hcore : Core ctx req req.edges req.tasks R r := by
    cases hstage with
    | linking done left hedges hR hcmds core =>
      rw [List.filter_nil, eq_comm, List.append_eq_nil_iff, List.map_eq_nil_iff] at hcmds
      obtain ⟨rfl, hnone⟩ := hcmds
      have htasks : req.tasks = [] := by
        cases htasks : req.tasks with
        | nil => rfl
        | cons task rest => simp [htasks] at hnone
      rw [List.append_nil] at hedges
      rw [htasks, hedges, hR]
      exact core
    | between done left htasks hcmds core =>
      cases left with
      | nil => rwa [htasks, List.append_nil]
      | cons task rest => simp at hcmds
    | inside done task left htasks hcmds hknown core => simp at hcmds
  obtain ⟨base, hbase, hexact⟩ := hcore.exact
  by_cases hready : dagParents ctx req t ⊆ R
  · left
    have hcount := hexact.ready t
    have hzero : pending (dagNodes ctx req) (edgeChildren ctx req.edges) R t = 0 :=
      Countdown.pending_eq_zero.mpr hready
    have hne : parents (dagNodes ctx req) (edgeChildren ctx req.edges) t ≠ ∅ := hroot
    rw [if_neg hne, if_pos ⟨ht, hzero⟩, hbase t (mem_dagNodes.mpr ht), Nat.zero_add]
      at hcount
    exact hcount
  · right
    have hcounter := hexact.counter t
    have hpos : 0 < pending (dagNodes ctx req) (edgeChildren ctx req.edges) R t :=
      Nat.pos_of_ne_zero fun hzero => hready (Countdown.pending_eq_zero.mp hzero)
    rw [if_pos ⟨ht, hpos⟩] at hcounter
    exact hcounter

/-! ## The interleaving that breaks any other request -/

/-- A state in which the tasks in `done` are announced, those in `R` completed,
and every completion has found all its children announced. -/
structure Advance (ctx : DagCommitContext) (req : SubmitDagRequest) (done : List PbTask)
    (R : Finset String) (r : Redis) : Prop where
  exact : ∃ base : String → ℕ, Exact (dagNodes ctx req) (dagGraph ctx req) base [] (idsOf ctx done)
    R (view ctx.jobId r)
  typed : JobTyped ctx req r
  closed : ∀ p ∈ R, ∀ c ∈ dagGraph ctx req p, c ∈ idsOf ctx done

/-- Some script run reports a missing counter. -/
def Breaks (serialize : PbTask → List UInt8) (ctx : DagCommitContext) (req : SubmitDagRequest)
    (r₀ : Redis) : Prop :=
  ∃ cmds R r c, Publishing serialize ctx req r₀ cmds R r ∧
    Countdown.Fault.negative c ∈ (view ctx.jobId r).faults

theorem publishing_pipeline {before after : List PipeCmd} {R : Finset String} {r : Redis}
    (h : Publishing serialize ctx req r₀ (before ++ after) R r) :
    Publishing serialize ctx req r₀ after R (execPipeline before r) := by
  induction before generalizing r with
  | nil => exact h
  | cons cmd rest ih => exact ih (.command h)

/-- Completing a ready task either keeps the state or breaks. -/
theorem Advance.complete {done : List PbTask} {cmds : List PipeCmd} {R : Finset String} {r : Redis}
    (hrun : Publishing serialize ctx req r₀ cmds R r) (h : Advance ctx req done R r) {p : String}
    (hp : p ∈ dagNodes ctx req) (hpub : p ∈ idsOf ctx done) (hparents : dagParents ctx req p ⊆ R) :
    Breaks serialize ctx req r₀ ∨ ∃ r', Publishing serialize ctx req r₀ cmds (insert p R) r' ∧
      Advance ctx req done (insert p R) r' := by
  by_cases hpR : p ∈ R
  · rw [Finset.insert_eq_of_mem hpR]
    exact .inr ⟨r, hrun, h⟩
  obtain ⟨base, hexact⟩ := h.exact
  have hentry : 0 < streamCount r p := by
    have hready := hexact.ready p
    have hcount : (view ctx.jobId r).ready.count p = streamCount r p := rfl
    have hone := List.count_pos_iff.mpr hpub
    rw [hcount] at hready
    split at hready
    · omega
    · rw [if_pos ⟨hpub, Countdown.pending_eq_zero.mpr hparents⟩] at hready
      omega
  have hnext := Publishing.script .insertion hrun (mem_dagNodes.mp hp) hentry
  by_cases hall : ∀ c ∈ dagGraph ctx req p, c ∈ idsOf ctx done
  · right
    obtain ⟨k, r', hscript, hexact', htyped', -⟩ :=
      completeTask_exact h.typed hexact .insertion hp fun _ => hall
    rw [hscript] at hnext
    refine ⟨r', hnext, ⟨base, hexact'⟩, htyped', fun q hq => ?_⟩
    rcases Finset.mem_insert.mp hq with rfl | hq
    · exact hall
    · exact h.closed q hq
  · left
    push Not at hall
    obtain ⟨c, hc, hnot⟩ := hall
    obtain ⟨r', hscript, heffect, -⟩ := completeTask_effect .insertion
      (h.typed.children p hp) fun d hd =>
        h.typed.shared.childFits (exact_left_inInt64 hexact hp hd)
    rw [hscript] at hnext
    refine ⟨cmds, insert p R, r', c, hnext, ?_⟩
    -- the child is not announced: its counter goes from nothing to -1
    have hleft : (view ctx.jobId r).left c = -1 := by
      rw [Countdown.State.left, hexact.counter c, if_neg fun hpend => hnot hpend.1]
      rfl
    have hfault : (view ctx.jobId r).faultOf c = some (.negative c) := by
      rw [Countdown.State.faultOf, hleft]
      rfl
    have hmem : c ∈ MembersOrder.insertion.order (r.setAt (childrenKey p)).members := by
      have hchildren := hexact.children p hp
      rw [if_neg hpR] at hchildren
      have hin : c ∈ (view ctx.jobId r).children p := hchildren ▸ hc
      exact List.mem_toFinset.mp hin
    have hnodup : (MembersOrder.insertion.order (r.setAt (childrenKey p)).members).Nodup :=
      (r.setAt (childrenKey p)).nodup
    rw [heffect.view, Countdown.State.complete]
    show _ ∈ (Countdown.State.decrementAll _ _).faults
    rw [Countdown.State.decrementAll_faults hnodup]
    exact List.mem_append_right _ (List.mem_filterMap.mpr ⟨c, hmem, hfault⟩)

/-- A task that could start does start, unless something breaks before. -/
theorem Advance.startable (hassigns : Assigns ctx req) (hlisted : req.Listed)
    {done : List PbTask} {cmds : List PipeCmd} {n : String}
    (hstart : req.Startable (done.map PbTask.naturalId) n) :
    n ∈ req.naturalIds → ∀ {R : Finset String} {r : Redis},
    Publishing serialize ctx req r₀ cmds R r → Advance ctx req done R r →
    Breaks serialize ctx req r₀ ∨ ∃ R' r', R ⊆ R' ∧ ctx.uuidOf n ∈ R' ∧
      Publishing serialize ctx req r₀ cmds R' r' ∧ Advance ctx req done R' r' := by
  induction hstart with
  | @intro n hroot _ ih =>
    intro hn R r hrun h
    -- first the parents, edge by edge
    have hparents : ∀ edges : List TaskEdge,
        (∀ edge ∈ edges, edge ∈ req.edges ∧ edge.childNaturalId = n) →
        Breaks serialize ctx req r₀ ∨ ∃ R' r', R ⊆ R' ∧
          (∀ edge ∈ edges, ctx.uuidOf edge.parentNaturalId ∈ R') ∧
          Publishing serialize ctx req r₀ cmds R' r' ∧ Advance ctx req done R' r' := by
      intro edges hedges
      induction edges with
      | nil => exact .inr ⟨R, r, Finset.Subset.refl R, by simp, hrun, h⟩
      | cons edge rest ihEdges =>
        obtain ⟨⟨hedge, hchild⟩, hrest⟩ := List.forall_mem_cons.mp hedges
        rcases ihEdges hrest with hbreak | ⟨R₁, r₁, hsub₁, hin₁, hrun₁, h₁⟩
        · exact .inl hbreak
        rcases ih edge hedge hchild (hlisted.parent edge hedge) hrun₁ h₁ with
          hbreak | ⟨R₂, r₂, hsub₂, hin₂, hrun₂, h₂⟩
        · exact .inl hbreak
        · exact .inr ⟨R₂, r₂, hsub₁.trans hsub₂,
            List.forall_mem_cons.mpr ⟨hin₂, fun e he => hsub₂ (hin₁ e he)⟩, hrun₂, h₂⟩
    rcases hparents (req.edges.filter fun edge => edge.childNaturalId = n)
      (fun edge hedge => by simpa using List.mem_filter.mp hedge) with
      hbreak | ⟨R₁, r₁, hsub₁, hin₁, hrun₁, h₁⟩
    · exact .inl hbreak
    have hparent : ∀ edge ∈ req.edges, edge.childNaturalId = n →
        ctx.uuidOf edge.parentNaturalId ∈ R₁ := fun edge hedge hchild =>
      hin₁ edge (List.mem_filter.mpr ⟨hedge, by simpa using hchild⟩)
    -- a root is listed; any other task is a child of a completed one
    have hpub : ctx.uuidOf n ∈ idsOf ctx done := by
      by_cases hn' : ∀ edge ∈ req.edges, edge.childNaturalId ≠ n
      · obtain ⟨task, htask, rfl⟩ := List.mem_map.mp (hroot hn')
        exact List.mem_map.mpr ⟨task, htask, rfl⟩
      · push Not at hn'
        obtain ⟨edge, hedge, hchild⟩ := hn'
        refine h₁.closed _ (hparent edge hedge hchild) _ ?_
        exact mem_edgeChildren.mpr ⟨edge, hedge, rfl, by rw [hchild]⟩
    have hready : dagParents ctx req (ctx.uuidOf n) ⊆ R₁ := by
      intro p hp
      obtain ⟨edge, hedge, hchild, rfl⟩ := (mem_dagParents hassigns hlisted hn).mp hp
      exact hparent edge hedge hchild
    rcases h₁.complete hrun₁ (mem_dagNodes.mpr (mem_dagIds.mpr ⟨n, hn, rfl⟩)) hpub hready with
      hbreak | ⟨r₂, hrun₂, h₂⟩
    · exact .inl hbreak
    · exact .inr ⟨_, r₂, hsub₁.trans (Finset.subset_insert _ _), Finset.mem_insert_self _ _,
        hrun₂, h₂⟩

/-- The state after the tasks listed before one of them are announced. -/
theorem advance_reached (serialize : PbTask → List UInt8) (hassigns : Assigns ctx req)
    (hlisted : req.Listed) (hfresh : Fresh ctx req r₀) {earlier later : List PbTask}
    (htasks : req.tasks = earlier ++ later) :
    ∃ cmds r, Publishing serialize ctx req r₀ cmds ∅ r ∧ Advance ctx req earlier ∅ r := by
  obtain ⟨cmds, hcmds⟩ := appendDag_total serialize (hassigns.resolves hlisted)
  have hfits := appendDag_fits hassigns hlisted hfresh.typed hcmds
  have hfilter := (appendDag_ok hassigns.jobId_ne_empty hcmds).2
  rw [dagCommands, htasks, List.flatMap_append, ← List.append_assoc,
    List.filter_eq_append_iff] at hfilter
  obtain ⟨before, after, rfl, hbefore, -⟩ := hfilter
  have hfitsBefore : ∀ cmd ∈ before, cmd.Fits r₀ := fun cmd hcmd =>
    hfits cmd (List.mem_append_left _ hcmd)
  refine ⟨after, execPipeline before r₀, publishing_pipeline (.start hcmds),
    ⟨streamCount r₀, ?_⟩, hfresh.typed.execPipeline hfitsBefore, by simp⟩
  rw [execPipeline_view _ hfitsBefore, ← actAll_filter, hbefore, actAll_append, ← hfresh.faults]
  have hphase1 := phase1_exact hfresh.toNoKeys
  refine actAll_tasks serialize hassigns hlisted (fun task htask => ?_) hphase1
  exact List.mem_map_of_mem (by simp [htasks, htask])

/-- A request that is not ordered breaks in some interleaving. -/
theorem ordered_of_raceFree (hdistinct : req.naturalIds.Nodup) (hassigns : Assigns ctx req)
    (hlisted : req.Listed) (hfresh : Fresh ctx req r₀) (h : RaceFree serialize ctx req r₀) :
    req.Ordered := by
  intro earlier task later htasks edge hedge hchild hstart
  obtain ⟨cmds, r, hrun, hadvance⟩ :=
    advance_reached serialize hassigns hlisted hfresh htasks
  rcases hadvance.startable hassigns hlisted hstart (hlisted.parent edge hedge) hrun with
    ⟨cmds', R, r', c, hrun', hfault⟩ | ⟨R, r', -, hmem, -, hadvance'⟩
  · exact (h cmds' R r' hrun').1 c hfault
  · -- the parent completed, so the task was announced among the earlier ones
    have hannounced := hadvance'.closed _ hmem (ctx.uuidOf edge.childNaturalId)
      (mem_edgeChildren.mpr ⟨edge, hedge, rfl, rfl⟩)
    obtain ⟨task', htask', heq⟩ := List.mem_map.mp hannounced
    have hsame : task'.naturalId = task.naturalId := by
      rw [← hchild]
      exact hassigns.uuidOf_inj (List.mem_map_of_mem (by simp [htasks, htask']))
        (hlisted.child edge hedge) heq
    have hnodup := hdistinct
    rw [SubmitDagRequest.naturalIds, htasks, List.map_append, List.map_cons,
      List.nodup_middle, List.nodup_cons] at hnodup
    refine hnodup.1 (List.mem_append_left _ ?_)
    rw [← hsame]
    exact List.mem_map_of_mem htask'

/-- **When a publication is race-free.** Under any interleaving with completion
scripts and other clients no script finds a child without its counter, and the
publication ends in the state of its graph, iff no parent of a task can become
ready from the tasks listed before that task. -/
theorem publication_race_iff (hdistinct : req.naturalIds.Nodup) (hlisted : req.Listed)
    (hassigns : Assigns ctx req) (hfresh : Fresh ctx req r₀) :
    RaceFree serialize ctx req r₀ ↔ req.Ordered :=
  ⟨ordered_of_raceFree hdistinct hassigns hlisted hfresh,
    fun hordered => raceFree_of_ordered hassigns hlisted hordered hfresh⟩

end Interleaving

theorem fresh_empty (ctx : DagCommitContext) (req : SubmitDagRequest) : Fresh ctx req .empty where
  toNoKeys := noKeys_empty ctx req
  entries _ _ := rfl
  faults := rfl

/-! Two tasks in a row, listed in the order of the dependency and against it. -/

def chainContext : DagCommitContext := commitContext chainRequest jobX [taskA, taskB]

/-- Listed first, the root can be reported before its child has a counter. -/
theorem chain_races :
    chainRequest.naturalIds.Nodup ∧ chainRequest.Listed ∧ Assigns chainContext chainRequest ∧
      Fresh chainContext chainRequest .empty ∧
      ¬ RaceFree (fun _ => []) chainContext chainRequest .empty := by
  have hdistinct : chainRequest.naturalIds.Nodup := by decide
  have hlisted : chainRequest.Listed := ⟨by decide, by decide, by decide⟩
  have hassigns : Assigns chainContext chainRequest := commitContext_assigns jobX rfl (by decide)
  refine ⟨hdistinct, hlisted, hassigns, fresh_empty _ _, fun hfree => ?_⟩
  have hordered := ordered_of_raceFree hdistinct hassigns hlisted (fresh_empty _ _) hfree
  refine hordered [_] _ [] rfl ⟨"a", "b"⟩ (by decide) rfl (.intro (fun _ => by decide) ?_)
  intro edge hedge hchild
  obtain rfl : edge = ⟨"a", "b"⟩ := List.mem_singleton.mp hedge
  exact absurd hchild (by decide)

def reversedChain : SubmitDagRequest where
  idempotencyKey := "chain"
  tasks := [{ naturalId := "b" }, { naturalId := "a" }]
  edges := [⟨"a", "b"⟩]
  edgesSize := chainRequest.edgesSize

theorem publication_race_iff_reversed :
    RaceFree (fun _ => []) (commitContext reversedChain jobX [taskB, taskA]) reversedChain
      .empty := by
  refine (publication_race_iff (by decide) ⟨by decide, by decide, by decide⟩
    (commitContext_assigns jobX rfl (by decide)) (fresh_empty _ _)).mpr ?_
  intro earlier task later htasks edge hedge hchild
  obtain rfl : edge = ⟨"a", "b"⟩ := List.mem_singleton.mp hedge
  -- the only task with a parent comes first
  cases earlier with
  | nil => exact not_startable_nil
  | cons first rest =>
    have hnodup : (reversedChain.naturalIds).Nodup := by decide
    have hfirst : first.naturalId = "b" := by
      have := congrArg (fun tasks => tasks.head?.map PbTask.naturalId) htasks
      simpa [reversedChain] using this.symm
    rw [SubmitDagRequest.naturalIds, htasks, List.cons_append, List.map_cons, List.nodup_cons,
      hfirst] at hnodup
    refine absurd ?_ hnodup.1
    have hb : task.naturalId = "b" := hchild.symm
    rw [← hb]
    exact List.mem_map_of_mem (List.mem_append_right rest List.mem_cons_self)

end DistTaskSystem
