import DistTaskSystem.ApiServer.BatchGraph
import DistTaskSystem.Guarantees.DagEngine
import DistTaskSystem.Guarantees.FlushTiming
import DistTaskSystem.Guarantees.Submission
import DistTaskSystem.Library.Workflow
import DistTaskSystem.Scheduler.JobService

/-!
# DTS — the workflow of a job

Jobs are submitted in batches at any time, their tasks are reported in any
order, failed ones are pushed again, the flush thread writes when it likes,
dispatches fail and the patrol interferes. `Lifecycle` is what happens as long
as every stream entry is answered by at most one report and no store fails. To
Redis a job is then its graph with the tasks that have succeeded, and a count
of the failures of each task.

## Results

* `Lifecycle`              — the states of the system, with the jobs and the reports so far.
* `CountsDown.streamCount` — the entries of a task are the offers of its workflow.
* `CountsDown.complete`    — what a SUCCESS report does for this job and for the others.
-/

namespace DistTaskSystem

open Runs
open Countdown (Exact)

-- ---------------------------------------------------------------------------
-- The workflow of a job
-- ---------------------------------------------------------------------------

namespace Submission

variable (sub : Submission)

/-- How often a task may be retried. -/
def limit (t : String) : ℕ :=
  ((sub.req.tasks.find? fun task => sub.item.ctx.uuidOf task.naturalId = t).map
    fun task => task.maxRetry.toNat).getD 0

/-- The job as a workflow over the ids of its tasks. -/
def workflow : Workflow String where
  tasks := dagNodes sub.item.ctx sub.req
  parents := dagParents sub.item.ctx sub.req
  limit := sub.limit
  closed _ _ := Finset.filter_subset _ _

/-- The tasks of the job among those reported, in order. -/
def answers (reports : List StatusReport) : List String :=
  (reports.map fun r => r.request.taskId).filter (· ∈ sub.workflow.tasks)

/-- The scheduler can read what the column `func_params` makes of the parameters. -/
def Readable (env : JobService) : Prop :=
  ∀ task ∈ sub.req.tasks, ∃ j, parseParams env.svc.parse (env.jsonbIn task.funcParams) = .ok j

end Submission

/-- How often a task was reported. -/
def executions (reports : List StatusReport) (t : String) : ℕ :=
  (reports.map fun r => r.request.taskId).count t

section Workflows

variable {sub : Submission} {reports : List StatusReport} {t : String}

theorem Submission.limit_eq (h : Assigns sub.item.ctx sub.req)
    (hdistinct : sub.req.naturalIds.Nodup) {task : PbTask} (htask : task ∈ sub.req.tasks) :
    sub.limit (sub.item.ctx.uuidOf task.naturalId) = task.maxRetry.toNat := by
  have hfound : sub.req.tasks.find? (fun task' =>
      sub.item.ctx.uuidOf task'.naturalId = sub.item.ctx.uuidOf task.naturalId) = some task := by
    cases hfind : sub.req.tasks.find? (fun task' =>
        sub.item.ctx.uuidOf task'.naturalId = sub.item.ctx.uuidOf task.naturalId) with
    | none => simpa using List.find?_eq_none.mp hfind task htask
    | some task' =>
      have hmem := List.mem_of_find?_eq_some hfind
      have hid : sub.item.ctx.uuidOf task'.naturalId = sub.item.ctx.uuidOf task.naturalId := by
        simpa using List.find?_some hfind
      have hnatural := h.uuidOf_inj (List.mem_map_of_mem hmem) (List.mem_map_of_mem htask) hid
      rw [List.inj_on_of_nodup_map hdistinct hmem htask hnatural]
  rw [limit, hfound]
  rfl

theorem Submission.count_answers (ht : t ∈ sub.workflow.tasks) :
    (sub.answers reports).count t = executions reports t :=
  List.count_filter (by simpa using ht)

theorem Submission.answers_append (more : List StatusReport) :
    sub.answers (reports ++ more) = sub.answers reports ++ sub.answers more := by
  simp [answers]

theorem Submission.answers_own {r : StatusReport} (h : r.request.taskId ∈ sub.workflow.tasks) :
    sub.answers [r] = [r.request.taskId] := by
  simp [answers, h]

theorem Submission.answers_other {r : StatusReport} (h : r.request.taskId ∉ sub.workflow.tasks) :
    sub.answers [r] = [] := by
  simp [answers, h]

end Workflows

-- ---------------------------------------------------------------------------
-- The system
-- ---------------------------------------------------------------------------

section System

variable (env : JobService) (fate : String → ℕ)

/-- The id is the one of a task of these jobs. -/
def Owned (subs : List Submission) (t : String) : Prop :=
  ∃ sub ∈ subs, t ∈ dagIds sub.item.ctx sub.req

/-- An entry for a task of the jobs has no report yet. -/
def Unanswered (subs : List Submission) (reports : List StatusReport) (s : Reporting) (t : String) :
    Prop :=
  Owned subs t ∧ executions reports t < streamCount s.redis t

/-- The report is the answer to an entry: it carries the ids of the entry, it is a failure
as long as the task has not failed as often as its fate says, and its calls reach the
stores. -/
structure AnswersEntry (subs : List Submission) (reports : List StatusReport) (s : Reporting)
    (r : StatusReport) : Prop where
  job : ∃ sub ∈ subs, r.request.jobId = sub.jobId.text ∧
    r.request.taskId ∈ dagIds sub.item.ctx sub.req
  unanswered : executions reports r.request.taskId < streamCount s.redis r.request.taskId
  result : r.request.finalState = .success ↔
    fate r.request.taskId ≤ executions reports r.request.taskId
  script : r.faults.evalSha ≠ .refused
  failure : r.faults.handleTaskFailure = .committed
  lookup : r.faults.getTaskById = .committed
  push : r.faults.xadd ≠ .refused

/-- The steps the guarantee is about, with the jobs that are accepted and the reports. -/
inductive Orderly (subs : List Submission) (reports : List StatusReport) (s : Reporting) :
    StoreAction → List Submission → List StatusReport → Prop
  /-- the generated ids are new and both stores take the batch -/
  | taken {new : List Submission} (nowTs : Int) (hids : FreshIds (subs ++ new) .empty)
      (hfresh : FreshIds new s.batcher.db) (hkeys : FreshKeys new s.redis)
      (hstorable : ∀ sub ∈ new, sub.req.Storable env.jsonbIn)
      (hfree : KeysFree new s.batcher.db) (hreadable : ∀ sub ∈ new, sub.Readable env) :
      Orderly subs reports s (.submit new {} nowTs) new []
  /-- the database refuses the batch -/
  | refused {new : List Submission} (faults : BatchFaults) (nowTs : Int)
      (hfresh : FreshIds new s.batcher.db)
      (hbad : ¬ ((∀ sub ∈ new, sub.req.Storable env.jsonbIn) ∧ KeysFree new s.batcher.db)) :
      Orderly subs reports s (.submit new faults nowTs) [] []
  | report {r : StatusReport} (h : AnswersEntry fate subs reports s r) :
      Orderly subs reports s (.reporting (.report r)) [] [r]
  | batcher {a : BatcherAction} (h : Reporting.FlushCommits env.jsonbIn s (.batcher a)) :
      Orderly subs reports s (.reporting (.batcher a)) [] []
  /-- the task of an entry that has no report -/
  | revert {t : String} (outcome : TxOutcome) (h : Unanswered subs reports s t) :
      Orderly subs reports s (.revert t outcome) [] []
  | requeue (workerId : String) (outcome : TxOutcome) :
      Orderly subs reports s (.requeue workerId outcome) [] []
  /-- no key expires -/
  | pass {ms : Nat} (h : ∀ key, (s.redis.advance ms).keys key = s.redis.keys key) :
      Orderly subs reports s (.pass ms) [] []

/-- The states of the system, with the jobs accepted and the reports so far. -/
inductive Lifecycle : List Submission → List StatusReport → Reporting → Prop
  | start (db : Db) {redis : Redis} (htasks : redis.IsStream kTasks)
      (herrors : redis.IsStream kErrors) : Lifecycle [] [] (.started redis db)
  | step {subs new : List Submission} {reports more : List StatusReport} {s t : Reporting}
      {a : StoreAction} (h : Lifecycle subs reports s)
      (hok : Orderly env fate subs reports s a new more) (hstep : env.step s a = some t) :
      Lifecycle (subs ++ new) (reports ++ more) t

end System

-- ---------------------------------------------------------------------------
-- A job in Redis
-- ---------------------------------------------------------------------------

section InRedis

variable {sub : Submission} {p p' : Workflow.Progress String} {r r' : Redis} {t : String}

/-- The countdown of the job is the one of its graph; a task was pushed again for each
failure but the last. -/
def CountsDown (sub : Submission) (p : Workflow.Progress String) (r : Redis) : Prop :=
  ∃ base, (∀ t ∈ sub.workflow.tasks, base t = min (p.failures t) (sub.limit t)) ∧
    Engine sub.item.ctx sub.req base (r.streamAt kErrors).entries p.done r

theorem engine_of_exact {ctx : DagCommitContext} {req : SubmitDagRequest} {base : String → ℕ}
    {errs : List (Countdown.Fault String)} {R : Finset String}
    (h : Exact (dagNodes ctx req) (dagGraph ctx req) base errs (dagIds ctx req) R
      (view ctx.jobId r)) (ht : JobTyped ctx req r) :
    Engine ctx req base (r.streamAt kErrors).entries R r := by
  obtain rfl := h.faults
  exact ⟨h, ht, rfl⟩

theorem CountsDown.typed (h : CountsDown sub p r) : JobTyped sub.item.ctx sub.req r := by
  obtain ⟨base, -, hengine⟩ := h
  exact hengine.typed

/-- **The entries of a task are its offers.** -/
theorem CountsDown.streamCount (h : CountsDown sub p r)
    (hnodup : (dagIds sub.item.ctx sub.req).Nodup) (ht : t ∈ sub.workflow.tasks) :
    streamCount r t = sub.workflow.offers p t := by
  obtain ⟨base, hbase, hengine⟩ := h
  have hid : t ∈ dagIds sub.item.ctx sub.req := mem_dagNodes.mp ht
  rw [hengine.streamCount_eq hnodup, hbase t ht, Workflow.offers, Nat.add_comm]
  simp only [hid, true_and]
  rfl

/-- What the tasks of the job do not see does not matter. -/
theorem CountsDown.agree (h : CountsDown sub p r)
    (hagree : (view sub.jobId.text r).Agree sub.workflow.tasks (view sub.jobId.text r'))
    (ht : JobTyped sub.item.ctx sub.req r') : CountsDown sub p r' := by
  obtain ⟨base, hbase, hengine⟩ := h
  obtain ⟨base', hsame, hexact⟩ := hengine.exact.agree (fun t ht => mem_dagNodes.mpr ht) hagree
  exact ⟨base', fun t ht => (hsame t ht).trans (hbase t ht), engine_of_exact hexact ht⟩

/-- The keys are the same. -/
theorem CountsDown.congr (h : CountsDown sub p r) (hkeys : ∀ key, r'.keys key = r.keys key) :
    CountsDown sub p r' := by
  have hview : view sub.jobId.text r' = view sub.jobId.text r := by
    simp only [view, Redis.setAt, Redis.hashAt, Redis.has, Redis.streamAt, hkeys]
  refine h.agree (hview ▸ .refl _ _) ⟨fun t ht => ?_, ?_⟩
  · exact (Redis.isSet_congr (hkeys _)).mpr (h.typed.children t ht)
  · exact ⟨(Redis.isHash_congr (hkeys _)).mpr h.typed.shared.deps,
      (Redis.isStream_congr (hkeys _)).mpr h.typed.shared.tasks,
      (Redis.isStream_congr (hkeys _)).mpr h.typed.shared.errors⟩

/-- The state after an entry for a task is added. -/
theorem push_effect (h : JobTyped sub.item.ctx sub.req r) (t jobId : String) :
    view sub.jobId.text (xadd kTasks (toXAddArgs t jobId) r).2 =
        { view sub.jobId.text r with ready := (view sub.jobId.text r).ready ++ [t] } ∧
      JobTyped sub.item.ctx sub.req (xadd kTasks (toXAddArgs t jobId) r).2 := by
  obtain ⟨id, r', hrun, heffect⟩ := xadd_tasks_effect sub.jobId.text h.shared.tasks fun id =>
    taskId?_toXAddArgs id t jobId
  rw [hrun]
  refine ⟨heffect.view, fun t ht => ?_, heffect.typed h.shared⟩
  refine (Redis.isSet_congr ?_).mpr (h.children t ht)
  exact heffect.frame.other _ List.not_mem_nil (by simp) (by simp) (by simp)

/-- An entry for a task of another job. -/
theorem CountsDown.push_other (h : CountsDown sub p r) (ht : t ∉ sub.workflow.tasks)
    (jobId : String) : CountsDown sub p (xadd kTasks (toXAddArgs t jobId) r).2 := by
  obtain ⟨hview, htyped⟩ := push_effect h.typed t jobId
  refine h.agree (hview ▸ ⟨fun _ _ => rfl, rfl, fun _ _ => rfl, fun c hc => ?_, rfl⟩) htyped
  have hne : t ≠ c := fun heq => ht (heq ▸ hc)
  show (_ ++ [t]).count c = _
  rw [List.count_append, List.count_singleton, if_neg (by simpa using hne), Nat.add_zero]

/-- **A failed task is pushed again.** -/
theorem CountsDown.push_own (h : CountsDown sub p r) (hleft : p.failures t < sub.limit t)
    (jobId : String) :
    CountsDown sub { p with failures := Function.update p.failures t (p.failures t + 1) }
      (xadd kTasks (toXAddArgs t jobId) r).2 := by
  obtain ⟨hview, htyped⟩ := push_effect h.typed t jobId
  obtain ⟨base, hbase, hengine⟩ := h
  have hexact := hengine.exact.relog t
  rw [show sub.item.ctx.jobId = sub.jobId.text from rfl, ← hview] at hexact
  refine ⟨fun x => base x + if x = t then 1 else 0, fun c hc => ?_,
    engine_of_exact hexact htyped⟩
  dsimp only
  rw [hbase c hc]
  by_cases hct : c = t
  · subst hct
    simp only [if_true, Function.update_self]
    omega
  · simp only [hct, if_false, Function.update_of_ne hct, Nat.add_zero]

/-- The last failure of a task changes nothing in Redis. -/
theorem CountsDown.exhausted (h : CountsDown sub p r) (hlast : sub.limit t ≤ p.failures t) :
    CountsDown sub { p with failures := Function.update p.failures t (p.failures t + 1) } r := by
  obtain ⟨base, hbase, hengine⟩ := h
  refine ⟨base, fun c hc => ?_, hengine⟩
  rw [hbase c hc]
  by_cases hct : c = t
  · subst hct
    simp only [Function.update_self]
    omega
  · simp only [Function.update_of_ne hct]

/-- **The script of a task that succeeded.** -/
theorem CountsDown.complete (h : CountsDown sub p r) (hl : sub.req.Listed) (ord : MembersOrder)
    (ht : t ∈ sub.workflow.tasks) :
    ∃ n r', completeTask ord t sub.jobId.text r = (.ok n, r') ∧
      CountsDown sub { p with done := insert t p.done } r' ∧
      ∀ other : Submission, other.jobId ≠ sub.jobId → List.Disjoint other.uuids sub.uuids →
        ∀ q, CountsDown other q r → CountsDown other q r' := by
  obtain ⟨base, hbase, hengine⟩ := h
  obtain ⟨n, r', hrun, hexact, htyped, hframe⟩ := completeTask_exact hengine.typed hengine.exact ord
    ht fun _ c hc => by
      obtain ⟨edge, hedge, -, hchild⟩ := mem_edgeChildren.mp hc
      exact mem_dagIds.mpr ⟨_, hl.child edge hedge, hchild⟩
  refine ⟨n, r', hrun, ⟨base, hbase, engine_of_exact hexact htyped⟩, ?_⟩
  intro other hjob huuids q hother
  have hp : t ∈ dagIds sub.item.ctx sub.req := mem_dagNodes.mp ht
  exact hother.agree
    (completeTask_agree hl hjob.symm huuids.symm hp hengine.exact hexact hframe)
    (completeTask_typed hjob.symm hl huuids.symm hp hother.typed htyped hframe)

end InRedis

end DistTaskSystem
