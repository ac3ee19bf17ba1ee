import DistTaskSystem.Guarantees.CycleChecks
import DistTaskSystem.Guarantees.JobLifecycle
import DistTaskSystem.Guarantees.PublicationOrder
import Mathlib.Algebra.GroupWithZero.Nat

/-!
# DTS — the outcome of a job

What has become of a job once its entries are answered and its updates are
written follows from the request and the fates of its tasks. The order of the
reports, the flushes, the other jobs, failing dispatches and the patrol play
no role.

## Results

* `job_outcome`     — the row of every task of a finished job, and its executions.
* `entries_bounded` — no task is offered or executed too often, in any state.
* `waiting_iff`     — in a finished job without cycles, a task waits exactly if an
  ancestor of it has failed, and none is pending.
-/

namespace DistTaskSystem

open Relation

variable {env : JobService} {fate : String → ℕ} {subs : List Submission} {sub : Submission}
  {reports : List StatusReport} {s : Reporting} {p : Workflow.Progress String} {task : PbTask}
  {u : Uuid} {row : TaskRow} {t : String}

namespace Submission

/-- Every entry of the job is answered, and every update for it is written. -/
structure Finished (sub : Submission) (reports : List StatusReport) (s : Reporting) : Prop where
  answered : ∀ t ∈ dagIds sub.item.ctx sub.req, streamCount s.redis t ≤ executions reports t
  written : ∀ u ∈ sub.uuids, ¬ s.Pending u

/-- The row of a task of the job. -/
def RowOf (sub : Submission) (s : Reporting) (task : PbTask) (row : TaskRow) : Prop :=
  ∃ u : Uuid, sub.item.ctx.uuidOf task.naturalId = u.text ∧ s.batcher.db.task? u = some row

theorem RowOf.unique {row' : TaskRow} (h : sub.RowOf s task row) (h' : sub.RowOf s task row') :
    row = row' := by
  obtain ⟨u, hu, hrow⟩ := h
  obtain ⟨v, hv, hrow'⟩ := h'
  obtain rfl : u = v := Uuid.text_inj.mp (hu.symm.trans hv)
  exact Option.some.inj (hrow.symm.trans hrow')

end Submission

-- ---------------------------------------------------------------------------
-- Finished jobs
-- ---------------------------------------------------------------------------

/-- A finished job is at rest. -/
theorem JobAt.rest (h : AllAt env fate subs reports s) (hsub : sub ∈ subs)
    (hjob : JobAt env fate sub reports s p) (hfinished : sub.Finished reports s) :
    sub.workflow.Rest p := by
  intro t ht
  rw [← hjob.redis.streamCount (h.nodup hsub) ht, ← hjob.executions ht]
  exact hfinished.answered t (mem_dagNodes.mp ht)

/-- The states a task can end in, with the retries that are counted. -/
structure EndsAs (sub : Submission) (fate : String → ℕ) (task : PbTask) (t : String)
    (row : TaskRow) : Prop where
  success : sub.workflow.Succeeds fate t →
    row.run.state = stateSuccess ∧ row.run.retryCount.val = fate t
  failed : sub.workflow.Starts fate t → task.maxRetry.toNat < fate t →
    row.run.state = stateFailed ∧ row.run.retryCount.val = task.maxRetry.toNat
  waiting : ¬ sub.workflow.Starts fate t →
    row.run.state = stateWaitingDeps ∧ row.run.retryCount.val = 0

/-- The row of a task of a job at rest. -/
theorem RowAt.endsAs (h : RowAt env sub p s task u row) (hcons : sub.workflow.Consistent fate p)
    (hrest : sub.workflow.Rest p) (htask : u.text ∈ sub.workflow.tasks)
    (hlimit : sub.workflow.limit u.text = task.maxRetry.toNat) (hwritten : ¬ s.Pending u) :
    EndsAs sub fate task u.text row := by
  have hretries := h.retries
  refine ⟨fun hsucceeds => ?_, fun hstarts hexhausted => ?_, fun hblocked => ?_⟩
  · obtain ⟨hstarts, hfate⟩ := (Workflow.succeeds_iff htask).mp hsucceeds
    have hfailures := hcons.rest_failures hrest htask hstarts
    refine ⟨(h.success ((hcons.rest_done hrest).mpr hsucceeds)).resolve_left hwritten, ?_⟩
    omega
  · have hfailures := hcons.rest_failures hrest htask hstarts
    exact ⟨h.failed (by omega), by omega⟩
  · have hnone := hcons.executions_blocked hblocked
    have hfailures : p.failures u.text ≤ p.executions u.text := Nat.le_add_right _ _
    refine ⟨h.waiting fun hparents => hblocked ((hcons.rest_starts hrest).mp hparents), ?_⟩
    omega

/-- A state tells whether the task was executed, and how that went. -/
theorem EndsAs.state_iff (h : EndsAs sub fate task t row) (htask : t ∈ sub.workflow.tasks)
    (hlimit : sub.workflow.limit t = task.maxRetry.toNat) :
    (row.run.state = stateWaitingDeps ↔ ¬ sub.workflow.Starts fate t) ∧
      (row.run.state = stateFailed ↔
        sub.workflow.Starts fate t ∧ sub.workflow.limit t < fate t) := by
  by_cases hstarts : sub.workflow.Starts fate t
  · by_cases hfate : fate t ≤ sub.workflow.limit t
    · rw [(h.success ((Workflow.succeeds_iff htask).mpr ⟨hstarts, hfate⟩)).1]
      refine ⟨iff_of_false (by decide) (not_not.mpr hstarts), iff_of_false (by decide) ?_⟩
      rintro ⟨-, hexhausted⟩
      omega
    · rw [(h.failed hstarts (by omega)).1]
      exact ⟨iff_of_false (by decide) (not_not.mpr hstarts),
        iff_of_true rfl ⟨hstarts, by omega⟩⟩
  · rw [(h.waiting hstarts).1]
    exact ⟨iff_of_true rfl hstarts, iff_of_false (by decide) fun hfailed => hstarts hfailed.1⟩

/-- And none is left to be executed. -/
theorem EndsAs.not_pending (h : EndsAs sub fate task t row) (htask : t ∈ sub.workflow.tasks)
    (hlimit : sub.workflow.limit t = task.maxRetry.toNat) : row.run.state ≠ statePending := by
  by_cases hstarts : sub.workflow.Starts fate t
  · by_cases hfate : fate t ≤ sub.workflow.limit t
    · rw [(h.success ((Workflow.succeeds_iff htask).mpr ⟨hstarts, hfate⟩)).1]
      decide
    · rw [(h.failed hstarts (by omega)).1]
      decide
  · rw [(h.waiting hstarts).1]
    decide

/-- What a finished job has made of a task. -/
theorem Lifecycle.endsAs (h : Lifecycle env fate subs reports s) (hsub : sub ∈ subs)
    (hfinished : sub.Finished reports s) (htask : task ∈ sub.req.tasks) :
    ∃ row, sub.RowOf s task row ∧
      EndsAs sub fate task (sub.item.ctx.uuidOf task.naturalId) row := by
  obtain ⟨p, hp⟩ := h.allAt.jobs sub hsub
  obtain ⟨u, hu, row, hid, hrow, hat⟩ := hp.rows task htask
  refine ⟨row, ⟨u, hid, hrow⟩, ?_⟩
  rw [hid]
  refine hat.endsAs hp.consistent (JobAt.rest h.allAt hsub hp hfinished) ?_ ?_
    (hfinished.written u hu)
  · rw [← hid]
    exact mem_dagNodes.mpr (List.mem_map_of_mem htask)
  · rw [← hid]
    exact h.allAt.limit_eq hsub htask

-- ---------------------------------------------------------------------------
-- Three tasks in series
-- ---------------------------------------------------------------------------

def seriesFirst : PbTask :=
  { naturalId := "a", funcName := "add", funcParams := "1", maxRetry := 1 }

def seriesSecond : PbTask := { naturalId := "b", funcName := "add", funcParams := "1" }

def seriesThird : PbTask := { naturalId := "c", funcName := "add", funcParams := "1" }

def seriesRequest : SubmitDagRequest where
  idempotencyKey := "series"
  tasks := [seriesFirst, seriesSecond, seriesThird]
  edges := [⟨"a", "b"⟩, ⟨"b", "c"⟩]
  edgesSize := by decide

/-- Three tasks in series, of which the first may be retried once. -/
def seriesJob : Submission where
  req := seriesRequest
  jobId := jobX
  uuids := [taskA, taskB, taskC]
  oneEach := rfl

def seriesService : JobService := ⟨jsonbOne, fun _ => [], fullService, rfl, rfl⟩

/-- The first two fail when they are first executed. -/
def seriesFate (t : String) : ℕ := if t = taskC.text then 0 else 1

def seriesReport (task : Uuid) (state : TaskState) : StatusReport where
  request := { taskId := task.text, finalState := state, resultJson := "1", jobId := jobX.text }

def seriesReports : List StatusReport :=
  [seriesReport taskA .failed, seriesReport taskA .success, seriesReport taskB .failed]

/-- The success of the first task is flushed before the second is reported. -/
def seriesActions : List StoreAction :=
  [.submit [seriesJob] {} 0, .reporting (.report (seriesReport taskA .failed)),
    .reporting (.report (seriesReport taskA .success)), .reporting (.batcher .test),
    .reporting (.batcher (.wake true)), .reporting (.batcher (.flush {})),
    .reporting (.report (seriesReport taskB .failed))]

/-- The state after the first actions. -/
def seriesAfter (n : ℕ) : Option Reporting :=
  Runs.run seriesService.step (.started .empty .empty) (seriesActions.take n)

theorem seriesFirst_mem : seriesFirst ∈ seriesJob.req.tasks := by simp [seriesJob, seriesRequest]

theorem seriesSecond_mem : seriesSecond ∈ seriesJob.req.tasks := by
  simp [seriesJob, seriesRequest]

theorem seriesThird_mem : seriesThird ∈ seriesJob.req.tasks := by simp [seriesJob, seriesRequest]

theorem seriesRequest_storable : seriesRequest.Storable jsonbOne where
  key := by decide
  distinct := by decide
  listed := ⟨by decide, by decide, by decide⟩
  tasks := by
    intro task htask
    simp only [seriesRequest, List.mem_cons, List.not_mem_nil, or_false] at htask
    rcases htask with rfl | rfl | rfl <;>
      exact ⟨by decide, by decide, by decide, by decide, by decide, by decide, by decide⟩

/-- The first task has no parents. -/
theorem seriesFirst_starts : seriesJob.workflow.Starts seriesFate taskA.text := by
  intro q hq
  rw [show seriesJob.workflow.parents taskA.text = ∅ by decide] at hq
  exact absurd hq (Finset.notMem_empty q)

theorem seriesFirst_succeeds : seriesJob.workflow.Succeeds seriesFate taskA.text :=
  (Workflow.succeeds_iff (by decide)).mpr ⟨seriesFirst_starts, by decide⟩

theorem seriesSecond_starts : seriesJob.workflow.Starts seriesFate taskB.text := by
  intro q hq
  rw [show seriesJob.workflow.parents taskB.text = {taskA.text} by decide] at hq
  exact Finset.mem_singleton.mp hq ▸ seriesFirst_succeeds

/-- The third waits for the second, which may not be retried. -/
theorem seriesThird_blocked : ¬ seriesJob.workflow.Starts seriesFate taskC.text := by
  intro hstarts
  have hsucceeds := hstarts taskB.text (by decide)
  exact absurd ((Workflow.succeeds_iff (by decide)).mp hsucceeds).2 (by decide)

theorem seriesReport_answers {task : Uuid} {state : TaskState}
    (htask : task.text ∈ dagIds seriesJob.item.ctx seriesJob.req)
    (hentry : executions reports task.text < streamCount s.redis task.text)
    (hresult : state = .success ↔ seriesFate task.text ≤ executions reports task.text) :
    AnswersEntry seriesFate [seriesJob] reports s (seriesReport task state) where
  job := ⟨seriesJob, List.mem_cons_self, rfl, htask⟩
  unanswered := hentry
  result := hresult
  script := nofun
  failure := rfl
  lookup := rfl
  push := nofun

theorem seriesAfter_succ {n : ℕ} {a : StoreAction}
    (ha : seriesActions.take (n + 1) = seriesActions.take n ++ [a])
    (hrun : seriesAfter (n + 1) = some s) :
    ∃ t, seriesAfter n = some t ∧ seriesService.step t a = some s := by
  rw [seriesAfter, ha] at hrun
  exact Runs.run_snoc.mp hrun

/-- The entries of a task are the offers that the answers so far have made. -/
theorem seriesJob_counts (p : Workflow.Progress String)
    (h : Lifecycle seriesService seriesFate [seriesJob] reports s)
    (hrun : Runs.run (seriesJob.workflow.step seriesFate) .start (seriesJob.answers reports) =
      some p) (ht : t ∈ dagIds seriesJob.item.ctx seriesJob.req) :
    streamCount s.redis t = seriesJob.workflow.offers p t := by
  obtain ⟨q, hq⟩ := h.allAt.jobs seriesJob List.mem_cons_self
  obtain rfl : p = q := Option.some.inj (hrun.symm.trans hq.run)
  exact hq.redis.streamCount (h.allAt.nodup List.mem_cons_self) (mem_dagNodes.mpr ht)

/-- A retry, a success, a flush and a failure: that finishes the job. -/
theorem seriesJob_finished : ∃ s, seriesAfter 7 = some s ∧
    Lifecycle seriesService seriesFate [seriesJob] seriesReports s ∧
    seriesJob.Finished seriesReports s := by
  obtain ⟨s₇, hrun₇, hheld⟩ : ∃ s, seriesAfter 7 = some s ∧ s.held = [] :=
    Option.map_eq_some_iff.mp (by decide +kernel)
  obtain ⟨s₆, hrun₆, h₇⟩ := seriesAfter_succ rfl hrun₇
  obtain ⟨s₅, hrun₅, h₆⟩ := seriesAfter_succ rfl hrun₆
  obtain ⟨s₄, hrun₄, h₅⟩ := seriesAfter_succ rfl hrun₅
  obtain ⟨s₃, hrun₃, h₄⟩ := seriesAfter_succ rfl hrun₄
  obtain ⟨s₂, hrun₂, h₃⟩ := seriesAfter_succ rfl hrun₃
  obtain ⟨s₁, hrun₁, h₂⟩ := seriesAfter_succ rfl hrun₂
  have hone : ∀ sub ∈ [seriesJob], sub = seriesJob := fun sub hsub => List.mem_singleton.mp hsub
  have hready : ∀ sub ∈ [seriesJob], sub.Readable seriesService := by
    rintro sub hsub task -
    exact ⟨.null, by unfold parseParams; split <;> [rfl; (split <;> rfl)]⟩
  have htaken : Lifecycle seriesService seriesFate [seriesJob] [] s₁ := by
    refine (Lifecycle.start .empty (Redis.isStream_of_none rfl) (Redis.isStream_of_none rfl)).step
      (.taken 0 (freshIds_empty (by decide) (by decide)) (freshIds_empty (by decide) (by decide))
        (freshKeys_empty [seriesJob]) (fun sub hsub => hone sub hsub ▸ seriesRequest_storable)
        (keysFree_of_new (List.nodup_singleton _) fun _ _ => List.not_mem_nil) hready) ?_
    obtain ⟨t, ht, hstep⟩ := seriesAfter_succ (n := 0) rfl hrun₁
    obtain rfl := Option.some.inj ht
    exact hstep
  have hfailed : Lifecycle seriesService seriesFate [seriesJob] (seriesReports.take 1) s₂ := by
    refine htaken.step (.report (seriesReport_answers (by decide) ?_ (by decide))) h₂
    rw [seriesJob_counts _ htaken rfl (by decide)]
    decide
  have hretried : Lifecycle seriesService seriesFate [seriesJob] (seriesReports.take 2) s₃ := by
    refine hfailed.step (.report (seriesReport_answers (by decide) ?_ (by decide))) h₃
    rw [seriesJob_counts _ hfailed rfl (by decide)]
    decide
  have hflushed : Lifecycle seriesService seriesFate [seriesJob] (seriesReports.take 2) s₆ := by
    have hwaked := (hretried.step (.batcher (a := .test) trivial) h₄).step
      (.batcher (a := .wake true) trivial) h₅
    refine hwaked.step (.batcher ?_) h₆
    refine ⟨rfl, fun op hop => ?_⟩
    have hqueued : (seriesAfter 5).map Reporting.held =
        some [(seriesReport taskA .success).update] := by decide +kernel
    rw [hrun₅, Option.map_some, Option.some.injEq] at hqueued
    have hop : op ∈ s₅.held := List.mem_append_left _ hop
    rw [hqueued] at hop
    obtain rfl := List.mem_singleton.mp hop
    decide
  have hended : Lifecycle seriesService seriesFate [seriesJob] seriesReports s₇ := by
    refine hflushed.step (.report (seriesReport_answers (by decide) ?_ (by decide))) h₇
    rw [seriesJob_counts _ hflushed rfl (by decide)]
    decide
  refine ⟨s₇, hrun₇, hended, fun t ht => ?_, ?_⟩
  · rw [seriesJob_counts _ hended rfl ht]
    revert t
    decide
  · rintro u - ⟨op, hop, -⟩
    rw [hheld] at hop
    exact absurd hop List.not_mem_nil

-- ---------------------------------------------------------------------------
-- The outcome
-- ---------------------------------------------------------------------------

/-- **The outcome of a job.** Once the entries of a job are answered and its updates are
written, every task has ended as the fates say, and has been executed as often. -/
theorem job_outcome (h : Lifecycle env fate subs reports s) (hsub : sub ∈ subs)
    (hfinished : sub.Finished reports s) (htask : task ∈ sub.req.tasks) :
    (∃ row, sub.RowOf s task row ∧
      EndsAs sub fate task (sub.item.ctx.uuidOf task.naturalId) row) ∧
    (sub.workflow.Starts fate (sub.item.ctx.uuidOf task.naturalId) →
      executions reports (sub.item.ctx.uuidOf task.naturalId) =
        min (fate (sub.item.ctx.uuidOf task.naturalId)) task.maxRetry.toNat + 1) ∧
    (¬ sub.workflow.Starts fate (sub.item.ctx.uuidOf task.naturalId) →
      executions reports (sub.item.ctx.uuidOf task.naturalId) = 0) := by
  obtain ⟨p, hp⟩ := h.allAt.jobs sub hsub
  have hrest := JobAt.rest h.allAt hsub hp hfinished
  have hmem : sub.item.ctx.uuidOf task.naturalId ∈ sub.workflow.tasks :=
    mem_dagNodes.mpr (List.mem_map_of_mem htask)
  have hlimit : sub.workflow.limit (sub.item.ctx.uuidOf task.naturalId) = task.maxRetry.toNat :=
    h.allAt.limit_eq hsub htask
  refine ⟨h.endsAs hsub hfinished htask, fun hstarts => ?_, fun hblocked => ?_⟩
  · rw [hp.executions hmem, hp.consistent.rest_executions hrest hmem hstarts, hlimit]
  · rw [hp.executions hmem, hp.consistent.executions_blocked hblocked]

/-- The first task was retried and has succeeded, the second has failed, the third waits. -/
theorem job_outcome_series : ∃ s first second third, seriesAfter 7 = some s ∧
    seriesJob.RowOf s seriesFirst first ∧ seriesJob.RowOf s seriesSecond second ∧
    seriesJob.RowOf s seriesThird third ∧
    first.run.state = stateSuccess ∧ first.run.retryCount.val = 1 ∧
    second.run.state = stateFailed ∧ third.run.state = stateWaitingDeps ∧
    executions seriesReports taskA.text = 2 ∧ executions seriesReports taskC.text = 0 := by
  obtain ⟨s, hrun, h, hfinished⟩ := seriesJob_finished
  obtain ⟨⟨first, hfirst, hendsA⟩, hexecuted, -⟩ :=
    job_outcome h List.mem_cons_self hfinished seriesFirst_mem
  obtain ⟨⟨second, hsecond, hendsB⟩, -, -⟩ :=
    job_outcome h List.mem_cons_self hfinished seriesSecond_mem
  obtain ⟨⟨third, hthird, hendsC⟩, -, hunexecuted⟩ :=
    job_outcome h List.mem_cons_self hfinished seriesThird_mem
  have hsuccess := hendsA.success seriesFirst_succeeds
  exact ⟨s, first, second, third, hrun, hfirst, hsecond, hthird, hsuccess.1, hsuccess.2,
    (hendsB.failed seriesSecond_starts Nat.zero_lt_one).1, (hendsC.waiting seriesThird_blocked).1,
    hexecuted seriesFirst_starts, hunexecuted seriesThird_blocked⟩

-- ---------------------------------------------------------------------------
-- Bounds
-- ---------------------------------------------------------------------------

/-- **No task is offered or executed too often**: in every state, a task has as many
entries as it may be tried at most, it is executed at most once for each, and all reports
about a job together are bounded by its request. -/
theorem entries_bounded (h : Lifecycle env fate subs reports s) (hsub : sub ∈ subs) :
    (∀ task ∈ sub.req.tasks,
      executions reports (sub.item.ctx.uuidOf task.naturalId) ≤
        streamCount s.redis (sub.item.ctx.uuidOf task.naturalId) ∧
      streamCount s.redis (sub.item.ctx.uuidOf task.naturalId) ≤ task.maxRetry.toNat + 1) ∧
    (reports.filter fun r => r.request.taskId ∈ dagIds sub.item.ctx sub.req).length ≤
      (sub.req.tasks.map fun task => task.maxRetry.toNat + 1).sum := by
  have hall := h.allAt
  obtain ⟨p, hp⟩ := hall.jobs sub hsub
  have hlimit : ∀ task ∈ sub.req.tasks,
      sub.workflow.limit (sub.item.ctx.uuidOf task.naturalId) = task.maxRetry.toNat :=
    fun task htask => hall.limit_eq hsub htask
  refine ⟨fun task htask => ?_, ?_⟩
  · have hmem : sub.item.ctx.uuidOf task.naturalId ∈ sub.workflow.tasks :=
      mem_dagNodes.mpr (List.mem_map_of_mem htask)
    rw [hp.executions hmem, hp.redis.streamCount (hall.nodup hsub) hmem, ← hlimit task htask]
    exact ⟨hp.consistent.executions_le _, Workflow.offers_le _ _⟩
  · have hlength : (reports.filter fun r => r.request.taskId ∈ dagIds sub.item.ctx sub.req).length =
        (sub.answers reports).length := by
      rw [Submission.answers, List.filter_map, List.length_map]
      exact congrArg List.length
        (List.filter_congr fun r _ => decide_eq_decide.mpr mem_dagNodes.symm)
    calc (reports.filter fun r => r.request.taskId ∈ dagIds sub.item.ctx sub.req).length
        = ∑ t ∈ sub.workflow.tasks, p.executions t := hlength.trans (Workflow.length_run hp.run)
      _ ≤ ∑ t ∈ sub.workflow.tasks, (sub.workflow.limit t + 1) :=
        Finset.sum_le_sum fun t _ => (hp.consistent.executions_le t).trans (Workflow.offers_le p t)
      _ = ((dagIds sub.item.ctx sub.req).map fun t => sub.workflow.limit t + 1).sum :=
        List.sum_toFinset _ (hall.nodup hsub)
      _ = (sub.req.tasks.map fun task => task.maxRetry.toNat + 1).sum := by
        rw [dagIds, List.map_map]
        refine congrArg List.sum (List.map_congr_left fun task htask => ?_)
        rw [Function.comp_apply, hlimit task htask]

/-- The first task had the two entries it may have, and was executed for each. -/
theorem entries_bounded_series : ∃ s, seriesAfter 7 = some s ∧
    streamCount s.redis taskA.text = executions seriesReports taskA.text ∧
    executions seriesReports taskA.text = 2 ∧ streamCount s.redis taskB.text ≤ 1 := by
  obtain ⟨s, hrun, h, -⟩ := seriesJob_finished
  have hbounds := (entries_bounded h List.mem_cons_self).1
  have hexecuted : executions seriesReports taskA.text = 2 := by decide
  have hfirst : executions seriesReports taskA.text ≤ streamCount s.redis taskA.text ∧
      streamCount s.redis taskA.text ≤ 2 := hbounds seriesFirst seriesFirst_mem
  exact ⟨s, hrun, by omega, hexecuted, (hbounds seriesSecond seriesSecond_mem).2⟩

-- ---------------------------------------------------------------------------
-- Jobs without cycles
-- ---------------------------------------------------------------------------

/-- A path of edges is a path of parents. -/
theorem transGen_parents (hassigns : Assigns sub.item.ctx sub.req) (hlisted : sub.req.Listed)
    {a n : String} (hpath : TransGen sub.req.Edge a n) :
    TransGen (fun q c => q ∈ sub.workflow.parents c) (sub.item.ctx.uuidOf a)
      (sub.item.ctx.uuidOf n) := by
  have hparent : ∀ {a b : String}, sub.req.Edge a b →
      sub.item.ctx.uuidOf a ∈ sub.workflow.parents (sub.item.ctx.uuidOf b) :=
    fun hedge => (mem_dagParents hassigns hlisted (hlisted.child _ hedge)).mpr
      ⟨_, hedge, rfl, rfl⟩
  induction hpath with
  | single hedge => exact .single (hparent hedge)
  | tail _ hedge ih => exact ih.tail (hparent hedge)

/-- And the other way round. -/
theorem transGen_edges (hassigns : Assigns sub.item.ctx sub.req) (hlisted : sub.req.Listed)
    {a t : String} (hpath : TransGen (fun q c => q ∈ sub.workflow.parents c) a t) {n : String}
    (hn : n ∈ sub.req.naturalIds) (ht : t = sub.item.ctx.uuidOf n) :
    ∃ m ∈ sub.req.naturalIds, a = sub.item.ctx.uuidOf m ∧ TransGen sub.req.Edge m n := by
  have hparent : ∀ {q n : String}, n ∈ sub.req.naturalIds →
      q ∈ sub.workflow.parents (sub.item.ctx.uuidOf n) →
      ∃ m ∈ sub.req.naturalIds, q = sub.item.ctx.uuidOf m ∧ sub.req.Edge m n := by
    intro q n hn hq
    obtain ⟨⟨m, c⟩, hedge, rfl, rfl⟩ := (mem_dagParents hassigns hlisted hn).mp hq
    exact ⟨m, hlisted.parent _ hedge, rfl, hedge⟩
  induction hpath generalizing n with
  | single hq =>
    subst ht
    obtain ⟨m, hm, rfl, hedge⟩ := hparent hn hq
    exact ⟨m, hm, rfl, .single hedge⟩
  | tail _ hq ih =>
    subst ht
    obtain ⟨m, hm, rfl, hedge⟩ := hparent hn hq
    obtain ⟨k, hk, rfl, hpath⟩ := ih hm rfl
    exact ⟨k, hk, rfl, hpath.tail hedge⟩

/-- Without a closed path the ancestry of a task is well-founded. -/
theorem acc_parents (hassigns : Assigns sub.item.ctx sub.req) (hlisted : sub.req.Listed)
    (hacyclic : ∀ n, ¬ TransGen sub.req.Edge n n) {n : String} (hn : n ∈ sub.req.naturalIds) :
    Acc (fun q c => q ∈ sub.workflow.parents c) (sub.item.ctx.uuidOf n) := by
  have hacc := (SubmitDagRequest.acc_iff_acyclic fun edge hedge =>
    ⟨hlisted.parent edge hedge, hlisted.child edge hedge⟩).mpr hacyclic n hn
  induction hacc with
  | intro n _ ih =>
    refine Acc.intro _ fun q hq => ?_
    obtain ⟨⟨m, c⟩, hedge, rfl, rfl⟩ := (mem_dagParents hassigns hlisted hn).mp hq
    exact ih m hedge (hlisted.parent _ hedge)

/-- **Why a task waits.** In a finished job without cycles, the row of a task is waiting
exactly if the row of an ancestor has failed. None is pending. -/
theorem waiting_iff (h : Lifecycle env fate subs reports s) (hsub : sub ∈ subs)
    (hfinished : sub.Finished reports s) (hacyclic : ∀ n, ¬ TransGen sub.req.Edge n n)
    (htask : task ∈ sub.req.tasks) (hrow : sub.RowOf s task row) :
    (row.run.state = stateWaitingDeps ↔
      ∃ other ∈ sub.req.tasks, TransGen sub.req.Edge other.naturalId task.naturalId ∧
        ∃ row', sub.RowOf s other row' ∧ row'.run.state = stateFailed) ∧
    row.run.state ≠ statePending := by
  have hall := h.allAt
  have hassigns := hall.assigns hsub
  have hlisted := (hall.storable sub hsub).listed
  have hmem : ∀ task ∈ sub.req.tasks,
      sub.item.ctx.uuidOf task.naturalId ∈ sub.workflow.tasks :=
    fun task htask => mem_dagNodes.mpr (List.mem_map_of_mem htask)
  -- the row of a task tells whether it started and whether it was exhausted
  have hends : ∀ task ∈ sub.req.tasks, ∀ row, sub.RowOf s task row →
      EndsAs sub fate task (sub.item.ctx.uuidOf task.naturalId) row := by
    intro task htask row hrow
    obtain ⟨row', hrow', hend⟩ := h.endsAs hsub hfinished htask
    obtain rfl := hrow.unique hrow'
    exact hend
  have htells := fun task htask row hrow =>
    (hends task htask row hrow).state_iff (hmem task htask) (hall.limit_eq hsub htask)
  have hn : task.naturalId ∈ sub.req.naturalIds := List.mem_map_of_mem htask
  refine ⟨?_, (hends task htask row hrow).not_pending (hmem task htask)
    (hall.limit_eq hsub htask)⟩
  rw [(htells task htask row hrow).1,
    Workflow.blocked_iff (acc_parents hassigns hlisted hacyclic hn) (hmem task htask)]
  constructor
  · rintro ⟨a, -, hpath, hexhausted⟩
    obtain ⟨m, hm, rfl, hedges⟩ := transGen_edges hassigns hlisted hpath hn rfl
    obtain ⟨other, hother, rfl⟩ := List.mem_map.mp hm
    obtain ⟨row', hrow', -⟩ := h.endsAs hsub hfinished hother
    exact ⟨other, hother, hedges, row', hrow', (htells other hother row' hrow').2.mpr hexhausted⟩
  · rintro ⟨other, hother, hpath, row', hrow', hfailed⟩
    exact ⟨sub.item.ctx.uuidOf other.naturalId, hmem other hother,
      transGen_parents hassigns hlisted hpath, (htells other hother row' hrow').2.mp hfailed⟩

/-- The edges of the series point forward. -/
theorem seriesRequest_acyclic (n : String) : ¬ TransGen seriesRequest.Edge n n := by
  have hforward : ∀ {p c : String}, seriesRequest.Edge p c → p < c := by
    intro p c hedge
    rcases List.mem_pair.mp hedge with heq | heq <;> cases heq <;> decide
  intro hpath
  have hless : ∀ {p c : String}, TransGen seriesRequest.Edge p c → p < c := by
    intro p c hpath
    induction hpath with
    | single hedge => exact hforward hedge
    | tail _ hedge ih => exact ih.trans (hforward hedge)
  exact lt_irrefl n (hless hpath)

/-- The third task waits for the second one. -/
theorem waiting_iff_series : ∃ s row, seriesAfter 7 = some s ∧
    seriesJob.RowOf s seriesThird row ∧ row.run.state = stateWaitingDeps := by
  obtain ⟨s, hrun, h, hfinished⟩ := seriesJob_finished
  obtain ⟨row', hrow', hends⟩ := h.endsAs List.mem_cons_self hfinished seriesSecond_mem
  obtain ⟨row, hrow, -⟩ := h.endsAs List.mem_cons_self hfinished seriesThird_mem
  have hedge : seriesJob.req.Edge "b" "c" := by
    simp [SubmitDagRequest.Edge, seriesJob, seriesRequest]
  exact ⟨s, row, hrun, hrow,
    (waiting_iff h List.mem_cons_self hfinished seriesRequest_acyclic seriesThird_mem hrow).1.mpr
      ⟨seriesSecond, seriesSecond_mem, .single hedge, row', hrow',
        (hends.failed seriesSecond_starts Nat.zero_lt_one).1⟩⟩

end DistTaskSystem
