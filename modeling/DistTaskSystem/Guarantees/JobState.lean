import DistTaskSystem.Guarantees.JobQuery
import DistTaskSystem.Library.Fallible

/-!
# DTS — the state of a job

`Handle` decides the state of a job by a cascade over four counters. Where every task has
one detail the counters add up to the number of tasks, and the cascade is a function of
the states alone (`jobStateOf`) that only moves forward with them.

`default` counts a state that the enumeration does not list as pending.

## Results

* `OneEach.aggregated`  — the answer in terms of the states.
* `jobStateOf_forward` — the state of a job moves forward with those of its tasks.
* `job_state_exact`    — the answers to one query, and to two.
-/

namespace DistTaskSystem

/-- How far a task is: not started, running, ended. -/
def TaskState.stage (state : TaskState) : Nat :=
  if state.isFinished then 2 else if state = .running then 1 else 0

def JobState.stage : JobState → Nat
  | .success | .failed => 2
  | .running => 1
  | _ => 0

/-- A task only moves forward, and stays where it has ended. -/
structure TaskState.Forward (before after : TaskState) : Prop where
  stage : before.stage ≤ after.stage
  stays : before.isFinished = true → after = before

/-- The call has returned one detail for each of the ids. -/
structure OneEach (taskIds : List String) (answer : Answered) : Prop where
  returns : answer.thrown = false
  total : answer.response.totalTasks = taskIds.length
  details : (answer.response.taskDetails.map TaskRuntimeDetail.taskId).Perm taskIds

/-- Each task has moved forward, in whatever order the details stand. -/
def MovedForward (before after : List TaskRuntimeDetail) : Prop :=
  ∃ matched, matched.Perm after ∧
    List.Forall₂ (fun d d' => d.taskId = d'.taskId ∧ d.state.Forward d'.state) before matched

/-- The state of the job is that of its tasks. -/
structure ExactState (r : GetJobStatusResponse) : Prop where
  success : r.state = .success ↔ ∀ d ∈ r.taskDetails, d.state = .success
  failed : r.state = .failed ↔
    ∃ d ∈ r.taskDetails, d.state = .failed ∨ d.state = .timeout ∨ d.state = .cancelled
  /-- a state that is not listed counts as pending -/
  pending : r.state = .pending ↔ ∀ d ∈ r.taskDetails,
    d.state = .pending ∨ d.state = .waitingDeps ∨ ∃ n, d.state = .unrecognized n
  anyOrder : ∀ details, details.Perm r.taskDetails →
    (countStates details).jobState r.totalTasks = r.state
  finished : r.finishedTasks ≤ r.totalTasks

/-- A later answer is not behind. -/
structure NotBehind (before after : GetJobStatusResponse) : Prop where
  stage : before.state.stage ≤ after.state.stage
  stays : before.state = .success ∨ before.state = .failed → after.state = before.state
  finished : before.finishedTasks ≤ after.finishedTasks

-- ---------------------------------------------------------------------------
-- States
-- ---------------------------------------------------------------------------

theorem TaskState.isFailed_iff {s : TaskState} :
    s.isFailed = true ↔ s = .failed ∨ s = .timeout ∨ s = .cancelled := by
  cases s <;> simp [isFailed]

theorem TaskState.isPending_iff {s : TaskState} :
    s.isPending = true ↔ s = .pending ∨ s = .waitingDeps ∨ ∃ n, s = .unrecognized n := by
  cases s <;> simp [isPending, isFinished, isFailed]

theorem TaskState.isFinished_iff {s : TaskState} :
    s.isFinished = true ↔ s = .success ∨ s.isFailed = true := by
  rw [isFinished, Bool.or_eq_true, decide_eq_true_eq]

/-- Every state is of one stage. -/
theorem TaskState.isPending_iff_stage {s : TaskState} : s.isPending = true ↔ s.stage = 0 := by
  cases s <;> simp [isPending, isFinished, isFailed, stage]

theorem TaskState.isFinished_iff_stage {s : TaskState} : s.isFinished = true ↔ s.stage = 2 := by
  cases s <;> simp [isFinished, isFailed, stage]

section Aggregate

/-- The branches of the cascade. -/
inductive Decides (states : List TaskState) : JobState → Prop
  | failed (hfailed : ∃ s ∈ states, s.isFailed = true) : Decides states .failed
  | running (hfailed : ¬ ∃ s ∈ states, s.isFailed = true) (hrunning : .running ∈ states) :
      Decides states .running
  | success (hsuccess : ∀ s ∈ states, s = .success) : Decides states .success
  | pending (hpending : ∀ s ∈ states, s.isPending = true) : Decides states .pending
  /-- some tasks have succeeded and some have not started -/
  | mixed (hfailed : ¬ ∃ s ∈ states, s.isFailed = true)
      (hsuccess : ¬ ∀ s ∈ states, s = .success)
      (hpending : ¬ ∀ s ∈ states, s.isPending = true) : Decides states .running

variable {states states' : List TaskState}

/-- **Inversion.** -/
theorem jobStateOf_decides (hne : states ≠ []) : Decides states (jobStateOf states) := by
  unfold jobStateOf
  rw [if_neg hne]
  split
  · next hfailed => exact .failed hfailed
  · next hfailed =>
    split
    · next hrunning =>
      obtain ⟨s, hs, rfl⟩ := hrunning
      exact .running hfailed hs
    · split
      · next hsuccess => exact .success hsuccess
      · next hsuccess =>
        split
        · next hpending => exact .pending hpending
        · next hpending => exact .mixed hfailed hsuccess hpending

/-- The cases exclude each other. -/
theorem jobStateOf_failed_iff (hne : states ≠ []) :
    jobStateOf states = .failed ↔ ∃ s ∈ states, s.isFailed = true := by
  constructor
  · intro h
    have hdecides := jobStateOf_decides hne
    rw [h] at hdecides
    cases hdecides with
    | failed hfailed => exact hfailed
  · intro hfailed
    rw [jobStateOf, if_neg hne, if_pos hfailed]

theorem jobStateOf_success_iff (hne : states ≠ []) :
    jobStateOf states = .success ↔ ∀ s ∈ states, s = .success := by
  constructor
  · intro h
    have hdecides := jobStateOf_decides hne
    rw [h] at hdecides
    cases hdecides with
    | success hsuccess => exact hsuccess
  · intro hsuccess
    have hfailed : ¬ ∃ s ∈ states, s.isFailed = true := by
      rintro ⟨s, hs, hfailed⟩
      rw [hsuccess s hs] at hfailed
      exact nomatch hfailed
    have hrunning : ¬ ∃ s ∈ states, s = .running := by
      rintro ⟨s, hs, rfl⟩
      exact nomatch hsuccess .running hs
    rw [jobStateOf, if_neg hne, if_neg hfailed, if_neg hrunning, if_pos hsuccess]

theorem jobStateOf_pending_iff (hne : states ≠ []) :
    jobStateOf states = .pending ↔ ∀ s ∈ states, s.isPending = true := by
  constructor
  · intro h
    have hdecides := jobStateOf_decides hne
    rw [h] at hdecides
    cases hdecides with
    | pending hpending => exact hpending
  · intro hpending
    obtain ⟨first, hfirst⟩ := List.exists_mem_of_ne_nil states hne
    have hfailed : ¬ ∃ s ∈ states, s.isFailed = true := by
      rintro ⟨s, hs, hfailed⟩
      have hfinished := TaskState.isFinished_iff_stage.mp
        (TaskState.isFinished_iff.mpr (.inr hfailed))
      have hstage := TaskState.isPending_iff_stage.mp (hpending s hs)
      omega
    have hrunning : ¬ ∃ s ∈ states, s = .running := by
      rintro ⟨s, hs, rfl⟩
      exact nomatch hpending .running hs
    have hsuccess : ¬ ∀ s ∈ states, s = .success := by
      intro hall
      have hfirst' := hpending first hfirst
      rw [hall first hfirst] at hfirst'
      exact nomatch hfirst'
    rw [jobStateOf, if_neg hne, if_neg hfailed, if_neg hrunning, if_neg hsuccess, if_pos hpending]

/-- **The state of a job moves forward** with those of its tasks, and stays once the job
has ended. -/
theorem jobStateOf_forward (hne : states ≠ []) (h : List.Forall₂ TaskState.Forward states states') :
    (jobStateOf states).stage ≤ (jobStateOf states').stage ∧
      (jobStateOf states = .success ∨ jobStateOf states = .failed →
        jobStateOf states' = jobStateOf states) := by
  have hne' : states' ≠ [] := by
    rintro rfl
    exact hne (List.forall₂_nil_right_iff.mp h)
  have hstays : jobStateOf states = .success ∨ jobStateOf states = .failed →
      jobStateOf states' = jobStateOf states := by
    rintro (hsuccess | hfailed)
    · rw [hsuccess]
      refine (jobStateOf_success_iff hne').mpr fun s' hs' => ?_
      obtain ⟨s, hs, hforward⟩ := Fallible.exists_left h hs'
      obtain rfl := (jobStateOf_success_iff hne).mp hsuccess s hs
      exact hforward.stays rfl
    · rw [hfailed]
      obtain ⟨s, hs, hended⟩ := (jobStateOf_failed_iff hne).mp hfailed
      obtain ⟨s', hs', hforward⟩ := Fallible.exists_right h hs
      obtain rfl := hforward.stays (TaskState.isFinished_iff.mpr (.inr hended))
      exact (jobStateOf_failed_iff hne').mpr ⟨s', hs', hended⟩
  refine ⟨?_, hstays⟩
  cases hstate : jobStateOf states with
  | unknown => exact Nat.zero_le _
  | pending => exact Nat.zero_le _
  | success => rw [hstays (.inl hstate), hstate]
  | failed => rw [hstays (.inr hstate), hstate]
  | running =>
    -- a task has started, and no task goes back
    have hstarted : jobStateOf states' ≠ .pending := by
      intro hpending
      have hback : jobStateOf states = .pending := by
        refine (jobStateOf_pending_iff hne).mpr fun s hs => ?_
        obtain ⟨s', hs', hforward⟩ := Fallible.exists_right h hs
        have hzero := TaskState.isPending_iff_stage.mp
          ((jobStateOf_pending_iff hne').mp hpending s' hs')
        have hle := hforward.stage
        exact TaskState.isPending_iff_stage.mpr (by omega)
      exact nomatch hstate.symm.trans hback
    have hdecides := jobStateOf_decides hne'
    generalize jobStateOf states' = state' at hdecides hstarted
    cases hdecides with
    | failed hfailed => exact Nat.le_succ 1
    | running hfailed hrunning => exact le_refl 1
    | success hsuccess => exact Nat.le_succ 1
    | pending hpending => exact absurd rfl hstarted
    | mixed hfailed hsuccess hpending => exact le_refl 1

/-- No ended task is counted out again. -/
theorem countP_finished_le (h : List.Forall₂ TaskState.Forward states states') :
    states.countP TaskState.isFinished ≤ states'.countP TaskState.isFinished := by
  induction h with
  | nil => exact le_refl 0
  | @cons s s' rest rest' hforward hrest ih =>
    rw [List.countP_cons, List.countP_cons]
    by_cases hfinished : s.isFinished = true
    · rw [hforward.stays hfinished, if_pos hfinished]
      exact Nat.succ_le_succ ih
    · rw [if_neg hfinished]
      exact Nat.le_trans ih (Nat.le_add_right _ _)

end Aggregate

-- ---------------------------------------------------------------------------
-- Answers
-- ---------------------------------------------------------------------------

section Answers

variable {cache : QueryCache} {faults : QueryFaults} {db : Db} {req : GetJobStatusRequest}
  {taskIds : List String}

/-- What an answer with one detail for each task says. -/
structure Aggregated (r : GetJobStatusResponse) : Prop where
  nonempty : r.taskDetails ≠ []
  total : r.totalTasks = r.taskDetails.length
  state : r.state = jobStateOf (r.taskDetails.map TaskRuntimeDetail.state)
  finished : r.finishedTasks = (r.taskDetails.map TaskRuntimeDetail.state).countP
    TaskState.isFinished

/-- A call that returns with tasks has come to the end of `Handle`. -/
theorem handle_returned (hreturns : (handle cache faults db req).thrown = false)
    (hsome : (handle cache faults db req).response.totalTasks ≠ 0) :
    ∃ ids details, (handle cache faults db req).response = {
      jobId := req.jobId
      totalTasks := ids
      taskDetails := details
      finishedTasks := (countStates details).success + (countStates details).failed
      state := (countStates details).jobState ids } := by
  unfold handle at hreturns hsome ⊢
  cases hids : getTaskIds cache faults.taskIds req.jobId db with
  | none =>
    rw [hids] at hreturns
    exact nomatch hreturns
  | some ids =>
    rw [hids] at hreturns hsome
    cases ids with
    | nil => exact absurd rfl hsome
    | cons t rest =>
      dsimp only at hreturns hsome ⊢
      by_cases hthrown :
          (fetchTaskDetails cache faults.details req.includeTasks (t :: rest) db).thrown = true
      · rw [if_pos hthrown] at hreturns
        exact nomatch hreturns
      · rw [if_neg hthrown]
        exact ⟨_, _, rfl⟩

/-- **The answer in terms of the states.** -/
theorem OneEach.aggregated (hne : taskIds ≠ [])
    (h : OneEach taskIds (handle cache faults db req)) :
    Aggregated (handle cache faults db req).response := by
  have hpos := List.length_pos_iff.mpr hne
  have htotal := h.total
  have hlength := h.details.length_eq
  rw [List.length_map] at hlength
  obtain ⟨ids, details, hresponse⟩ := handle_returned h.returns (by omega)
  rw [hresponse] at htotal hlength ⊢
  dsimp only at htotal hlength
  have hdetails : details ≠ [] := List.length_pos_iff.mp (by omega)
  have hids : ids = details.length := by omega
  refine ⟨hdetails, hids, ?_, finished_eq details⟩
  rw [hids]
  exact jobState_eq hdetails

variable {r r' : GetJobStatusResponse}

theorem Aggregated.exact (h : Aggregated r) : ExactState r := by
  have hne : r.taskDetails.map TaskRuntimeDetail.state ≠ [] := by simpa using h.nonempty
  refine ⟨?_, ?_, ?_, ?_, ?_⟩
  · rw [h.state, jobStateOf_success_iff hne, List.forall_mem_map]
  · rw [h.state, jobStateOf_failed_iff hne]
    simp only [List.mem_map, exists_exists_and_eq_and, TaskState.isFailed_iff]
  · rw [h.state, jobStateOf_pending_iff hne, List.forall_mem_map]
    simp only [TaskState.isPending_iff]
  · intro details hperm
    have hdetails : details ≠ [] := fun hnil => h.nonempty (hnil ▸ hperm).nil_eq.symm
    rw [h.total, ← hperm.length_eq, jobState_eq hdetails, h.state]
    exact jobStateOf_perm (hperm.map _)
  · rw [h.finished, h.total, ← List.length_map TaskRuntimeDetail.state]
    exact List.countP_le_length

theorem Aggregated.notBehind (h : Aggregated r) (h' : Aggregated r')
    (hmoved : MovedForward r.taskDetails r'.taskDetails) : NotBehind r r' := by
  obtain ⟨matched, hperm, hforward⟩ := hmoved
  have hne : r.taskDetails.map TaskRuntimeDetail.state ≠ [] := by simpa using h.nonempty
  have hstates : List.Forall₂ TaskState.Forward (r.taskDetails.map TaskRuntimeDetail.state)
      (matched.map TaskRuntimeDetail.state) := by
    rw [List.forall₂_map_left_iff, List.forall₂_map_right_iff]
    exact hforward.imp fun d d' hd => hd.2
  have hmatched := hperm.map TaskRuntimeDetail.state
  obtain ⟨hstage, hstays⟩ := jobStateOf_forward hne hstates
  rw [jobStateOf_perm hmatched, ← h.state, ← h'.state] at hstage hstays
  refine ⟨hstage, hstays, ?_⟩
  rw [h.finished, h'.finished, ← hmatched.countP_eq]
  exact countP_finished_le hstates

end Answers

/-- **The state of a job.** For every job with tasks: the answer to a query that has one
detail for each of them is exact in the states, whatever order they come in, and of two
such answers between which the tasks only moved forward the later one is not behind. -/
theorem job_state_exact {taskIds : List String} (hne : taskIds ≠ []) :
    (∀ cache faults db req, OneEach taskIds (handle cache faults db req) →
      ExactState (handle cache faults db req).response) ∧
    ∀ cache faults db req cache' faults' db' req',
      OneEach taskIds (handle cache faults db req) →
      OneEach taskIds (handle cache' faults' db' req') →
      MovedForward (handle cache faults db req).response.taskDetails
        (handle cache' faults' db' req').response.taskDetails →
      NotBehind (handle cache faults db req).response (handle cache' faults' db' req').response := by
  constructor
  · intro cache faults db req h
    exact (h.aggregated hne).exact
  · intro cache faults db req cache' faults' db' req' h h' hmoved
    exact (h.aggregated hne).notBehind (h'.aggregated hne) hmoved

/-- A job of these tasks, whose runtime hashes hold these states. -/
def stateCache (states : List (Uuid × String)) : QueryCache where
  jobTasks _ := some (states.map fun entry => entry.1.text)
  pipelineUp := true
  runtime taskId := some <|
    match states.find? fun entry => entry.1.text = taskId with
    | some entry => AList.singleton "state" entry.2
    | none => ∅

/-- The answer while the hashes hold these states. -/
def answerAt (states : List (Uuid × String)) : Answered :=
  handle (stateCache states) ⟨.committed, .committed⟩ queriedDb queryReq

/-- One task has succeeded and the other runs. -/
def statesBefore : List (Uuid × String) := [(queriedSuccess, "2"), (queriedFailure, "1")]

/-- The other has failed; the set lists it first now. -/
def statesAfter : List (Uuid × String) := [(queriedFailure, "3"), (queriedSuccess, "2")]

theorem job_state_exact_failing :
    ExactState (answerAt statesBefore).response ∧
      NotBehind (answerAt statesBefore).response (answerAt statesAfter).response ∧
      (answerAt statesBefore).response.state = .running ∧
      (answerAt statesAfter).response.state = .failed ∧
      (answerAt statesBefore).response.finishedTasks = 1 ∧
      (answerAt statesAfter).response.finishedTasks = 2 := by
  have hboth := job_state_exact (List.cons_ne_nil queriedSuccess.text [queriedFailure.text])
  have hbefore : OneEach [queriedSuccess.text, queriedFailure.text] (answerAt statesBefore) :=
    ⟨rfl, rfl, by decide⟩
  have hafter : OneEach [queriedSuccess.text, queriedFailure.text] (answerAt statesAfter) :=
    ⟨rfl, rfl, by decide⟩
  have hmoved : MovedForward (answerAt statesBefore).response.taskDetails
      (answerAt statesAfter).response.taskDetails :=
    ⟨_, .swap _ _ [], .cons ⟨rfl, by decide, by decide⟩ (.cons ⟨rfl, by decide, by decide⟩ .nil)⟩
  exact ⟨hboth.1 _ _ _ _ hbefore, hboth.2 _ _ _ _ _ _ _ _ hbefore hafter hmoved, by decide,
    by decide, by decide, by decide⟩

/-- A state that the enumeration does not list makes its job pending. -/
theorem unlisted_state_pending :
    OneEach [queriedSuccess.text] (answerAt [(queriedSuccess, "7")]) ∧
      (answerAt [(queriedSuccess, "7")]).response.state = .pending ∧
      ¬ ∀ d ∈ (answerAt [(queriedSuccess, "7")]).response.taskDetails,
        d.state = .pending ∨ d.state = .waitingDeps := by
  refine ⟨⟨rfl, rfl, by decide⟩, by decide, by decide⟩

end DistTaskSystem
