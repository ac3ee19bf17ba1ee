import DistTaskSystem.ApiServer.BatchItem
import Mathlib.Data.Fin.Basic

/-!
# DTS — the submission queue and its flusher threads

`SubmitDagAsync` puts an item at the end of `pending_queue_` and returns its
job id. The threads that run `FlusherLoop` swap the whole queue with an empty
vector of their own and pass it to `ProcessBatch` outside the mutex. The
destructor clears `running_` and joins the threads.

`ProcessBatch` catches what its transaction and its pipeline throw, so it
returns whatever it meets, and no thread leaves the loop through it.

## Results

* `submitDagAsync_ok_iff` — a submission is refused exactly at the full queue.
* `step_moves`            — an action is one of the moves of the code.
-/

namespace DistTaskSystem

def consumerThreadNum : Nat := 8
def minBatchSize : Nat := 200
def maxQueueSize : Nat := 100000

-- ---------------------------------------------------------------------------
-- SubmitDagAsync
-- ---------------------------------------------------------------------------

/-- What the critical section of `SubmitDagAsync` leaves behind. -/
structure Queued where
  jobId : String
  pendingQueue : List BatchItem
  needNotify : Bool

/-- `SubmitDagAsync`, with the ids generated for the request. -/
def submitDagAsync (sub : Submission) (pendingQueue : List BatchItem) : Except String Queued :=
  if maxQueueSize ≤ pendingQueue.length then .error "Server is busy, queue full"
  else
    let pendingQueue := pendingQueue ++ [sub.item]
    .ok ⟨sub.item.ctx.jobId, pendingQueue, decide (minBatchSize ≤ pendingQueue.length)⟩

theorem submitDagAsync_ok_iff {sub : Submission} {queue : List BatchItem} :
    (∃ q, submitDagAsync sub queue = .ok q) ↔ queue.length < maxQueueSize := by
  rw [submitDagAsync]
  split
  · next hfull =>
    constructor
    · rintro ⟨q, hq⟩
      exact nomatch hq
    · intro hroom
      omega
  · next hroom => exact ⟨fun _ => by omega, fun _ => ⟨_, rfl⟩⟩

-- ---------------------------------------------------------------------------
-- FlusherLoop
-- ---------------------------------------------------------------------------

/-- Where a thread stands in `FlusherLoop`. -/
inductive FlusherPoint where
  /-- before the loop condition reads `running_` -/
  | test
  /-- on its way through the critical section, up to the end of `wait_for` -/
  | waiting
  /-- with its batch and without the mutex -/
  | processing
  | exited
deriving DecidableEq, Repr

structure Flusher where
  point : FlusherPoint := .test
  currentBatch : List BatchItem := []

/-- A `TaskSubmitter` with its threads. -/
structure TaskSubmitter where
  running : Bool := true
  pendingQueue : List BatchItem := []
  flusherThreads : Fin consumerThreadNum → Flusher := fun _ => {}
  /-- the destructor has returned -/
  destroyed : Bool := false
  /-- the items whose submission returned a job id and the batches passed to
  `ProcessBatch` so far: kept for the statements, no function reads them -/
  accepted : List BatchItem := []
  processed : List (List BatchItem) := []

inductive SubmitterAction where
  | submit (sub : Submission)
  /-- the loop condition of a thread reads `running_` -/
  | test (i : Fin consumerThreadNum)
  /-- `wait_for` of a thread returns, by its timeout or because its predicate
  holds, and the thread goes through the rest of the critical section -/
  | wake (i : Fin consumerThreadNum) (timedOut : Bool)
  | process (i : Fin consumerThreadNum)
  /-- the destructor clears `running_` -/
  | shutdown
  /-- the last thread is joined and the destructor returns -/
  | join

namespace TaskSubmitter

/-- The predicate of `wait_for`. -/
def ready (s : TaskSubmitter) : Bool := !s.running || decide (minBatchSize ≤ s.pendingQueue.length)

def setThread (s : TaskSubmitter) (i : Fin consumerThreadNum) (th : Flusher) : TaskSubmitter :=
  { s with flusherThreads := Function.update s.flusherThreads i th }

/-- The critical section of `FlusherLoop` after `wait_for`. -/
def collect (s : TaskSubmitter) (i : Fin consumerThreadNum) : TaskSubmitter :=
  let th := s.flusherThreads i
  if !s.running && s.pendingQueue.isEmpty then s.setThread i { th with point := .exited }
  else if s.pendingQueue.isEmpty then s.setThread i { th with point := .test }
  else
    { s.setThread i ⟨.processing, s.pendingQueue⟩ with pendingQueue := th.currentBatch }

/-- The end of an iteration: the batch is processed and cleared. -/
def processCurrent (s : TaskSubmitter) (i : Fin consumerThreadNum) : TaskSubmitter :=
  let th := s.flusherThreads i
  if th.currentBatch.isEmpty then s.setThread i { th with point := .test }
  else { s.setThread i ⟨.test, []⟩ with processed := s.processed ++ [th.currentBatch] }

/-- A submission: refused, it changes nothing. -/
def submit (s : TaskSubmitter) (sub : Submission) : TaskSubmitter :=
  match submitDagAsync sub s.pendingQueue with
  | .error _ => s
  | .ok q => { s with pendingQueue := q.pendingQueue, accepted := s.accepted ++ [sub.item] }

def step (s : TaskSubmitter) : SubmitterAction → Option TaskSubmitter
  | .submit sub => if s.running then some (s.submit sub) else none
  | .test i =>
    if (s.flusherThreads i).point = .test then
      some (s.setThread i { s.flusherThreads i with
        point := if s.running then .waiting else .exited })
    else none
  | .wake i timedOut =>
    if (s.flusherThreads i).point = .waiting ∧ (timedOut || s.ready) then some (s.collect i)
    else none
  | .process i =>
    if (s.flusherThreads i).point = .processing then some (s.processCurrent i) else none
  | .shutdown => if s.running then some { s with running := false } else none
  | .join =>
    if !s.running ∧ ∀ i, (s.flusherThreads i).point = .exited then some { s with destroyed := true }
    else none

-- ---------------------------------------------------------------------------
-- What an action does
-- ---------------------------------------------------------------------------

variable {s t : TaskSubmitter} {a : SubmitterAction}

/-- The moves of the submitter, one for each branch of the code. -/
inductive Moves (s : TaskSubmitter) : SubmitterAction → TaskSubmitter → Prop
  | refuse (sub : Submission) (hrunning : s.running = true)
      (hfull : maxQueueSize ≤ s.pendingQueue.length) : Moves s (.submit sub) s
  | accept (sub : Submission) (hrunning : s.running = true)
      (hroom : s.pendingQueue.length < maxQueueSize) : Moves s (.submit sub)
      { s with pendingQueue := s.pendingQueue ++ [sub.item], accepted := s.accepted ++ [sub.item] }
  | goOn (i : Fin consumerThreadNum) (hpoint : (s.flusherThreads i).point = .test)
      (hrunning : s.running = true) :
      Moves s (.test i) (s.setThread i { s.flusherThreads i with point := .waiting })
  | leave (i : Fin consumerThreadNum) (hpoint : (s.flusherThreads i).point = .test)
      (hrunning : s.running = false) :
      Moves s (.test i) (s.setThread i { s.flusherThreads i with point := .exited })
  | quit (i : Fin consumerThreadNum) (timedOut : Bool)
      (hpoint : (s.flusherThreads i).point = .waiting) (hqueue : s.pendingQueue = [])
      (hrunning : s.running = false) :
      Moves s (.wake i timedOut) (s.setThread i { s.flusherThreads i with point := .exited })
  | idle (i : Fin consumerThreadNum) (timedOut : Bool)
      (hpoint : (s.flusherThreads i).point = .waiting) (hqueue : s.pendingQueue = [])
      (hrunning : s.running = true) :
      Moves s (.wake i timedOut) (s.setThread i { s.flusherThreads i with point := .test })
  | swap (i : Fin consumerThreadNum) (timedOut : Bool)
      (hpoint : (s.flusherThreads i).point = .waiting) (hqueue : s.pendingQueue ≠ []) :
      Moves s (.wake i timedOut) { s.setThread i ⟨.processing, s.pendingQueue⟩ with
        pendingQueue := (s.flusherThreads i).currentBatch }
  | skip (i : Fin consumerThreadNum) (hpoint : (s.flusherThreads i).point = .processing)
      (hbatch : (s.flusherThreads i).currentBatch = []) :
      Moves s (.process i) (s.setThread i { s.flusherThreads i with point := .test })
  | process (i : Fin consumerThreadNum) (hpoint : (s.flusherThreads i).point = .processing)
      (hbatch : (s.flusherThreads i).currentBatch ≠ []) :
      Moves s (.process i) { s.setThread i ⟨.test, []⟩ with
        processed := s.processed ++ [(s.flusherThreads i).currentBatch] }
  | shutdown (hrunning : s.running = true) : Moves s .shutdown { s with running := false }
  | join (hrunning : s.running = false) (hpoints : ∀ i, (s.flusherThreads i).point = .exited) :
      Moves s .join { s with destroyed := true }

/-- **Inversion.** An action of the submitter is one of its moves. -/
theorem step_moves (h : s.step a = some t) : Moves s a t := by
  cases a with
  | submit sub =>
    rw [step, Option.ite_none_right_eq_some] at h
    obtain ⟨hrunning, heq⟩ := h
    obtain rfl := Option.some.inj heq
    by_cases hfull : maxQueueSize ≤ s.pendingQueue.length
    · have hrefused : s.submit sub = s := by rw [submit, submitDagAsync, if_pos hfull]
      rw [hrefused]
      exact .refuse sub hrunning hfull
    · rw [submit, submitDagAsync, if_neg hfull]
      exact .accept sub hrunning (by omega)
  | test i =>
    rw [step, Option.ite_none_right_eq_some] at h
    obtain ⟨hpoint, heq⟩ := h
    obtain rfl := Option.some.inj heq
    split
    · next hrunning => exact .goOn i hpoint hrunning
    · next hrunning => exact .leave i hpoint (Bool.eq_false_iff.mpr hrunning)
  | wake i timedOut =>
    rw [step, Option.ite_none_right_eq_some] at h
    obtain ⟨⟨hpoint, -⟩, heq⟩ := h
    obtain rfl := Option.some.inj heq
    rw [collect]
    by_cases hqueue : s.pendingQueue = []
    · cases hrunning : s.running with
      | false => simpa [hqueue] using Moves.quit i timedOut hpoint hqueue hrunning
      | true => simpa [hqueue] using Moves.idle i timedOut hpoint hqueue hrunning
    · have hne : s.pendingQueue.isEmpty = false := List.isEmpty_eq_false_iff.mpr hqueue
      simpa [hne] using Moves.swap i timedOut hpoint hqueue
  | process i =>
    rw [step, Option.ite_none_right_eq_some] at h
    obtain ⟨hpoint, heq⟩ := h
    obtain rfl := Option.some.inj heq
    rw [processCurrent]
    by_cases hbatch : (s.flusherThreads i).currentBatch = []
    · simpa [hbatch] using Moves.skip i hpoint hbatch
    · have hne := List.isEmpty_eq_false_iff.mpr hbatch
      simpa [hne] using Moves.process i hpoint hbatch
  | shutdown =>
    rw [step, Option.ite_none_right_eq_some] at h
    obtain ⟨hrunning, heq⟩ := h
    obtain rfl := Option.some.inj heq
    exact .shutdown hrunning
  | join =>
    rw [step, Option.ite_none_right_eq_some] at h
    obtain ⟨⟨hrunning, hpoints⟩, heq⟩ := h
    obtain rfl := Option.some.inj heq
    exact .join (by simpa using hrunning) hpoints

end TaskSubmitter

end DistTaskSystem
