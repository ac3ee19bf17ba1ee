import Mathlib.Data.List.Basic

/-!
# DTS — the thread pool

`ThreadPool` has a fixed number of threads and one queue. `enqueue` packs a
callable together with the request id of its caller; a thread that takes it
sets that id as its own before it runs the callable, and clears it afterwards.
The critical sections under `queue_mutex_` are single steps, and so is what a
thread does between two of them up to the next point at which another thread
can see it.

What a callable does is left open: it may change the request id of its thread,
it may enqueue more, and it returns or throws. `packaged_task` keeps what it
throws for the future.

## Results

* `step_moves` — a step is one of the moves of the code.
-/

namespace DistTaskSystem

/-- An entry of `tasks_`: the packaged task, by its number, and what its lambda
captured. -/
structure PooledTask where
  id : Nat
  capturedCtxId : String
deriving DecidableEq, Repr

/-- How a callable ends: the future gets a value or an exception. -/
inductive CallableEnd where
  | value
  | exception
deriving DecidableEq, Repr

/-- Where a thread stands in its loop. -/
inductive ThreadPoint where
  /-- before the predicate of `condition_.wait` is tested -/
  | testing
  /-- blocked in `condition_.wait` -/
  | waiting
  /-- behind the critical section, before the call of `task` -/
  | dequeued (task : PooledTask)
  /-- in the callable -/
  | executing (task : PooledTask)
  /-- before the request id is cleared -/
  | finished
  | exited
deriving DecidableEq, Repr

structure PoolThread where
  point : ThreadPoint := .testing
  /-- `t_req_id` -/
  tReqId : String := ""
deriving DecidableEq, Repr

/-- Where the destructor stands. -/
inductive DestructorPoint where
  | notCalled
  /-- behind its critical section, before `notify_all` -/
  | stopped
  | joining
  | returned
deriving DecidableEq, Repr

structure ThreadPool where
  workers : List PoolThread
  tasks : List PooledTask := []
  stop : Bool := false
  /-- calls of `enqueue` that have not come to their `notify_one` -/
  notifies : Nat := 0
  /-- the number of the next packaged task -/
  nextId : Nat := 0
  destructor : DestructorPoint := .notCalled
  /-- the calls of `enqueue` that returned a future, with the request id of their
  caller at that time; the tasks taken from the queue; the callables started, with
  the request id they found; the callables that ended: kept for the statements, no
  function reads them -/
  accepted : List (Nat × String) := []
  taken : List (Nat × String) := []
  started : List (Nat × String) := []
  ended : List (Nat × CallableEnd) := []

/-- Who calls `enqueue`: a thread with some request id, or a callable on a thread
of the pool. -/
inductive Caller where
  | outside (tReqId : String)
  | inside (i : Nat)

inductive ThreadAction where
  | enqueue (caller : Caller)
  /-- the `notify_one` of an `enqueue` wakes a waiting thread, if there is one -/
  | notify (woken : Option Nat)
  /-- a thread goes through its critical section, up to where it blocks if its
  predicate does not hold -/
  | test (i : Nat)
  /-- `condition_.wait` returns for no reason -/
  | wake (i : Nat)
  | begin (i : Nat)
  /-- the callable calls `SetRequestId` -/
  | setRequestId (i : Nat) (id : String)
  | finish (i : Nat) (ending : CallableEnd)
  | clear (i : Nat)
  /-- the destructor sets `stop_` -/
  | stop
  | notifyAll
  /-- the last thread is joined and the destructor returns -/
  | join

namespace ThreadPool

/-- The constructor. -/
def construct (threads : Nat) : ThreadPool := { workers := List.replicate threads {} }

def setThread (s : ThreadPool) (i : Nat) (th : PoolThread) : ThreadPool :=
  { s with workers := s.workers.set i th }

/-- The `t_req_id` of a caller of `enqueue`. -/
def reqIdOf (s : ThreadPool) : Caller → Option String
  | .outside tReqId => some tReqId
  | .inside i =>
    match s.workers[i]? with
    | some ⟨.executing _, tReqId⟩ => some tReqId
    | _ => none

/-- `enqueue` up to its `notify_one`. -/
def enqueue (s : ThreadPool) (capturedCtxId : String) : Except String ThreadPool :=
  if s.stop then .error "enqueue on stopped ThreadPool"
  else .ok { s with
    tasks := s.tasks ++ [⟨s.nextId, capturedCtxId⟩]
    notifies := s.notifies + 1
    nextId := s.nextId + 1
    accepted := s.accepted ++ [(s.nextId, capturedCtxId)] }

/-- The critical section of a thread. -/
def criticalSection (s : ThreadPool) (i : Nat) (th : PoolThread) : ThreadPool :=
  if s.stop || !s.tasks.isEmpty then
    match s.tasks with
    -- the queue can only be empty if the pool is stopped
    | [] => s.setThread i { th with point := .exited }
    | task :: rest =>
      { s.setThread i { th with point := .dequeued task } with
        tasks := rest
        taken := s.taken ++ [(task.id, task.capturedCtxId)] }
  else s.setThread i { th with point := .waiting }

/-- The thread that a notification wakes is one that waits, and it wakes one if
it can. -/
def mayWake (s : ThreadPool) : Option Nat → Bool
  | none => s.workers.all fun th => th.point ≠ .waiting
  | some i => (s.workers[i]?).any fun th => th.point = .waiting

/-- A thread that is woken tests its predicate again. -/
def wakeThread (s : ThreadPool) (i : Nat) : ThreadPool :=
  match s.workers[i]? with
  | none => s
  | some th => s.setThread i { th with point := .testing }

def wakeUp (th : PoolThread) : PoolThread :=
  if th.point = .waiting then { th with point := .testing } else th

/-- The wrapping lambda sets the request id, and the callable finds it. -/
def beginTask (s : ThreadPool) (i : Nat) (task : PooledTask) : ThreadPool :=
  let th : PoolThread := ⟨.executing task, task.capturedCtxId⟩
  { s.setThread i th with started := s.started ++ [(task.id, th.tReqId)] }

def step (s : ThreadPool) : ThreadAction → Option ThreadPool
  | .enqueue caller =>
    match s.reqIdOf caller with
    | none => none
    | some tReqId =>
      match s.enqueue tReqId with
      | .error _ => some s
      | .ok s => some s
  | .notify woken =>
    if 0 < s.notifies ∧ s.mayWake woken then
      some { woken.elim s s.wakeThread with notifies := s.notifies - 1 }
    else none
  | .test i =>
    match s.workers[i]? with
    | some ⟨.testing, tReqId⟩ => some (s.criticalSection i ⟨.testing, tReqId⟩)
    | _ => none
  | .wake i =>
    match s.workers[i]? with
    | some ⟨.waiting, tReqId⟩ => some (s.setThread i ⟨.testing, tReqId⟩)
    | _ => none
  | .begin i =>
    match s.workers[i]? with
    | some ⟨.dequeued task, _⟩ => some (s.beginTask i task)
    | _ => none
  | .setRequestId i id =>
    match s.workers[i]? with
    | some ⟨.executing task, _⟩ => some (s.setThread i ⟨.executing task, id⟩)
    | _ => none
  | .finish i ending =>
    match s.workers[i]? with
    | some ⟨.executing task, tReqId⟩ =>
      some { s.setThread i ⟨.finished, tReqId⟩ with ended := s.ended ++ [(task.id, ending)] }
    | _ => none
  | .clear i =>
    match s.workers[i]? with
    | some ⟨.finished, _⟩ => some (s.setThread i ⟨.testing, ""⟩)
    | _ => none
  | .stop =>
    if s.destructor = .notCalled then some { s with stop := true, destructor := .stopped } else none
  | .notifyAll =>
    if s.destructor = .stopped then
      some { s with workers := s.workers.map wakeUp, destructor := .joining }
    else none
  | .join =>
    if s.destructor = .joining ∧ ∀ th ∈ s.workers, th.point = .exited then
      some { s with destructor := .returned }
    else none

-- ---------------------------------------------------------------------------
-- What a step does
-- ---------------------------------------------------------------------------

variable {s t : ThreadPool}

/-- The moves of the pool. -/
inductive Moves (s : ThreadPool) : ThreadAction → ThreadPool → Prop
  | refuse (caller : Caller) (tReqId : String) (hcaller : s.reqIdOf caller = some tReqId)
      (hstop : s.stop = true) : Moves s (.enqueue caller) s
  | accept (caller : Caller) (tReqId : String) (hcaller : s.reqIdOf caller = some tReqId)
      (hstop : s.stop = false) : Moves s (.enqueue caller) { s with
        tasks := s.tasks ++ [⟨s.nextId, tReqId⟩]
        notifies := s.notifies + 1
        nextId := s.nextId + 1
        accepted := s.accepted ++ [(s.nextId, tReqId)] }
  | notifyNobody (hnotifies : 0 < s.notifies) (hnobody : ∀ th ∈ s.workers, th.point ≠ .waiting) :
      Moves s (.notify none) { s with notifies := s.notifies - 1 }
  | notify (i : Nat) (tReqId : String) (hnotifies : 0 < s.notifies)
      (hthread : s.workers[i]? = some ⟨.waiting, tReqId⟩) :
      Moves s (.notify (some i))
        { s.setThread i ⟨.testing, tReqId⟩ with notifies := s.notifies - 1 }
  | exit (i : Nat) (tReqId : String) (hthread : s.workers[i]? = some ⟨.testing, tReqId⟩)
      (hstop : s.stop = true) (hempty : s.tasks = []) :
      Moves s (.test i) (s.setThread i ⟨.exited, tReqId⟩)
  | dequeue (i : Nat) (tReqId : String) (task : PooledTask) (rest : List PooledTask)
      (hthread : s.workers[i]? = some ⟨.testing, tReqId⟩) (htasks : s.tasks = task :: rest) :
      Moves s (.test i) { s.setThread i ⟨.dequeued task, tReqId⟩ with
        tasks := rest
        taken := s.taken ++ [(task.id, task.capturedCtxId)] }
  | block (i : Nat) (tReqId : String) (hthread : s.workers[i]? = some ⟨.testing, tReqId⟩)
      (hstop : s.stop = false) (hempty : s.tasks = []) :
      Moves s (.test i) (s.setThread i ⟨.waiting, tReqId⟩)
  | wake (i : Nat) (tReqId : String) (hthread : s.workers[i]? = some ⟨.waiting, tReqId⟩) :
      Moves s (.wake i) (s.setThread i ⟨.testing, tReqId⟩)
  | begin (i : Nat) (tReqId : String) (task : PooledTask)
      (hthread : s.workers[i]? = some ⟨.dequeued task, tReqId⟩) :
      Moves s (.begin i) { s.setThread i ⟨.executing task, task.capturedCtxId⟩ with
        started := s.started ++ [(task.id, task.capturedCtxId)] }
  | setRequestId (i : Nat) (id tReqId : String) (task : PooledTask)
      (hthread : s.workers[i]? = some ⟨.executing task, tReqId⟩) :
      Moves s (.setRequestId i id) (s.setThread i ⟨.executing task, id⟩)
  | finish (i : Nat) (ending : CallableEnd) (tReqId : String) (task : PooledTask)
      (hthread : s.workers[i]? = some ⟨.executing task, tReqId⟩) :
      Moves s (.finish i ending)
        { s.setThread i ⟨.finished, tReqId⟩ with ended := s.ended ++ [(task.id, ending)] }
  | clear (i : Nat) (tReqId : String) (hthread : s.workers[i]? = some ⟨.finished, tReqId⟩) :
      Moves s (.clear i) (s.setThread i ⟨.testing, ""⟩)
  | stop (hdestructor : s.destructor = .notCalled) :
      Moves s .stop { s with stop := true, destructor := .stopped }
  | notifyAll (hdestructor : s.destructor = .stopped) :
      Moves s .notifyAll { s with workers := s.workers.map wakeUp, destructor := .joining }
  | join (hdestructor : s.destructor = .joining)
      (hexited : ∀ th ∈ s.workers, th.point = .exited) :
      Moves s .join { s with destructor := .returned }

/-- **Inversion.** A step of the pool is one of its moves. -/
theorem step_moves {a : ThreadAction} (h : s.step a = some t) : Moves s a t := by
  cases a with
  | enqueue caller =>
    rw [step] at h
    split at h
    · exact nomatch h
    · next tReqId hcaller =>
      cases hstop : s.stop with
      | true =>
        rw [enqueue, if_pos hstop] at h
        exact Option.some.inj h ▸ .refuse caller tReqId hcaller hstop
      | false =>
        rw [enqueue, if_neg (Bool.eq_false_iff.mp hstop)] at h
        exact Option.some.inj h ▸ .accept caller tReqId hcaller hstop
  | notify woken =>
    rw [step, Option.ite_none_right_eq_some] at h
    obtain ⟨⟨hnotifies, hwake⟩, h⟩ := h
    obtain rfl := Option.some.inj h
    cases woken with
    | none =>
      refine .notifyNobody hnotifies ?_
      intro th hth
      exact of_decide_eq_true (List.all_eq_true.mp hwake th hth)
    | some i =>
      obtain ⟨⟨point, tReqId⟩, hthread, hpoint⟩ := (Option.any_eq_true _ _).mp hwake
      obtain rfl : point = .waiting := of_decide_eq_true hpoint
      have hwoken : s.wakeThread i = s.setThread i ⟨.testing, tReqId⟩ := by
        rw [wakeThread, hthread]
      show Moves s _ { s.wakeThread i with notifies := s.notifies - 1 }
      rw [hwoken]
      exact .notify i tReqId hnotifies hthread
  | test i =>
    rw [step] at h
    split at h
    · next tReqId hthread =>
      obtain rfl := Option.some.inj h
      rw [criticalSection]
      cases htasks : s.tasks with
      | nil =>
        cases hstop : s.stop with
        | true => exact .exit i tReqId hthread hstop htasks
        | false => exact .block i tReqId hthread hstop htasks
      | cons task rest =>
        rw [List.isEmpty_cons, Bool.not_false, Bool.or_true, if_pos rfl]
        exact .dequeue i tReqId task rest hthread htasks
    · exact nomatch h
  | wake i =>
    rw [step] at h
    split at h
    · next tReqId hthread => exact Option.some.inj h ▸ .wake i tReqId hthread
    · exact nomatch h
  | begin i =>
    rw [step] at h
    split at h
    · next task tReqId hthread => exact Option.some.inj h ▸ .begin i tReqId task hthread
    · exact nomatch h
  | setRequestId i id =>
    rw [step] at h
    split at h
    · next task tReqId hthread =>
      exact Option.some.inj h ▸ .setRequestId i id tReqId task hthread
    · exact nomatch h
  | finish i ending =>
    rw [step] at h
    split at h
    · next task tReqId hthread => exact Option.some.inj h ▸ .finish i ending tReqId task hthread
    · exact nomatch h
  | clear i =>
    rw [step] at h
    split at h
    · next tReqId hthread => exact Option.some.inj h ▸ .clear i tReqId hthread
    · exact nomatch h
  | stop =>
    rw [step, Option.ite_none_right_eq_some] at h
    exact Option.some.inj h.2 ▸ .stop h.1
  | notifyAll =>
    rw [step, Option.ite_none_right_eq_some] at h
    exact Option.some.inj h.2 ▸ .notifyAll h.1
  | join =>
    rw [step, Option.ite_none_right_eq_some] at h
    exact Option.some.inj h.2 ▸ .join h.1.1 h.1.2

end ThreadPool

end DistTaskSystem
