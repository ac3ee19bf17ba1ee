import DistTaskSystem.Common.ThreadPool

/-!
# DTS — an object that owns a thread pool

`WorkerNode` and `SchedulerLoop` own a `ThreadPool`, and the callables they put into it use
another member of theirs: the client of the scheduler, the cache of channels. The members
of an object are destroyed in the reverse order of their declarations, and both classes
declare the pool first. So the destructor of the pool, which runs what is still queued,
comes when the other member is gone.

A callable may use the member more than once; it is done with it when it will not do so
again. The callables enqueue nothing, and nobody else does once the destructor has begun.

## Results

* `step_moves` — a step is one of the moves of the code.
-/

namespace DistTaskSystem

/-- Where a callable stands with the member. -/
inductive UsePhase where
  /-- it will use it, for the first time or again -/
  | before
  | inUse
  | done
deriving DecidableEq, Repr

structure PoolOwner where
  pool : ThreadPool
  /-- by the numbers of the packaged tasks -/
  phases : List UsePhase := []
  /-- the member has been destroyed -/
  freed : Bool := false
  /-- the callables that were not done with the member when it was destroyed, and those
  that were in a use of it then or began one afterwards: kept for the statements, no
  function reads them -/
  left : List Nat := []
  dangling : List Nat := []

inductive OwnerAction where
  | pool (a : ThreadAction)
  /-- the callable of a thread begins a use of the member, -/
  | use (i : Nat)
  /-- ends one that is not its last, -/
  | pause (i : Nat)
  /-- or its last one -/
  | leave (i : Nat)
  /-- the member is destroyed -/
  | free

/-- The callable a thread is in. -/
def ThreadPool.callable? (s : ThreadPool) (i : Nat) : Option Nat :=
  match s.workers[i]? with
  | some ⟨.executing task, _⟩ => some task.id
  | _ => none

namespace PoolOwner

def construct (threads : Nat) : PoolOwner := { pool := .construct threads }

/-- The callables in a phase of a kind. -/
def numbered (s : PoolOwner) (p : UsePhase → Bool) : List Nat :=
  (List.range s.phases.length).filter fun n => s.phases[n]?.any p

/-- What the pool may do: nothing is enqueued once the member is gone, a callable ends when
it is done with it, and the destructor of the pool comes last. -/
def allows (s : PoolOwner) : ThreadAction → Bool
  | .enqueue (.outside _) => !s.freed
  | .enqueue (.inside _) => false
  | .finish i _ => (s.pool.callable? i).any fun n => s.phases[n]? = some .done
  | .stop => s.freed
  | _ => true

def setPhase (s : PoolOwner) (n : Nat) (phase : UsePhase) : PoolOwner :=
  { s with phases := s.phases.set n phase }

/-- What is touched when it is gone. -/
def touch (s : PoolOwner) (n : Nat) : PoolOwner :=
  { s with dangling := if s.freed ∧ n ∉ s.dangling then s.dangling ++ [n] else s.dangling }

/-- A step of the pool; who enqueues a callable has one that is not done. -/
def poolStep (s : PoolOwner) (a : ThreadAction) : Option PoolOwner :=
  (s.pool.step a).map fun pool => { s with
    pool := pool
    phases := s.phases ++ List.replicate (pool.nextId - s.pool.nextId) .before }

def step (s : PoolOwner) : OwnerAction → Option PoolOwner
  | .pool a => if s.allows a then s.poolStep a else none
  | .use i => do
    let n ← s.pool.callable? i
    if s.phases[n]? = some .before then some ((s.setPhase n .inUse).touch n) else none
  | .pause i => do
    let n ← s.pool.callable? i
    if s.phases[n]? = some .inUse then some (s.setPhase n .before) else none
  | .leave i => do
    let n ← s.pool.callable? i
    if s.phases[n]? = some .inUse then some (s.setPhase n .done) else none
  | .free =>
    if s.freed then none
    else some { s with
      freed := true
      left := s.numbered fun phase => phase ≠ .done
      dangling := s.numbered fun phase => phase = .inUse }

-- ---------------------------------------------------------------------------
-- What a step does
-- ---------------------------------------------------------------------------

variable {s t : PoolOwner}

/-- The moves of the owner. -/
inductive Moves (s : PoolOwner) : OwnerAction → PoolOwner → Prop
  | pool (a : ThreadAction) (pool : ThreadPool) (hallows : s.allows a = true)
      (hpool : s.pool.step a = some pool) : Moves s (.pool a) { s with
        pool := pool
        phases := s.phases ++ List.replicate (pool.nextId - s.pool.nextId) .before }
  | use (i n : Nat) (hn : s.pool.callable? i = some n) (hphase : s.phases[n]? = some .before) :
      Moves s (.use i) ((s.setPhase n .inUse).touch n)
  | pause (i n : Nat) (hn : s.pool.callable? i = some n) (hphase : s.phases[n]? = some .inUse) :
      Moves s (.pause i) (s.setPhase n .before)
  | leave (i n : Nat) (hn : s.pool.callable? i = some n) (hphase : s.phases[n]? = some .inUse) :
      Moves s (.leave i) (s.setPhase n .done)
  | free (hfreed : s.freed = false) : Moves s .free { s with
      freed := true
      left := s.numbered fun phase => phase ≠ .done
      dangling := s.numbered fun phase => phase = .inUse }

/-- **Inversion.** A step of the owner is one of its moves. -/
theorem step_moves {a : OwnerAction} (h : s.step a = some t) : Moves s a t := by
  cases a with
  | pool a =>
    rw [step, Option.ite_none_right_eq_some] at h
    obtain ⟨hallows, h⟩ := h
    obtain ⟨pool, hpool, rfl⟩ := Option.map_eq_some_iff.mp h
    exact .pool a pool hallows hpool
  | use i =>
    simp only [step, Option.bind_eq_bind, Option.bind_eq_some_iff,
      Option.ite_none_right_eq_some] at h
    obtain ⟨n, hn, hphase, h⟩ := h
    exact Option.some.inj h ▸ .use i n hn hphase
  | pause i =>
    simp only [step, Option.bind_eq_bind, Option.bind_eq_some_iff,
      Option.ite_none_right_eq_some] at h
    obtain ⟨n, hn, hphase, h⟩ := h
    exact Option.some.inj h ▸ .pause i n hn hphase
  | leave i =>
    simp only [step, Option.bind_eq_bind, Option.bind_eq_some_iff,
      Option.ite_none_right_eq_some] at h
    obtain ⟨n, hn, hphase, h⟩ := h
    exact Option.some.inj h ▸ .leave i n hn hphase
  | free =>
    rw [step, Option.ite_none_left_eq_some] at h
    exact Option.some.inj h.2 ▸ .free (Bool.eq_false_iff.mpr h.1)

/-- What a step of the pool does to what its owner knows of it. -/
theorem pool_effect {s t : ThreadPool} {a : ThreadAction} (h : s.step a = some t) :
    (t.nextId = s.nextId ∨ t.nextId = s.nextId + 1 ∧ ∃ caller, a = .enqueue caller) ∧
      (∀ n ∈ t.ended.map Prod.fst, n ∈ s.ended.map Prod.fst ∨
        ∃ i ending, a = .finish i ending ∧ s.callable? i = some n) ∧
      (t.destructor ≠ .notCalled → s.destructor ≠ .notCalled ∨ a = .stop) := by
  cases ThreadPool.step_moves h with
  | accept caller tReqId hcaller hstop =>
    exact ⟨.inr ⟨rfl, caller, rfl⟩, fun n hn => .inl hn, .inl⟩
  | finish i ending tReqId task hthread =>
    refine ⟨.inl rfl, ?_, .inl⟩
    intro n hn
    rw [List.map_append, List.mem_append] at hn
    rcases hn with hn | hn
    · exact .inl hn
    · obtain rfl : n = task.id := List.mem_singleton.mp hn
      refine .inr ⟨i, ending, rfl, ?_⟩
      rw [ThreadPool.callable?, hthread]
  | stop hdestructor => exact ⟨.inl rfl, fun n hn => .inl hn, fun _ => .inr rfl⟩
  | notifyAll hdestructor =>
    refine ⟨.inl rfl, fun n hn => .inl hn, fun _ => .inl ?_⟩
    rw [hdestructor]
    decide
  | join hdestructor hexited =>
    refine ⟨.inl rfl, fun n hn => .inl hn, fun _ => .inl ?_⟩
    rw [hdestructor]
    decide
  | refuse caller tReqId hcaller hstop => exact ⟨.inl rfl, fun n hn => .inl hn, .inl⟩
  | notifyNobody hnotifies hnobody => exact ⟨.inl rfl, fun n hn => .inl hn, .inl⟩
  | notify i tReqId hnotifies hthread => exact ⟨.inl rfl, fun n hn => .inl hn, .inl⟩
  | exit i tReqId hthread hstop hempty => exact ⟨.inl rfl, fun n hn => .inl hn, .inl⟩
  | dequeue i tReqId task rest hthread htasks => exact ⟨.inl rfl, fun n hn => .inl hn, .inl⟩
  | block i tReqId hthread hstop hempty => exact ⟨.inl rfl, fun n hn => .inl hn, .inl⟩
  | wake i tReqId hthread => exact ⟨.inl rfl, fun n hn => .inl hn, .inl⟩
  | begin i tReqId task hthread => exact ⟨.inl rfl, fun n hn => .inl hn, .inl⟩
  | setRequestId i id tReqId task hthread => exact ⟨.inl rfl, fun n hn => .inl hn, .inl⟩
  | clear i tReqId hthread => exact ⟨.inl rfl, fun n hn => .inl hn, .inl⟩

/-- The destructor of a pool returns from its last join. -/
theorem returned_pool {s t : ThreadPool} {a : ThreadAction} (h : s.step a = some t)
    (ht : t.destructor = .returned) : s.destructor = .returned ∨ a = .join := by
  cases ThreadPool.step_moves h with
  | join hdestructor hexited => exact .inr rfl
  | stop hdestructor => exact absurd (show DestructorPoint.stopped = .returned from ht) (by decide)
  | notifyAll hdestructor =>
    exact absurd (show DestructorPoint.joining = .returned from ht) (by decide)
  | _ => exact .inl ht

end PoolOwner

end DistTaskSystem
