import DistTaskSystem.Common.ThreadPool
import DistTaskSystem.Library.Parties
import DistTaskSystem.Library.Runs
import Mathlib.Data.List.Nodup
import Mathlib.Data.List.Perm.Basic
import Mathlib.Order.Nat

/-!
# DTS — what the thread pool promises

Every callable whose `enqueue` returned a future is taken from the queue in the
order of the calls, runs once and under the request id of its caller. A thread
leaves its loop only when the queue is empty and stays so, which is why nothing
is left when the destructor returns; and a notification reaches a thread as
long as one waits, which is why the threads come to an end with whatever is
queued.

## Results

* `accounted_step` — where the callables are.
* `awake_step`     — no thread sleeps over a queued task.
* `work_step`      — each step of a thread brings the end nearer.
* `pool_runs_once` — all of it, for any number of threads.
-/

namespace DistTaskSystem

/-- What a thread has taken from the queue and not started. -/
def PoolThread.inHand? (th : PoolThread) : Option (Nat × String) :=
  match th.point with
  | .dequeued task => some (task.id, task.capturedCtxId)
  | _ => none

/-- The callable a thread is in. -/
def PoolThread.running? (th : PoolThread) : Option Nat :=
  match th.point with
  | .executing task => some task.id
  | _ => none

/-- The steps a thread has left before it tests its predicate, and that test. -/
def PoolThread.weight (th : PoolThread) : Nat :=
  match th.point with
  | .dequeued _ => 4
  | .executing _ => 3
  | .finished => 2
  | .testing => 1
  | .waiting => 0
  | .exited => 0

/-- The steps that the threads and the notifications take by themselves. -/
def ThreadAction.Internal : ThreadAction → Prop
  | .notify _ => True
  | .test _ => True
  | .begin _ => True
  | .finish _ _ => True
  | .clear _ => True
  | _ => False

namespace ThreadPool

open Runs

variable {s t : ThreadPool} {a : ThreadAction} {actions : List ThreadAction}

-- ---------------------------------------------------------------------------
-- Where the callables are
-- ---------------------------------------------------------------------------

/-- The callables accepted are those taken and those queued, in this order; those
taken are in a thread's hands or were started; those started run or have ended. -/
structure Accounted (s : ThreadPool) : Prop where
  fifo : s.accepted = s.taken ++ s.tasks.map fun task => (task.id, task.capturedCtxId)
  numbered : s.accepted.map Prod.fst = List.range s.nextId
  taken : s.taken.Perm (s.workers.filterMap PoolThread.inHand? ++ s.started)
  started : (s.started.map Prod.fst).Perm
    (s.workers.filterMap PoolThread.running? ++ s.ended.map Prod.fst)

/-- A thread that moves without a callable, or within it. -/
theorem filterMap_same {β : Type} {f : PoolThread → Option β} {i : Nat} {th x : PoolThread}
    (hthread : s.workers[i]? = some th) (hx : f x = f th) :
    ((s.workers.set i x).filterMap f).Perm (s.workers.filterMap f) := by
  obtain ⟨rest, hs, ht⟩ := Parties.perm_set f hthread
  refine (ht x).trans ?_
  rw [hx]
  exact hs.symm

/-- A thread takes something. -/
theorem filterMap_take {β : Type} {f : PoolThread → Option β} {i : Nat} {th x : PoolThread} {b : β}
    (hthread : s.workers[i]? = some th) (hth : f th = none) (hx : f x = some b) :
    ((s.workers.set i x).filterMap f).Perm (b :: s.workers.filterMap f) := by
  obtain ⟨rest, hs, ht⟩ := Parties.perm_set f hthread
  have htaken := ht x
  rw [hth] at hs
  rw [hx] at htaken
  exact htaken.trans (hs.symm.cons b)

/-- A thread gives something up. -/
theorem filterMap_drop {β : Type} {f : PoolThread → Option β} {i : Nat} {th x : PoolThread} {b : β}
    (hthread : s.workers[i]? = some th) (hth : f th = some b) (hx : f x = none) :
    (s.workers.filterMap f).Perm (b :: (s.workers.set i x).filterMap f) := by
  obtain ⟨rest, hs, ht⟩ := Parties.perm_set f hthread
  have hdropped := ht x
  rw [hth] at hs
  rw [hx] at hdropped
  exact hs.trans (hdropped.symm.cons b)

/-- A step that moves no callable. -/
theorem Accounted.move {i : Nat} {th x : PoolThread} (hs : s.Accounted)
    (hthread : s.workers[i]? = some th) (hhand : x.inHand? = th.inHand?)
    (hrunning : x.running? = th.running?) : (s.setThread i x).Accounted where
  fifo := hs.fifo
  numbered := hs.numbered
  taken := hs.taken.trans ((filterMap_same hthread hhand).symm.append_right _)
  started := hs.started.trans ((filterMap_same hthread hrunning).symm.append_right _)

theorem wakeUp_same (workers : List PoolThread) :
    (workers.map wakeUp).filterMap PoolThread.inHand? = workers.filterMap PoolThread.inHand? ∧
      (workers.map wakeUp).filterMap PoolThread.running? =
        workers.filterMap PoolThread.running? := by
  have hsame : ∀ th, (wakeUp th).inHand? = th.inHand? ∧ (wakeUp th).running? = th.running? := by
    rintro ⟨point, tReqId⟩
    cases point <;> exact ⟨rfl, rfl⟩
  rw [List.filterMap_map, List.filterMap_map]
  exact ⟨List.filterMap_congr fun th _ => (hsame th).1,
    List.filterMap_congr fun th _ => (hsame th).2⟩

/-- **Step lemma.** -/
theorem accounted_step (hs : s.Accounted) (h : s.step a = some t) : t.Accounted := by
  cases step_moves h with
  | refuse caller tReqId hcaller hstop => exact hs
  | accept caller tReqId hcaller hstop =>
    refine ⟨?_, ?_, hs.taken, hs.started⟩
    · show s.accepted ++ [_] = s.taken ++ (s.tasks ++ [_]).map _
      rw [List.map_append, ← List.append_assoc, ← hs.fifo]
      rfl
    · show (s.accepted ++ [_]).map Prod.fst = List.range (s.nextId + 1)
      rw [List.map_append, hs.numbered, List.range_succ]
      rfl
  | notifyNobody hnotifies hnobody => exact ⟨hs.fifo, hs.numbered, hs.taken, hs.started⟩
  | notify i tReqId hnotifies hthread =>
    have hmoved := hs.move (x := ⟨.testing, tReqId⟩) hthread rfl rfl
    exact ⟨hmoved.fifo, hmoved.numbered, hmoved.taken, hmoved.started⟩
  | exit i tReqId hthread hstop hempty => exact hs.move hthread rfl rfl
  | dequeue i tReqId task rest hthread htasks =>
    refine ⟨?_, hs.numbered, ?_, ?_⟩
    · show s.accepted = s.taken ++ [_] ++ rest.map _
      rw [hs.fifo, htasks, List.append_assoc]
      rfl
    · have htaken := filterMap_take (f := PoolThread.inHand?) (x := ⟨.dequeued task, tReqId⟩)
        hthread rfl rfl
      show (s.taken ++ [_]).Perm ((s.workers.set i _).filterMap PoolThread.inHand? ++ s.started)
      refine (List.perm_append_singleton _ _).trans ?_
      exact (hs.taken.cons _).trans (htaken.symm.append_right s.started)
    · exact hs.started.trans ((filterMap_same (f := PoolThread.running?)
        (x := ⟨.dequeued task, tReqId⟩) hthread rfl).symm.append_right _)
  | block i tReqId hthread hstop hempty => exact hs.move hthread rfl rfl
  | wake i tReqId hthread => exact hs.move hthread rfl rfl
  | begin i tReqId task hthread =>
    refine ⟨hs.fifo, hs.numbered, ?_, ?_⟩
    · have hdropped := filterMap_drop (f := PoolThread.inHand?)
        (x := ⟨.executing task, task.capturedCtxId⟩) hthread rfl rfl
      show s.taken.Perm ((s.workers.set i _).filterMap PoolThread.inHand? ++ (s.started ++ [_]))
      refine hs.taken.trans ((hdropped.append_right _).trans ?_)
      rw [← List.append_assoc]
      exact (List.perm_append_singleton _ _).symm
    · have htaken := filterMap_take (f := PoolThread.running?)
        (x := ⟨.executing task, task.capturedCtxId⟩) hthread rfl rfl
      show ((s.started ++ [_]).map Prod.fst).Perm
        ((s.workers.set i _).filterMap PoolThread.running? ++ _)
      rw [List.map_append]
      refine (List.perm_append_singleton _ _).trans ?_
      exact (hs.started.cons _).trans (htaken.symm.append_right _)
  | setRequestId i id tReqId task hthread => exact hs.move hthread rfl rfl
  | finish i ending tReqId task hthread =>
    refine ⟨hs.fifo, hs.numbered, ?_, ?_⟩
    · exact hs.taken.trans ((filterMap_same (f := PoolThread.inHand?)
        (x := ⟨.finished, tReqId⟩) hthread rfl).symm.append_right _)
    · have hdropped := filterMap_drop (f := PoolThread.running?)
        (x := ⟨.finished, tReqId⟩) hthread rfl rfl
      show (s.started.map Prod.fst).Perm
        ((s.workers.set i _).filterMap PoolThread.running? ++ (s.ended ++ [_]).map Prod.fst)
      rw [List.map_append, ← List.append_assoc]
      refine hs.started.trans ((hdropped.append_right _).trans ?_)
      exact (List.perm_append_singleton _ _).symm
  | clear i tReqId hthread =>
    exact hs.move hthread rfl rfl
  | stop hdestructor => exact ⟨hs.fifo, hs.numbered, hs.taken, hs.started⟩
  | notifyAll hdestructor =>
    obtain ⟨hhand, hrunning⟩ := wakeUp_same s.workers
    refine ⟨hs.fifo, hs.numbered, ?_, ?_⟩
    · show s.taken.Perm ((s.workers.map wakeUp).filterMap PoolThread.inHand? ++ s.started)
      rw [hhand]
      exact hs.taken
    · show (s.started.map Prod.fst).Perm ((s.workers.map wakeUp).filterMap PoolThread.running? ++ _)
      rw [hrunning]
      exact hs.started
  | join hdestructor hexited => exact ⟨hs.fifo, hs.numbered, hs.taken, hs.started⟩

-- ---------------------------------------------------------------------------
-- Who sleeps
-- ---------------------------------------------------------------------------

/-- The threads that are on their way. -/
def active (s : ThreadPool) : Nat :=
  s.workers.countP fun th => th.point ≠ .waiting ∧ th.point ≠ .exited

/-- A thread leaves only an empty queue that stays empty, and while one sleeps,
every queued task has a thread or a notification that comes for it. -/
structure Awake (s : ThreadPool) : Prop where
  exited : ∀ th ∈ s.workers, th.point = .exited → s.stop = true ∧ s.tasks = []
  waiting : ∀ th ∈ s.workers, th.point = .waiting →
    s.tasks.length ≤ s.active + s.notifies ∧
      (s.destructor = .notCalled ∨ s.destructor = .stopped)
  stopped : s.stop = true ↔ s.destructor ≠ .notCalled
  returned : s.destructor = .returned → ∀ th ∈ s.workers, th.point = .exited

theorem active_setThread {i : Nat} {th x : PoolThread} (hthread : s.workers[i]? = some th) :
    (s.setThread i x).active + (if th.point ≠ .waiting ∧ th.point ≠ .exited then 1 else 0) =
      s.active + if x.point ≠ .waiting ∧ x.point ≠ .exited then 1 else 0 := by
  have hcount := Parties.countP_set
    (fun th : PoolThread => decide (th.point ≠ .waiting ∧ th.point ≠ .exited)) (x := x) hthread
  simp only [decide_eq_true_eq] at hcount
  exact hcount

/-- A thread at another point than the one that has moved has not moved. -/
theorem unmoved {i : Nat} {x y : PoolThread} (hy : y ∈ s.workers.set i x)
    (hpoint : y.point ≠ x.point) : y ∈ s.workers :=
  (List.mem_or_eq_of_mem_set hy).resolve_right fun heq => hpoint (congrArg PoolThread.point heq)

/-- A thread on its way moves on, and so does the rest of the pool. -/
theorem Awake.move {i : Nat} {th x : PoolThread} (hs : s.Awake)
    (hthread : s.workers[i]? = some th) (hth : th.point ≠ .waiting ∧ th.point ≠ .exited)
    (hx : x.point ≠ .waiting ∧ x.point ≠ .exited) (hworkers : t.workers = s.workers.set i x)
    (htasks : t.tasks.length ≤ s.tasks.length) (hstop : t.stop = s.stop)
    (hnotifies : t.notifies = s.notifies) (hdestructor : t.destructor = s.destructor) :
    t.Awake := by
  have hactive : t.active = s.active := by
    have hcount := active_setThread (x := x) hthread
    rw [if_pos hth, if_pos hx] at hcount
    have ht : t.active = (s.setThread i x).active := by rw [active, active, hworkers]; rfl
    omega
  have hold : ∀ y ∈ t.workers, y.point = .waiting ∨ y.point = .exited → y ∈ s.workers := by
    intro y hy hpoint
    rw [hworkers] at hy
    refine unmoved hy fun hsame => ?_
    rw [hsame] at hpoint
    exact hpoint.elim hx.1 hx.2
  refine ⟨?_, ?_, by rw [hstop, hdestructor]; exact hs.stopped, ?_⟩
  · intro y hy hpoint
    obtain ⟨hstopped, hempty⟩ := hs.exited y (hold y hy (.inr hpoint)) hpoint
    rw [hempty, List.length_nil] at htasks
    exact ⟨hstop.trans hstopped, List.length_eq_zero_iff.mp (Nat.le_zero.mp htasks)⟩
  · intro y hy hpoint
    obtain ⟨hle, hbefore⟩ := hs.waiting y (hold y hy (.inl hpoint)) hpoint
    rw [hactive, hnotifies, hdestructor]
    exact ⟨htasks.trans hle, hbefore⟩
  · intro hreturned
    rw [hdestructor] at hreturned
    exact absurd (hs.returned hreturned th (List.mem_of_getElem? hthread)) hth.2

/-- A thread that sleeps is woken. -/
theorem Awake.wake {i : Nat} {tReqId : String} (hs : s.Awake)
    (hthread : s.workers[i]? = some ⟨.waiting, tReqId⟩)
    (hworkers : t.workers = s.workers.set i ⟨.testing, tReqId⟩) (htasks : t.tasks = s.tasks)
    (hstop : t.stop = s.stop) (hnotifies : s.notifies ≤ t.notifies + 1)
    (hdestructor : t.destructor = s.destructor) : t.Awake := by
  have hmem := List.mem_of_getElem? hthread
  have hactive : t.active = s.active + 1 := by
    have hcount := active_setThread (x := ⟨.testing, tReqId⟩) hthread
    rw [if_neg (fun h => h.1 rfl), if_pos ⟨nofun, nofun⟩] at hcount
    have ht : t.active = (s.setThread i ⟨.testing, tReqId⟩).active := by
      rw [active, active, hworkers]
      rfl
    omega
  have hold : ∀ y ∈ t.workers, y.point = .waiting ∨ y.point = .exited → y ∈ s.workers := by
    intro y hy hpoint
    rw [hworkers] at hy
    refine unmoved hy fun hsame => ?_
    rw [hsame] at hpoint
    exact hpoint.elim nofun nofun
  refine ⟨?_, ?_, by rw [hstop, hdestructor]; exact hs.stopped, ?_⟩
  · intro y hy hpoint
    rw [hstop, htasks]
    exact hs.exited y (hold y hy (.inr hpoint)) hpoint
  · intro y hy hpoint
    obtain ⟨hle, hbefore⟩ := hs.waiting y (hold y hy (.inl hpoint)) hpoint
    rw [htasks, hdestructor]
    exact ⟨by omega, hbefore⟩
  · intro hreturned
    rw [hdestructor] at hreturned
    exact nomatch hs.returned hreturned _ hmem

/-- A thread leaves, once the pool is stopped and the queue is empty. -/
theorem Awake.exit {i : Nat} {tReqId : String} (hs : s.Awake)
    (hthread : s.workers[i]? = some ⟨.testing, tReqId⟩) (hstop : s.stop = true)
    (hempty : s.tasks = []) : (s.setThread i ⟨.exited, tReqId⟩).Awake := by
  refine ⟨fun _ _ _ => ⟨hstop, hempty⟩, ?_, hs.stopped, ?_⟩
  · intro y hy hpoint
    have hy' : y ∈ s.workers := unmoved hy (by rw [hpoint]; exact nofun)
    refine ⟨?_, (hs.waiting y hy' hpoint).2⟩
    show s.tasks.length ≤ _
    rw [hempty]
    exact Nat.zero_le _
  · intro hreturned
    exact nomatch hs.returned hreturned _ (List.mem_of_getElem? hthread)

/-- A thread falls asleep on an empty queue, before the pool is stopped. -/
theorem Awake.block {i : Nat} {tReqId : String} (hs : s.Awake) (hstop : s.stop = false)
    (hempty : s.tasks = []) : (s.setThread i ⟨.waiting, tReqId⟩).Awake := by
  have hnotCalled : s.destructor = .notCalled := by
    by_contra hcalled
    exact nomatch hstop.symm.trans (hs.stopped.mpr hcalled)
  refine ⟨?_, ?_, hs.stopped, ?_⟩
  · intro y hy hpoint
    exact hs.exited y (unmoved hy (by rw [hpoint]; exact nofun)) hpoint
  · intro y hy hpoint
    refine ⟨?_, .inl hnotCalled⟩
    show s.tasks.length ≤ _
    rw [hempty]
    exact Nat.zero_le _
  · intro hreturned
    exact nomatch hnotCalled.symm.trans hreturned

/-- The destructor wakes everybody. -/
theorem wakeUp_points {th : PoolThread} (hth : th ∈ s.workers.map wakeUp) :
    th.point ≠ .waiting ∧ (th.point = .exited → th ∈ s.workers) := by
  obtain ⟨⟨point, tReqId⟩, hmem, rfl⟩ := List.mem_map.mp hth
  cases point with
  | exited => exact ⟨nofun, fun _ => hmem⟩
  | waiting => exact ⟨nofun, nofun⟩
  | testing => exact ⟨nofun, nofun⟩
  | dequeued task => exact ⟨nofun, nofun⟩
  | executing task => exact ⟨nofun, nofun⟩
  | finished => exact ⟨nofun, nofun⟩

theorem Awake.notifyAll (hs : s.Awake) (hdestructor : s.destructor = .stopped) :
    { s with workers := s.workers.map wakeUp, destructor := .joining }.Awake := by
  have hstop : s.stop = true := hs.stopped.mpr (by rw [hdestructor]; exact nofun)
  refine ⟨?_, ?_, ?_, nofun⟩
  · intro th hth hpoint
    exact hs.exited th ((wakeUp_points hth).2 hpoint) hpoint
  · intro th hth hpoint
    exact absurd hpoint (wakeUp_points hth).1
  · exact iff_of_true hstop nofun

/-- **Step lemma.** -/
theorem awake_step (hs : s.Awake) (h : s.step a = some t) : t.Awake := by
  cases step_moves h with
  | refuse caller tReqId hcaller hstop => exact hs
  | accept caller tReqId hcaller hstop =>
    refine ⟨?_, ?_, hs.stopped, hs.returned⟩
    · intro th hth hpoint
      exact nomatch hstop.symm.trans (hs.exited th hth hpoint).1
    · intro th hth hpoint
      obtain ⟨hle, hbefore⟩ := hs.waiting th hth hpoint
      refine ⟨?_, hbefore⟩
      show (s.tasks ++ [_]).length ≤ s.active + (s.notifies + 1)
      rw [List.length_append, List.length_singleton]
      omega
  | notifyNobody hnotifies hnobody =>
    exact ⟨hs.exited, fun th hth hpoint => absurd hpoint (hnobody th hth), hs.stopped, hs.returned⟩
  | notify i tReqId hnotifies hthread =>
    exact hs.wake hthread rfl rfl rfl (Nat.le_add_of_sub_le le_rfl) rfl
  | exit i tReqId hthread hstop hempty => exact hs.exit hthread hstop hempty
  | dequeue i tReqId task rest hthread htasks =>
    refine hs.move (x := ⟨.dequeued task, tReqId⟩) hthread ⟨nofun, nofun⟩ ⟨nofun, nofun⟩ rfl ?_
      rfl rfl rfl
    rw [htasks]
    exact Nat.le_succ _
  | block i tReqId hthread hstop hempty => exact hs.block hstop hempty
  | wake i tReqId hthread => exact hs.wake hthread rfl rfl rfl (Nat.le_succ _) rfl
  | begin i tReqId task hthread =>
    exact hs.move (x := ⟨.executing task, task.capturedCtxId⟩) hthread ⟨nofun, nofun⟩
      ⟨nofun, nofun⟩ rfl le_rfl rfl rfl rfl
  | setRequestId i id tReqId task hthread =>
    exact hs.move (x := ⟨.executing task, id⟩) hthread ⟨nofun, nofun⟩ ⟨nofun, nofun⟩ rfl le_rfl
      rfl rfl rfl
  | finish i ending tReqId task hthread =>
    exact hs.move (x := ⟨.finished, tReqId⟩) hthread ⟨nofun, nofun⟩ ⟨nofun, nofun⟩ rfl le_rfl
      rfl rfl rfl
  | clear i tReqId hthread =>
    exact hs.move (x := ⟨.testing, ""⟩) hthread ⟨nofun, nofun⟩ ⟨nofun, nofun⟩ rfl le_rfl rfl rfl
      rfl
  | stop hdestructor =>
    refine ⟨fun th hth hpoint => ⟨rfl, (hs.exited th hth hpoint).2⟩, ?_, ?_, nofun⟩
    · intro th hth hpoint
      exact ⟨(hs.waiting th hth hpoint).1, .inr rfl⟩
    · exact iff_of_true rfl nofun
  | notifyAll hdestructor => exact hs.notifyAll hdestructor
  | join hdestructor hexited =>
    have hstop : s.stop = true := hs.stopped.mpr (by rw [hdestructor]; exact nofun)
    refine ⟨hs.exited, ?_, iff_of_true hstop nofun, fun _ => hexited⟩
    intro th hth hpoint
    exact nomatch (hexited th hth).symm.trans hpoint

-- ---------------------------------------------------------------------------
-- How long it takes
-- ---------------------------------------------------------------------------

/-- Nothing is left to do without a step from outside. -/
def Quiet (s : ThreadPool) : Prop := ∀ a : ThreadAction, a.Internal → s.step a = none

/-- What the threads have before them. -/
def work (s : ThreadPool) : Nat :=
  4 * s.tasks.length + 2 * s.notifies + (s.workers.map PoolThread.weight).sum

theorem weight_setThread {i : Nat} {th x : PoolThread} (hthread : s.workers[i]? = some th) :
    ((s.workers.set i x).map PoolThread.weight).sum + th.weight =
      (s.workers.map PoolThread.weight).sum + x.weight :=
  Parties.sum_set PoolThread.weight hthread

/-- **Step lemma.** A step from inside brings the end nearer. -/
theorem work_step (hinternal : a.Internal) (h : s.step a = some t) : t.work < s.work := by
  cases step_moves h with
  | notifyNobody hnotifies hnobody =>
    show 4 * s.tasks.length + 2 * (s.notifies - 1) + (s.workers.map PoolThread.weight).sum < s.work
    rw [work]
    omega
  | notify i tReqId hnotifies hthread =>
    have hweight : ((s.workers.set i ⟨.testing, tReqId⟩).map PoolThread.weight).sum =
        (s.workers.map PoolThread.weight).sum + 1 := weight_setThread hthread
    show 4 * s.tasks.length + 2 * (s.notifies - 1) +
      ((s.workers.set i ⟨.testing, tReqId⟩).map PoolThread.weight).sum < s.work
    rw [work]
    omega
  | exit i tReqId hthread hstop hempty =>
    have hweight : ((s.workers.set i ⟨.exited, tReqId⟩).map PoolThread.weight).sum + 1 =
        (s.workers.map PoolThread.weight).sum := weight_setThread hthread
    show 4 * s.tasks.length + 2 * s.notifies +
      ((s.workers.set i ⟨.exited, tReqId⟩).map PoolThread.weight).sum < s.work
    rw [work]
    omega
  | dequeue i tReqId task rest hthread htasks =>
    have hweight : _ + 1 = _ + 4 := weight_setThread (x := ⟨.dequeued task, tReqId⟩) hthread
    show 4 * rest.length + 2 * s.notifies +
      ((s.workers.set i ⟨.dequeued task, tReqId⟩).map PoolThread.weight).sum < s.work
    rw [work, htasks, List.length_cons]
    omega
  | block i tReqId hthread hstop hempty =>
    have hweight : ((s.workers.set i ⟨.waiting, tReqId⟩).map PoolThread.weight).sum + 1 =
        (s.workers.map PoolThread.weight).sum := weight_setThread hthread
    show 4 * s.tasks.length + 2 * s.notifies +
      ((s.workers.set i ⟨.waiting, tReqId⟩).map PoolThread.weight).sum < s.work
    rw [work]
    omega
  | begin i tReqId task hthread =>
    have hweight : _ + 4 = _ + 3 :=
      weight_setThread (x := ⟨.executing task, task.capturedCtxId⟩) hthread
    show 4 * s.tasks.length + 2 * s.notifies +
      ((s.workers.set i ⟨.executing task, task.capturedCtxId⟩).map PoolThread.weight).sum < s.work
    rw [work]
    omega
  | finish i ending tReqId task hthread =>
    have hweight : _ + 3 = _ + 2 := weight_setThread (x := ⟨.finished, tReqId⟩) hthread
    show 4 * s.tasks.length + 2 * s.notifies +
      ((s.workers.set i ⟨.finished, tReqId⟩).map PoolThread.weight).sum < s.work
    rw [work]
    omega
  | clear i tReqId hthread =>
    have hweight : _ + 2 = _ + 1 := weight_setThread (x := ⟨.testing, ""⟩) hthread
    show 4 * s.tasks.length + 2 * s.notifies +
      ((s.workers.set i ⟨.testing, ""⟩).map PoolThread.weight).sum < s.work
    rw [work]
    omega
  | refuse caller tReqId hcaller hstop => exact hinternal.elim
  | accept caller tReqId hcaller hstop => exact hinternal.elim
  | wake i tReqId hthread => exact hinternal.elim
  | setRequestId i id tReqId task hthread => exact hinternal.elim
  | stop hdestructor => exact hinternal.elim
  | notifyAll hdestructor => exact hinternal.elim
  | join hdestructor hexited => exact hinternal.elim

/-- The threads come to an end after that many steps. -/
theorem internal_length (hinternal : ∀ a ∈ actions, a.Internal)
    (hrun : run step s actions = some t) : actions.length ≤ s.work := by
  induction actions generalizing s with
  | nil => exact Nat.zero_le _
  | cons a actions ih =>
    obtain ⟨u, hstep, hrest⟩ := run_cons.mp hrun
    have hlt := work_step (hinternal a List.mem_cons_self) hstep
    have hle := ih (fun b hb => hinternal b (List.mem_cons_of_mem a hb)) hrest
    rw [List.length_cons]
    omega

-- ---------------------------------------------------------------------------
-- When it is over
-- ---------------------------------------------------------------------------

/-- In a quiet pool no notification is on its way and every thread sleeps or has
left. -/
theorem Quiet.threads (h : s.Quiet) : s.notifies = 0 ∧
    ∀ th ∈ s.workers, th.point = .waiting ∨ th.point = .exited := by
  constructor
  · by_contra hpending
    have hpos : 0 < s.notifies := Nat.pos_of_ne_zero hpending
    by_cases hsleeper : s.mayWake none = true
    · have hnone := h (.notify none) trivial
      rw [step, if_pos ⟨hpos, hsleeper⟩] at hnone
      cases hnone
    · -- some thread waits, and can be woken
      rw [mayWake, List.all_eq_true] at hsleeper
      simp only [not_forall] at hsleeper
      obtain ⟨th, hth, hpoint⟩ := hsleeper
      obtain ⟨i, hi⟩ := List.mem_iff_getElem?.mp hth
      have hwake : s.mayWake (some i) = true := by
        rw [mayWake, hi, Option.any_some]
        simpa using hpoint
      have hsome := h (.notify (some i)) trivial
      rw [step, if_pos ⟨hpos, hwake⟩] at hsome
      cases hsome
  · rintro ⟨point, tReqId⟩ hth
    obtain ⟨i, hi⟩ := List.mem_iff_getElem?.mp hth
    cases point with
    | waiting => exact .inl rfl
    | exited => exact .inr rfl
    | testing =>
      have hnone := h (.test i) trivial
      rw [step, hi] at hnone
      cases hnone
    | dequeued task =>
      have hnone := h (.begin i) trivial
      rw [step, hi] at hnone
      cases hnone
    | executing task =>
      have hnone := h (.finish i .value) trivial
      rw [step, hi] at hnone
      cases hnone
    | finished =>
      have hnone := h (.clear i) trivial
      rw [step, hi] at hnone
      cases hnone

/-- Every accepted callable was started once, under the request id of its caller,
and has ended. -/
def AllRun (s : ThreadPool) : Prop := ∀ call ∈ s.accepted, call ∈ s.started ∧
  (s.started.map Prod.fst).count call.1 = 1 ∧ (s.ended.map Prod.fst).count call.1 = 1

theorem Accounted.nodup (hs : s.Accounted) : (s.accepted.map Prod.fst).Nodup := by
  rw [hs.numbered]
  exact List.nodup_range

/-- An empty queue and idle threads leave nothing. -/
theorem Accounted.allRun (hs : s.Accounted) (htasks : s.tasks = [])
    (hidle : ∀ th ∈ s.workers, th.point = .waiting ∨ th.point = .exited) : s.AllRun := by
  have hhand : s.workers.filterMap PoolThread.inHand? = [] := by
    rw [List.filterMap_eq_nil_iff]
    rintro ⟨point, tReqId⟩ hth
    rcases hidle _ hth with rfl | rfl <;> rfl
  have hrunning : s.workers.filterMap PoolThread.running? = [] := by
    rw [List.filterMap_eq_nil_iff]
    rintro ⟨point, tReqId⟩ hth
    rcases hidle _ hth with rfl | rfl <;> rfl
  have hfifo := hs.fifo
  have htaken := hs.taken
  have hstarted := hs.started
  rw [htasks, List.map_nil, List.append_nil] at hfifo
  rw [hhand, List.nil_append, ← hfifo] at htaken
  rw [hrunning, List.nil_append] at hstarted
  intro call hcall
  have hid : call.1 ∈ s.accepted.map Prod.fst := List.mem_map_of_mem hcall
  have hone : (s.started.map Prod.fst).count call.1 = 1 := by
    rw [← (htaken.map Prod.fst).count_eq]
    exact List.count_eq_one_of_mem hs.nodup hid
  exact ⟨htaken.mem_iff.mp hcall, hone, (hstarted.count_eq _).symm.trans hone⟩

theorem length_step (h : s.step a = some t) : t.workers.length = s.workers.length := by
  cases step_moves h with
  | refuse caller tReqId hcaller hstop => rfl
  | accept caller tReqId hcaller hstop => rfl
  | notifyNobody hnotifies hnobody => rfl
  | notify i tReqId hnotifies hthread => exact List.length_set
  | exit i tReqId hthread hstop hempty => exact List.length_set
  | dequeue i tReqId task rest hthread htasks => exact List.length_set
  | block i tReqId hthread hstop hempty => exact List.length_set
  | wake i tReqId hthread => exact List.length_set
  | begin i tReqId task hthread => exact List.length_set
  | setRequestId i id tReqId task hthread => exact List.length_set
  | finish i ending tReqId task hthread => exact List.length_set
  | clear i tReqId hthread => exact List.length_set
  | stop hdestructor => rfl
  | notifyAll hdestructor => exact List.length_map _
  | join hdestructor hexited => rfl

/-- The queue of a quiet pool is empty. -/
theorem Quiet.tasks (h : s.Quiet) (hs : s.Awake) (hthreads : 0 < s.workers.length) :
    s.tasks = [] := by
  obtain ⟨hnotifies, hidle⟩ := h.threads
  have hactive : s.active = 0 := by
    rw [active, List.countP_eq_zero]
    intro th hth hactive
    obtain ⟨hwait, hexit⟩ := of_decide_eq_true hactive
    exact (hidle th hth).elim hwait hexit
  obtain ⟨th, hth⟩ := List.exists_mem_of_length_pos hthreads
  rcases hidle th hth with hpoint | hpoint
  · have hle := (hs.waiting th hth hpoint).1
    rw [hactive, hnotifies] at hle
    exact List.length_eq_zero_iff.mp (Nat.le_zero.mp hle)
  · exact (hs.exited th hth hpoint).2

/-- What the pool promises in a state. -/
structure RunsOnce (s : ThreadPool) : Prop where
  /-- the callables are taken in the order of their `enqueue` -/
  inOrder : s.taken <+: s.accepted
  once : ∀ n, (s.started.map Prod.fst).count n ≤ 1
  /-- each is started under the request id its caller had -/
  context : ∀ run ∈ s.started, run ∈ s.accepted
  /-- left to themselves the threads come to an end -/
  bounded : ∀ more t, (∀ a ∈ more, ThreadAction.Internal a) → run step s more = some t →
    more.length ≤ s.work
  /-- and at that end everything has run, and the threads can be joined -/
  settled : s.Quiet → s.AllRun
  joined : s.Quiet → s.destructor = .joining → ∃ t, s.step .join = some t
  /-- so it has when the destructor returns -/
  drained : s.destructor = .returned → s.AllRun
  refused : s.stop = true → ∀ caller tReqId, s.reqIdOf caller = some tReqId →
    s.enqueue tReqId = .error "enqueue on stopped ThreadPool" ∧
      s.step (.enqueue caller) = some s

theorem eq_of_mem_construct {threads : Nat} {th : PoolThread}
    (hth : th ∈ (construct threads).workers) : th = {} :=
  List.eq_of_mem_replicate hth

theorem accounted_construct (threads : Nat) : (construct threads).Accounted := by
  have hnone : ∀ {β : Type} (f : PoolThread → Option β), f {} = none →
      (construct threads).workers.filterMap f = [] := by
    intro β f hf
    rw [List.filterMap_eq_nil_iff]
    intro th hth
    rw [eq_of_mem_construct hth, hf]
  refine ⟨rfl, rfl, ?_, ?_⟩
  · rw [hnone PoolThread.inHand? rfl]
    exact List.Perm.refl _
  · rw [hnone PoolThread.running? rfl]
    exact List.Perm.refl _

theorem awake_construct (threads : Nat) : (construct threads).Awake := by
  refine ⟨?_, ?_, iff_of_false nofun fun h => h rfl, nofun⟩
  · intro th hth hpoint
    rw [eq_of_mem_construct hth] at hpoint
    exact nomatch hpoint
  · intro th hth hpoint
    rw [eq_of_mem_construct hth] at hpoint
    exact nomatch hpoint

/-- No callable is started twice. -/
theorem Accounted.startedOnce (h : s.Accounted) (n : Nat) :
    (s.started.map Prod.fst).count n ≤ 1 := by
  have hfront : s.taken <+: s.accepted := ⟨_, h.fifo.symm⟩
  have htaken : (s.taken.map Prod.fst).Nodup := (hfront.sublist.map Prod.fst).nodup h.nodup
  have hperm := (h.taken.map Prod.fst).nodup_iff.mp htaken
  rw [List.map_append] at hperm
  exact List.nodup_iff_count_le_one.mp hperm.of_append_right n

/-- Once the destructor joins, threads that are quiet have left. -/
theorem Awake.allExited (h : s.Awake) (hquiet : s.Quiet) (hjoining : s.destructor = .joining) :
    ∀ th ∈ s.workers, th.point = .exited := by
  intro th hth
  refine (hquiet.threads.2 th hth).resolve_left fun hpoint => ?_
  rcases (h.waiting th hth hpoint).2 with hbefore | hbefore
  · exact nomatch hbefore.symm.trans hjoining
  · exact nomatch hbefore.symm.trans hjoining

theorem enqueue_refused (hstop : s.stop = true) {caller : Caller} {tReqId : String}
    (hcaller : s.reqIdOf caller = some tReqId) :
    s.enqueue tReqId = .error "enqueue on stopped ThreadPool" ∧
      s.step (.enqueue caller) = some s := by
  have hrefused : s.enqueue tReqId = .error "enqueue on stopped ThreadPool" := by
    rw [enqueue, if_pos hstop]
  refine ⟨hrefused, ?_⟩
  rw [step, hcaller]
  dsimp only
  rw [hrefused]

/-- **The thread pool runs every callable once.** In every state that a pool of at
least one thread can reach. -/
theorem pool_runs_once {threads : Nat} (hthreads : 0 < threads)
    (hrun : run step (construct threads) actions = some s) : s.RunsOnce := by
  have haccounted : s.Accounted :=
    run_invariant (P := Accounted) (fun u b v hu hstep => accounted_step hu hstep) hrun
      (accounted_construct threads)
  have hawake : s.Awake :=
    run_invariant (P := Awake) (fun u b v hu hstep => awake_step hu hstep) hrun
      (awake_construct threads)
  have hlength : 0 < s.workers.length :=
    run_invariant (P := fun u => 0 < u.workers.length)
      (fun u b v hu hstep => (length_step hstep).symm ▸ hu) hrun
      (by rw [construct, List.length_replicate]; exact hthreads)
  have hstart : s.taken <+: s.accepted := ⟨_, haccounted.fifo.symm⟩
  refine ⟨hstart, haccounted.startedOnce, ?_,
    fun more t hinternal hmore => internal_length hinternal hmore, ?_, ?_, ?_,
    fun hstop caller tReqId hcaller => enqueue_refused hstop hcaller⟩
  · intro run hmem
    exact hstart.subset (haccounted.taken.mem_iff.mpr (List.mem_append_right _ hmem))
  · intro hquiet
    exact haccounted.allRun (hquiet.tasks hawake hlength) hquiet.threads.2
  · intro hquiet hjoining
    exact ⟨_, if_pos ⟨hjoining, hawake.allExited hquiet hjoining⟩⟩
  · intro hreturned
    have hexited := hawake.returned hreturned
    obtain ⟨th, hth⟩ := List.exists_mem_of_length_pos hlength
    exact haccounted.allRun (hawake.exited th hth (hexited th hth)).2
      fun th hth => .inr (hexited th hth)

/-- One thread, two callables of which the first throws, and a destructor that finds
the second in the queue. -/
def drainedShutdown : List ThreadAction :=
  [.enqueue (.outside "req-1"), .notify none, .test 0, .begin 0, .enqueue (.inside 0), .stop,
    .notifyAll, .finish 0 .exception, .clear 0, .notify none, .test 0, .begin 0, .finish 0 .value,
    .clear 0, .test 0, .join]

/-- A shutdown. -/
theorem pool_runs_once_shutdown : ∃ s, run step (construct 1) drainedShutdown = some s ∧
    s.destructor = .returned ∧ s.RunsOnce := by
  have hend : ((run step (construct 1) drainedShutdown).any fun s =>
      s.destructor = .returned) = true := by
    decide
  obtain ⟨s, hrun, hreturned⟩ := (Option.any_eq_true _ _).mp hend
  exact ⟨s, hrun, of_decide_eq_true hreturned, pool_runs_once Nat.one_pos hrun⟩

end ThreadPool

end DistTaskSystem
