import DistTaskSystem.ApiServer.FlusherLoop
import DistTaskSystem.Guarantees.Submission
import DistTaskSystem.Library.Runs
import Mathlib.Algebra.BigOperators.Fin
import Mathlib.Algebra.BigOperators.Group.Finset.Piecewise
import Mathlib.Algebra.Order.Group.Multiset
import Mathlib.Data.Fintype.BigOperators
import Mathlib.Tactic.Abel

/-!
# DTS — what the submission queue keeps and what it loses

What holds of `TaskSubmitter` over every interleaving of its clients, its
flusher threads and its destructor. An accepted item is in one place at any
time: the queue, the batch of one thread, or one batch passed to
`ProcessBatch`. When the destructor returns the threads are gone, so an item
is lost exactly if it is still in the queue then, and that is decided when the
destructor clears `running_`: the loop condition tests the flag before the
critical section looks at the queue, so only a thread that is already past the
condition still takes the queue.

## Results

* `Placed.step`          — the invariant, kept by every action.
* `queue_left_iff`       — when the queue is left behind.
* `submission_queue_iff` — when the queue keeps its promise.
-/

namespace DistTaskSystem

namespace TaskSubmitter

open Runs

variable {s t : TaskSubmitter} {a : SubmitterAction} {actions : List SubmitterAction}
  {i : Fin consumerThreadNum}

-- ---------------------------------------------------------------------------
-- Where the items are
-- ---------------------------------------------------------------------------

/-- The items the threads have taken and not yet passed on. -/
def inHand (s : TaskSubmitter) : Multiset BatchItem :=
  ∑ i, ((s.flusherThreads i).currentBatch : Multiset BatchItem)

/-- Giving a thread another batch replaces its share. -/
theorem inHand_setThread (s : TaskSubmitter) (i : Fin consumerThreadNum) (th : Flusher) :
    (s.setThread i th).inHand + ((s.flusherThreads i).currentBatch : Multiset BatchItem) =
      s.inHand + (th.currentBatch : Multiset BatchItem) := by
  have hnew : (s.setThread i th).inHand = (th.currentBatch : Multiset BatchItem) +
      ∑ j ∈ Finset.univ.erase i, ((s.flusherThreads j).currentBatch : Multiset BatchItem) := by
    rw [inHand, ← Finset.add_sum_erase _ _ (Finset.mem_univ i)]
    congr 1
    · show ((Function.update s.flusherThreads i th i).currentBatch : Multiset BatchItem) = _
      rw [Function.update_self]
    · refine Finset.sum_congr rfl fun j hj => ?_
      show ((Function.update s.flusherThreads i th j).currentBatch : Multiset BatchItem) = _
      rw [Function.update_of_ne (Finset.ne_of_mem_erase hj)]
  have hold : s.inHand = ((s.flusherThreads i).currentBatch : Multiset BatchItem) +
      ∑ j ∈ Finset.univ.erase i, ((s.flusherThreads j).currentBatch : Multiset BatchItem) :=
    (Finset.add_sum_erase _ _ (Finset.mem_univ i)).symm
  rw [hnew, hold]
  abel

/-- A thread that keeps its batch keeps its share. -/
theorem inHand_move (s : TaskSubmitter) (i : Fin consumerThreadNum) (p : FlusherPoint) :
    (s.setThread i { s.flusherThreads i with point := p }).inHand = s.inHand :=
  add_right_cancel (inHand_setThread s i { s.flusherThreads i with point := p })

/-- The items are where the code says. -/
structure Placed (s : TaskSubmitter) : Prop where
  once : (s.accepted : Multiset BatchItem) = s.processed.flatten + s.inHand + s.pendingQueue
  queue : s.pendingQueue <:+ s.accepted
  order : ∀ batch ∈ s.processed, batch <:+: s.accepted
  hand : ∀ i, (s.flusherThreads i).currentBatch <:+: s.accepted
  idle : ∀ i, (s.flusherThreads i).point ≠ .processing → (s.flusherThreads i).currentBatch = []
  room : s.pendingQueue.length ≤ maxQueueSize

theorem placed_started : Placed {} where
  once := by simp [inHand]
  queue := List.suffix_refl []
  order := by simp
  hand _ := List.nil_infix
  idle _ _ := rfl
  room := Nat.zero_le _

/-- A statement about every thread survives a change of one thread. -/
theorem forall_setThread {P : Flusher → Prop} {th : Flusher} (hth : P th)
    (h : ∀ j, P (s.flusherThreads j)) (j : Fin consumerThreadNum) :
    P ((s.setThread i th).flusherThreads j) := by
  show P (Function.update s.flusherThreads i th j)
  by_cases hj : j = i
  · rw [hj, Function.update_self]
    exact hth
  · rw [Function.update_of_ne hj]
    exact h j

/-- A thread with an empty batch goes to another point. -/
theorem Placed.move (h : Placed s) {p : FlusherPoint}
    (hbatch : (s.flusherThreads i).currentBatch = []) :
    Placed (s.setThread i { s.flusherThreads i with point := p }) where
  once := by
    rw [inHand_move]
    exact h.once
  queue := h.queue
  order := h.order
  hand := forall_setThread (P := fun th => th.currentBatch <:+: s.accepted) (h.hand i) h.hand
  idle := forall_setThread (P := fun th => th.point ≠ .processing → th.currentBatch = [])
    (fun _ => hbatch) h.idle
  room := h.room

/-- **Step lemma.** Every action keeps the invariant. -/
theorem Placed.step (h : Placed s) (hstep : s.step a = some t) : Placed t := by
  cases step_moves hstep with
  | refuse sub hrunning hfull => exact h
  | accept sub hrunning hroom =>
    have hpre : s.accepted <+: s.accepted ++ [sub.item] := List.prefix_append _ _
    refine ⟨?_, ?_, fun batch hmem => (h.order batch hmem).trans hpre.isInfix,
      fun j => (h.hand j).trans hpre.isInfix, h.idle, ?_⟩
    · show ((s.accepted ++ [sub.item] : List BatchItem) : Multiset BatchItem) =
        s.processed.flatten + s.inHand + (s.pendingQueue ++ [sub.item] : List BatchItem)
      rw [← Multiset.coe_add, ← Multiset.coe_add, h.once, add_assoc]
    · obtain ⟨before, hbefore⟩ := h.queue
      exact ⟨before, by rw [← hbefore, List.append_assoc]⟩
    · show (s.pendingQueue ++ [sub.item]).length ≤ maxQueueSize
      rw [List.length_append, List.length_singleton]
      omega
  | goOn i hpoint hrunning | leave i hpoint hrunning | quit i timedOut hpoint hqueue hrunning
  | idle i timedOut hpoint hqueue hrunning =>
    exact h.move (h.idle i (by rw [hpoint]; decide))
  | swap i timedOut hpoint hqueue =>
    -- the vector swapped in is the empty one of a waiting thread
    have hbatch : (s.flusherThreads i).currentBatch = [] := h.idle i (by rw [hpoint]; decide)
    have hinHand := inHand_setThread s i ⟨.processing, s.pendingQueue⟩
    rw [hbatch, Multiset.coe_nil, add_zero] at hinHand
    refine ⟨?_, ?_, h.order, ?_, ?_, ?_⟩
    · show (s.accepted : Multiset BatchItem) = s.processed.flatten +
        (s.setThread i ⟨.processing, s.pendingQueue⟩).inHand + (s.flusherThreads i).currentBatch
      rw [hinHand, hbatch, Multiset.coe_nil, add_zero, h.once, add_assoc]
    · show (s.flusherThreads i).currentBatch <:+ s.accepted
      rw [hbatch]
      exact List.nil_suffix
    · exact forall_setThread (P := fun th => th.currentBatch <:+: s.accepted) h.queue.isInfix h.hand
    · exact forall_setThread (P := fun th => th.point ≠ .processing → th.currentBatch = [])
        (fun hne => absurd rfl hne) h.idle
    · show (s.flusherThreads i).currentBatch.length ≤ maxQueueSize
      rw [hbatch]
      exact Nat.zero_le _
  | skip i hpoint hbatch => exact h.move hbatch
  | process i hpoint hbatch =>
    have hinHand := inHand_setThread s i ⟨.test, []⟩
    rw [Multiset.coe_nil, add_zero] at hinHand
    refine ⟨?_, h.queue, ?_, ?_, ?_, h.room⟩
    · show (s.accepted : Multiset BatchItem) =
        (s.processed ++ [(s.flusherThreads i).currentBatch]).flatten +
          (s.setThread i ⟨.test, []⟩).inHand + s.pendingQueue
      rw [List.flatten_append, List.flatten_singleton, ← Multiset.coe_add, h.once, ← hinHand]
      abel
    · intro batch hmem
      rcases List.mem_append.mp hmem with hold | hnew
      · exact h.order batch hold
      · obtain rfl := List.mem_singleton.mp hnew
        exact h.hand i
    · exact forall_setThread (P := fun th => th.currentBatch <:+: s.accepted) List.nil_infix h.hand
    · exact forall_setThread (P := fun th => th.point ≠ .processing → th.currentBatch = [])
        (fun _ => rfl) h.idle
  | shutdown hrunning => exact ⟨h.once, h.queue, h.order, h.hand, h.idle, h.room⟩
  | join hrunning hpoints => exact ⟨h.once, h.queue, h.order, h.hand, h.idle, h.room⟩

theorem placed_run (hrun : run step {} actions = some s) : Placed s :=
  run_invariant (fun _ _ _ h hstep => h.step hstep) hrun placed_started

/-- Once the threads are gone, what was not passed on is in the queue. -/
theorem Placed.kept_iff (h : Placed s) (hexit : ∀ i, (s.flusherThreads i).point = .exited) :
    s.processed.flatten.Perm s.accepted ↔ s.pendingQueue = [] := by
  have hhand : s.inHand = 0 := by
    refine Finset.sum_eq_zero fun i _ => ?_
    rw [h.idle i (by rw [hexit i]; decide), Multiset.coe_nil]
  have honce := h.once
  rw [hhand, add_zero] at honce
  rw [← Multiset.coe_eq_coe, honce, left_eq_add, Multiset.coe_eq_zero]

-- ---------------------------------------------------------------------------
-- The destructor
-- ---------------------------------------------------------------------------

/-- The destructor returns after the threads. -/
def Joined (s : TaskSubmitter) : Prop :=
  s.destroyed = true → ∀ i, (s.flusherThreads i).point = .exited

theorem Joined.step (h : Joined s) (hstep : s.step a = some t) : Joined t := by
  -- an exited thread is at none of the points an action starts from
  have hstay : ∀ i p, (s.flusherThreads i).point = p → p ≠ .exited → s.destroyed = false := by
    intro i p hp hne
    by_contra hdone
    exact hne (hp.symm.trans (h (by simpa using hdone) i))
  cases step_moves hstep with
  | refuse sub hrunning hfull => exact h
  | accept sub hrunning hroom => exact h
  | goOn i hpoint hrunning | leave i hpoint hrunning | quit i timedOut hpoint hqueue hrunning
  | idle i timedOut hpoint hqueue hrunning | swap i timedOut hpoint hqueue
  | skip i hpoint hbatch | process i hpoint hbatch =>
    intro hdone
    exact nomatch (hstay i _ hpoint (by decide)).symm.trans hdone
  | shutdown hrunning => exact h
  | join hrunning hpoints => exact fun _ => hpoints

/-- Someone will still look at the queue. -/
def Taken (s : TaskSubmitter) : Prop :=
  s.pendingQueue = [] ∨ ∃ i, (s.flusherThreads i).point = .waiting

/-- **Step lemma for the shutdown.** Once `running_` is cleared, no action changes
whether the queue will be taken. -/
theorem taken_step (h : Placed s) (hrunning : s.running = false) (hstep : s.step a = some t) :
    t.running = false ∧ (Taken t ↔ Taken s) := by
  -- another thread's wait does not end by a change of this thread
  have hother : ∀ (i : Fin consumerThreadNum) (th : Flusher),
      (s.flusherThreads i).point ≠ .waiting → th.point ≠ .waiting →
      ((∃ j, ((s.setThread i th).flusherThreads j).point = .waiting) ↔
        ∃ j, (s.flusherThreads j).point = .waiting) := by
    intro i th hi hth
    refine exists_congr fun j => ?_
    show (Function.update s.flusherThreads i th j).point = .waiting ↔ _
    by_cases hj : j = i
    · rw [hj, Function.update_self]
      exact iff_of_false hth hi
    · rw [Function.update_of_ne hj]
  cases step_moves hstep with
  | refuse sub hrun hfull => exact nomatch hrunning.symm.trans hrun
  | accept sub hrun hroom => exact nomatch hrunning.symm.trans hrun
  | goOn i hpoint hrun => exact nomatch hrunning.symm.trans hrun
  | idle i timedOut hpoint hqueue hrun => exact nomatch hrunning.symm.trans hrun
  | shutdown hrun => exact nomatch hrunning.symm.trans hrun
  | leave i hpoint hrun =>
    refine ⟨hrunning, or_congr_right (hother i _ ?_ ?_)⟩
    · rw [hpoint]
      decide
    · show FlusherPoint.exited ≠ .waiting
      decide
  | quit i timedOut hpoint hqueue hrun =>
    exact ⟨hrunning, iff_of_true (Or.inl hqueue) (Or.inl hqueue)⟩
  | swap i timedOut hpoint hqueue =>
    have hbatch : (s.flusherThreads i).currentBatch = [] := h.idle i (by rw [hpoint]; decide)
    exact ⟨hrunning, iff_of_true (Or.inl hbatch) (Or.inr ⟨i, hpoint⟩)⟩
  | skip i hpoint hbatch =>
    refine ⟨hrunning, or_congr_right (hother i _ ?_ ?_)⟩
    · rw [hpoint]
      decide
    · show FlusherPoint.test ≠ .waiting
      decide
  | process i hpoint hbatch =>
    refine ⟨hrunning, or_congr_right (hother i _ ?_ ?_)⟩
    · rw [hpoint]
      decide
    · show FlusherPoint.test ≠ .waiting
      decide
  | join hrun hpoints => exact ⟨hrunning, Iff.rfl⟩

theorem taken_run (h : Placed s) (hrunning : s.running = false)
    (hrun : run step s actions = some t) : Taken t ↔ Taken s := by
  induction actions generalizing s with
  | nil =>
    obtain rfl := Option.some.inj hrun
    exact Iff.rfl
  | cons a actions ih =>
    obtain ⟨m, hm, hrest⟩ := run_cons.mp hrun
    obtain ⟨hstopped, hiff⟩ := taken_step h hrunning hm
    exact (ih (h.step hm) hstopped hrest).trans hiff

/-- **When the queue is left behind**: the destructor finds it empty in the end
exactly if it was empty when `running_` was cleared, or a thread was on its way to
it. -/
theorem queue_left_iff {m : TaskSubmitter} (h : Placed s) (hjoined : Joined s)
    (hstep : s.step .shutdown = some m)
    (hrun : run step m actions = some t) (hdone : t.destroyed = true) :
    t.pendingQueue = [] ↔ Taken s := by
  have hm := h.step hstep
  have hjoinedt : Joined t :=
    run_invariant (fun _ _ _ h hstep => Joined.step h hstep) hrun (Joined.step hjoined hstep)
  have hexit := hjoinedt hdone
  have hgone : Taken t ↔ t.pendingQueue = [] := by
    refine or_iff_left ?_
    rintro ⟨i, hi⟩
    exact nomatch (hexit i).symm.trans hi
  cases step_moves hstep with
  | shutdown hrunning =>
    exact hgone.symm.trans (taken_run (s := { s with running := false }) hm rfl hrun)

-- ---------------------------------------------------------------------------
-- The promise
-- ---------------------------------------------------------------------------

/-- What the queue promises of a run that ends in `t`. -/
structure QueueKept (actions : List SubmitterAction) (t : TaskSubmitter) : Prop where
  /-- every accepted item is in exactly one batch passed to `ProcessBatch` -/
  once : t.processed.flatten.Perm t.accepted
  /-- a batch is a piece of the accepted items in their order -/
  order : ∀ batch ∈ t.processed, batch <:+: t.accepted
  bounded : ∀ before s, before <+: actions → run step {} before = some s →
    s.pendingQueue.length ≤ maxQueueSize
  /-- a submission that throws leaves the queue alone -/
  refused : ∀ before sub s u e, before ++ [.submit sub] <+: actions →
    run step {} before = some s → submitDagAsync sub s.pendingQueue = .error e →
    s.step (.submit sub) = some u → u.pendingQueue = s.pendingQueue

/-- A refused submission changes nothing at all. -/
theorem step_refused {sub : Submission} {e : String}
    (hthrow : submitDagAsync sub s.pendingQueue = .error e)
    (hstep : s.step (.submit sub) = some t) : t = s := by
  rw [step, Option.ite_none_right_eq_some] at hstep
  obtain ⟨-, heq⟩ := hstep
  rw [submit, hthrow] at heq
  exact (Option.some.inj heq).symm

/-- **When the submission queue keeps its promise**: exactly if the queue is empty
when the destructor clears `running_`, or a thread has read `running_` before and
has not yet left the critical section. -/
theorem submission_queue_iff (before after : List SubmitterAction) (s t : TaskSubmitter)
    (hbefore : run step {} before = some s) (hrun : run step s (.shutdown :: after) = some t)
    (hdone : t.destroyed = true) :
    QueueKept (before ++ .shutdown :: after) t ↔
      s.pendingQueue = [] ∨ ∃ i, (s.flusherThreads i).point = .waiting := by
  have hs := placed_run hbefore
  have ht : Placed t := placed_run (run_append.mpr ⟨s, hbefore, hrun⟩)
  have hjoined : Joined s :=
    run_invariant (fun _ _ _ h hstep => Joined.step h hstep) hbefore fun h => nomatch h
  obtain ⟨m, hshut, hafter⟩ := run_cons.mp hrun
  have hexit : ∀ i, (t.flusherThreads i).point = .exited := by
    have hjoinedt : Joined t :=
      run_invariant (fun _ _ _ h hstep => Joined.step h hstep) hrun hjoined
    exact hjoinedt hdone
  have hleft := queue_left_iff hs hjoined hshut hafter hdone
  constructor
  · intro hkept
    exact hleft.mp ((ht.kept_iff hexit).mp hkept.once)
  · intro htaken
    refine ⟨(ht.kept_iff hexit).mpr (hleft.mpr htaken), ht.order, ?_, ?_⟩
    · intro _ u _ hu
      exact (placed_run hu).room
    · intro _ sub u v e _ _ hthrow hstep
      rw [step_refused hthrow hstep]

def firstThread : Fin consumerThreadNum := ⟨0, by decide⟩

/-- Every thread finds the queue empty once. -/
def idleRound : List SubmitterAction :=
  (List.finRange consumerThreadNum).flatMap fun i => [.test i, .wake i true]

/-- Every thread leaves the loop and is joined. -/
def joinAll : List SubmitterAction := (List.finRange consumerThreadNum).map .test ++ [.join]

/-- A thread waits for the queue when `running_` is cleared. -/
theorem submission_queue_iff_waiting :
    ∃ t, run step {} ([.submit (lone "k" jobX taskA), .test firstThread] ++
        .shutdown :: ([.wake firstThread false, .process firstThread] ++ joinAll)) = some t ∧
      t.processed.flatten.Perm t.accepted := by
  obtain ⟨s, hs⟩ : ∃ s, run step {} [.submit (lone "k" jobX taskA), .test firstThread] = some s :=
    ⟨_, rfl⟩
  obtain ⟨t, ht⟩ : ∃ t, run step s
      (.shutdown :: ([.wake firstThread false, .process firstThread] ++ joinAll)) = some t := by
    obtain rfl := Option.some.inj hs
    exact ⟨_, rfl⟩
  have hwaits : (s.flusherThreads firstThread).point = .waiting := by
    rw [← Option.some.inj hs]
    rfl
  have hdone : t.destroyed = true := by
    rw [← Option.some.inj hs] at ht
    rw [← Option.some.inj ht]
  exact ⟨t, run_append.mpr ⟨s, hs, ht⟩,
    ((submission_queue_iff _ _ s t hs ht hdone).mpr (.inr ⟨firstThread, hwaits⟩)).once⟩

/-- **An accepted item is dropped**: it arrives when every thread is between two
waits, and each of them leaves at its loop condition. -/
theorem shutdown_drops_item :
    ∃ t, run step {} (idleRound ++ [.submit (lone "k" jobX taskA)] ++ .shutdown :: joinAll) =
        some t ∧
      t.destroyed = true ∧
      ¬ QueueKept (idleRound ++ [.submit (lone "k" jobX taskA)] ++ .shutdown :: joinAll) t := by
  obtain ⟨t, ht⟩ : ∃ t, run step {}
      (idleRound ++ [.submit (lone "k" jobX taskA)] ++ .shutdown :: joinAll) = some t := ⟨_, rfl⟩
  have hdone : t.destroyed = true := by
    rw [← Option.some.inj ht]
  have haccepted : t.accepted.length = 1 := by
    rw [← Option.some.inj ht]
    rfl
  have hprocessed : t.processed.flatten.length = 0 := by
    rw [← Option.some.inj ht]
    rfl
  refine ⟨t, ht, hdone, fun hkept => ?_⟩
  have hlength := hkept.once.length_eq
  omega

end TaskSubmitter

end DistTaskSystem
