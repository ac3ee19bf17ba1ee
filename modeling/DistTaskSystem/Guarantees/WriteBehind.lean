import DistTaskSystem.Guarantees.DagEngine
import DistTaskSystem.Scheduler.DbBatcher

/-!
# DTS — what the batcher keeps and what it loses

What holds of `DbBatcher` over every interleaving of its callers and its flush
thread. Nothing is lost between the queue and `FlushBatch`: the batches passed
on, the batch being filled and the queue are together the updates enqueued, in
their order, so the thread has passed everything on when `Stop` returns.
`FlushBatch` itself drops the batch of a transaction that fails.

## Results

* `Coherent.step`          — the invariant of the loop, kept by every action.
* `batcher_drains`         — what `Stop` finds when it returns.
* `stop_returns`           — the thread comes to its end after `Stop`.
* `batcher_conserves_iff`  — a run keeps every valid update exactly if no flush
  that fails carries one.
-/

namespace DistTaskSystem

namespace DbBatcher

open Runs

variable {jsonbIn : String → Option String} {db : Db} {s t : DbBatcher} {a : BatcherAction}
  {actions : List BatcherAction}

-- ---------------------------------------------------------------------------
-- The invariant of the loop
-- ---------------------------------------------------------------------------

/-- The updates are where the loop says. -/
structure Coherent (s : DbBatcher) : Prop where
  order : s.flushed.flatten ++ s.batch ++ s.queue = s.enqueued
  sizes : ∀ batch ∈ s.flushed, batch ≠ [] ∧ batch.length ≤ kBatchSize
  room : s.batch.length ≤ kBatchSize
  idle : s.point ≠ .flushing → s.batch = []
  stopping : s.point = .testQueue ∨ s.point = .exited → s.stopFlag = true
  committed : s.committed.Sublist s.flushed.flatten

theorem coherent_started (db : Db) : Coherent (started db) where
  order := rfl
  sizes := by simp [started]
  room := Nat.zero_le _
  idle _ := rfl
  stopping h := by rcases h with h | h <;> cases h
  committed := List.Sublist.refl []

/-- A thread outside `FlushBatch` that moves without touching the lists. -/
theorem Coherent.move (h : Coherent s) (hpoint : s.point ≠ .flushing) {p : LoopPoint}
    (hp : p = .testQueue ∨ p = .exited → s.stopFlag = true) : Coherent { s with point := p } where
  order := h.order
  sizes := h.sizes
  room := h.room
  idle _ := h.idle hpoint
  stopping := hp
  committed := h.committed

/-- A thread that stays in the loop with its flag test still to come. -/
theorem Coherent.moveOn (h : Coherent s) (hpoint : s.point ≠ .flushing) {p : LoopPoint}
    (hp : p = .testStop ∨ p = .waiting) : Coherent { s with point := p } := by
  refine h.move hpoint fun hout => ?_
  rcases hp with rfl | rfl <;> rcases hout with hout | hout <;> cases hout

/-- **Step lemma.** Every action keeps the invariant. -/
theorem Coherent.step (h : Coherent s) (hstep : s.step jsonbIn a = some t) : Coherent t := by
  cases step_moves hstep with
  | add op =>
    refine ⟨?_, h.sizes, h.room, h.idle, h.stopping, h.committed⟩
    show s.flushed.flatten ++ s.batch ++ (s.queue ++ [op]) = s.enqueued ++ [op]
    rw [← List.append_assoc, h.order]
  | stop => exact ⟨h.order, h.sizes, h.room, h.idle, fun _ => rfl, h.committed⟩
  | goOn hpoint hstop => exact h.moveOn (by rw [hpoint]; decide) (Or.inr rfl)
  | askQueue hpoint hstop => exact h.move (by rw [hpoint]; decide) (fun _ => hstop)
  | leave hpoint hqueue =>
    exact h.move (by rw [hpoint]; decide) (fun _ => h.stopping (Or.inl hpoint))
  | drain hpoint hqueue => exact h.moveOn (by rw [hpoint]; decide) (Or.inr rfl)
  | idle timedOut hpoint hqueue hstop => exact h.moveOn (by rw [hpoint]; decide) (Or.inl rfl)
  | quit timedOut hpoint hqueue hstop => exact h.move (by rw [hpoint]; decide) (fun _ => hstop)
  | fill timedOut hpoint hqueue =>
    have hbatch : s.batch = [] := h.idle (by rw [hpoint]; decide)
    refine ⟨?_, h.sizes, ?_, fun hne => absurd rfl hne, (by rintro (hp | hp) <;> cases hp),
      h.committed⟩
    · show s.flushed.flatten ++ (s.batch ++ s.queue.take (kBatchSize - s.batch.length)) ++
        s.queue.drop (kBatchSize - s.batch.length) = s.enqueued
      rw [← h.order, ← List.append_assoc, List.append_assoc _ (s.queue.take _),
        List.take_append_drop]
    · show (s.batch ++ s.queue.take (kBatchSize - s.batch.length)).length ≤ kBatchSize
      rw [hbatch, List.nil_append, List.length_take]
      exact min_le_left _ _
  | skip env hpoint hbatch =>
    exact ⟨h.order, h.sizes, h.room, fun _ => hbatch, (by rintro (hp | hp) <;> cases hp),
      h.committed⟩
  | flush env hpoint hbatch =>
    refine ⟨?_, ?_, Nat.zero_le _, fun _ => rfl, (by rintro (hp | hp) <;> cases hp), ?_⟩
    · show (s.flushed ++ [s.batch]).flatten ++ [] ++ s.queue = s.enqueued
      rw [List.flatten_append, List.flatten_singleton, List.append_nil]
      exact h.order
    · intro batch hmem
      rcases List.mem_append.mp hmem with hold | hnew
      · exact h.sizes batch hold
      · obtain rfl := List.mem_singleton.mp hnew
        exact ⟨hbatch, h.room⟩
    · show (if env.Commits jsonbIn s.batch then s.committed ++ s.batch else s.committed).Sublist
        (s.flushed ++ [s.batch]).flatten
      rw [List.flatten_append, List.flatten_singleton]
      split
      · exact h.committed.append (List.Sublist.refl _)
      · exact h.committed.trans (List.sublist_append_left _ _)
  | join hstop hpoint => exact ⟨h.order, h.sizes, h.room, h.idle, h.stopping, h.committed⟩

theorem coherent_run (hrun : run (step jsonbIn) (started db) actions = some s) : Coherent s :=
  run_invariant (fun _ _ _ h hstep => h.step hstep) hrun (coherent_started db)

-- ---------------------------------------------------------------------------
-- The updates of a run
-- ---------------------------------------------------------------------------

/-- The updates enqueued by a list of actions. -/
def addedOps (actions : List BatcherAction) : List TaskUpdateOp :=
  actions.filterMap fun a => match a with
    | .add op => some op
    | _ => none

theorem enqueued_step (hstep : s.step jsonbIn a = some t) :
    t.enqueued = s.enqueued ++ addedOps [a] := by
  cases step_moves hstep with
  | add op => rfl
  | _ => exact (List.append_nil _).symm

theorem enqueued_run (hrun : run (step jsonbIn) s actions = some t) :
    t.enqueued = s.enqueued ++ addedOps actions := by
  induction actions generalizing s with
  | nil =>
    obtain rfl := Option.some.inj hrun
    exact (List.append_nil _).symm
  | cons a actions ih =>
    obtain ⟨m, hm, hrest⟩ := run_cons.mp hrun
    have happend : addedOps (a :: actions) = addedOps [a] ++ addedOps actions :=
      List.filterMap_append (l := [a])
    rw [ih hrest, enqueued_step hm, List.append_assoc, happend]

-- ---------------------------------------------------------------------------
-- Stop
-- ---------------------------------------------------------------------------

/-- `AddStatusUpdate` has returned before `Stop` is called. -/
def AddsFirst (s : DbBatcher) : BatcherAction → Prop
  | .add _ => s.stopFlag = false
  | _ => True

/-- The thread leaves the loop with an empty queue, and `Stop` returns after
it. -/
structure Drained (s : DbBatcher) : Prop where
  coherent : Coherent s
  exited : s.point = .exited → s.queue = []
  returned : s.stopReturned = true → s.point = .exited

theorem drained_started (db : Db) : Drained (started db) where
  coherent := coherent_started db
  exited h := nomatch h
  returned h := nomatch h

/-- A thread that is still in the loop leaves it with nothing queued. -/
theorem Drained.move (h : Drained s) (hpoint : s.point ≠ .exited)
    (ht : Coherent t) (hreturned : t.stopReturned = s.stopReturned)
    (hexit : t.point = .exited → t.queue = []) : Drained t := by
  refine ⟨ht, hexit, fun hret => ?_⟩
  rw [hreturned] at hret
  exact absurd (h.returned hret) hpoint

theorem Drained.step (h : Drained s) (hadds : AddsFirst s a)
    (hstep : s.step jsonbIn a = some t) : Drained t := by
  have ht := h.coherent.step hstep
  cases step_moves hstep with
  | add op =>
    -- the stop flag is not set, so the thread has not left
    have hin : s.point ≠ .exited := fun hexit => by
      have hstop := h.coherent.stopping (Or.inr hexit)
      rw [show s.stopFlag = false from hadds] at hstop
      exact nomatch hstop
    exact h.move hin ht rfl fun hexit => absurd hexit hin
  | stop => exact ⟨ht, h.exited, h.returned⟩
  | goOn hpoint hstop => exact h.move (by rw [hpoint]; decide) ht rfl (by intro hp; cases hp)
  | askQueue hpoint hstop =>
    exact h.move (by rw [hpoint]; decide) ht rfl (by intro hp; cases hp)
  | leave hpoint hqueue => exact h.move (by rw [hpoint]; decide) ht rfl (fun _ => hqueue)
  | drain hpoint hqueue =>
    exact h.move (by rw [hpoint]; decide) ht rfl (by intro hp; cases hp)
  | idle timedOut hpoint hqueue hstop =>
    exact h.move (by rw [hpoint]; decide) ht rfl (fun _ => hqueue)
  | quit timedOut hpoint hqueue hstop =>
    exact h.move (by rw [hpoint]; decide) ht rfl (fun _ => hqueue)
  | fill timedOut hpoint hqueue =>
    exact h.move (by rw [hpoint]; decide) ht rfl (by intro hp; cases hp)
  | skip env hpoint hbatch =>
    exact h.move (by rw [hpoint]; decide) ht rfl (by intro hp; cases hp)
  | flush env hpoint hbatch =>
    exact h.move (by rw [hpoint]; decide) ht rfl (by intro hp; cases hp)
  | join hstop hpoint => exact ⟨ht, h.exited, fun _ => hpoint⟩

/-- **The batcher drains completely and in order.** When every
`AddStatusUpdate` has returned before `Stop` is called, then under every
scheduling of the flush thread the batches passed to `FlushBatch` are, one
after the other, the updates enqueued once `Stop` has returned. -/
theorem batcher_drains (jsonbIn : String → Option String) (db : Db) (actions : List BatcherAction)
    (s : DbBatcher) (hrun : run (step jsonbIn) (started db) actions = some s)
    (hadds : Along (step jsonbIn) AddsFirst (started db) actions) (hstop : s.stopReturned = true) :
    s.flushed.flatten = addedOps actions ∧
      ∀ batch ∈ s.flushed, batch ≠ [] ∧ batch.length ≤ kBatchSize := by
  have hdrained : Drained s :=
    along_invariant (fun _ _ _ h hok hstep => h.step hok hstep) hrun hadds (drained_started db)
  have hcoherent := coherent_run hrun
  have hexit := hdrained.returned hstop
  have hbatch : s.batch = [] := hcoherent.idle (by rw [hexit]; decide)
  refine ⟨?_, hcoherent.sizes⟩
  calc s.flushed.flatten
      = s.flushed.flatten ++ s.batch ++ s.queue := by
        rw [hbatch, hdrained.exited hexit, List.append_nil, List.append_nil]
    _ = s.enqueued := hcoherent.order
    _ = addedOps actions := enqueued_run hrun

/-- A finished task without a result. -/
def doneUpdate (id : Uuid) : TaskUpdateOp := ⟨id.text, .success, "", "", "worker"⟩

/-- A finished task whose result is not JSON. -/
def oopsUpdate (id : Uuid) : TaskUpdateOp := ⟨id.text, .success, "oops", "", "worker"⟩

/-- A `jsonb` that knows the empty object. -/
def jsonbEmpty (text : String) : Option String := if text = "{}" then some "{}" else none

/-- `Stop` arrives while the thread is about to wait. -/
def stopRun : List BatcherAction :=
  [.add (doneUpdate taskA), .test, .add (doneUpdate taskB), .stop, .wake false, .flush {}, .test,
    .test, .join]

theorem batcher_drains_two :
    ∃ s, run (step jsonbEmpty) (started .empty) stopRun = some s ∧
      s.flushed.flatten = [doneUpdate taskA, doneUpdate taskB] := by
  refine ⟨_, rfl, (batcher_drains jsonbEmpty .empty stopRun _ rfl ?_ rfl).1⟩
  simp [stopRun, Along, AddsFirst, step, started]

-- ---------------------------------------------------------------------------
-- The thread comes to its end
-- ---------------------------------------------------------------------------

/-- A step of the flush thread. -/
def isThread : BatcherAction → Bool
  | .test => true
  | .wake _ => true
  | .flush _ => true
  | _ => false

/-- How far a point is from the end of an iteration. -/
def rank : LoopPoint → Nat
  | .flushing => 4
  | .testStop => 3
  | .testQueue => 2
  | .waiting => 1
  | .exited => 0

/-- A bound on the steps the thread has left once the flag is set. -/
def stepsLeft (s : DbBatcher) : Nat := 5 * s.queue.length + rank s.point

/-- Once the flag is set, each step of the thread is one step less. -/
theorem stepsLeft_lt (h : Coherent s) (hstop : s.stopFlag = true) (ha : isThread a = true)
    (hstep : s.step jsonbIn a = some t) : t.stopFlag = true ∧ t.stepsLeft < s.stepsLeft := by
  cases step_moves hstep with
  | add op => exact nomatch ha
  | stop => exact nomatch ha
  | join hflag hpoint => exact nomatch ha
  | goOn hpoint hflag => exact nomatch hstop.symm.trans hflag
  | idle timedOut hpoint hqueue hflag => exact nomatch hstop.symm.trans hflag
  | fill timedOut hpoint hqueue =>
    -- at least one update leaves the queue
    have hbatch : s.batch = [] := h.idle (by rw [hpoint]; decide)
    have hpos : 0 < s.queue.length := List.length_pos_iff.mpr hqueue
    refine ⟨hstop, ?_⟩
    show 5 * (s.queue.drop (kBatchSize - s.batch.length)).length + 4 <
      5 * s.queue.length + rank s.point
    rw [List.length_drop, hbatch, hpoint, kBatchSize, List.length_nil, rank]
    omega
  | askQueue hpoint hflag =>
    refine ⟨hstop, ?_⟩
    simp [stepsLeft, rank, hpoint]
  | leave hpoint hqueue =>
    refine ⟨hstop, ?_⟩
    simp [stepsLeft, rank, hpoint]
  | drain hpoint hqueue =>
    refine ⟨hstop, ?_⟩
    simp [stepsLeft, rank, hpoint]
  | quit timedOut hpoint hqueue hflag =>
    refine ⟨hstop, ?_⟩
    simp [stepsLeft, rank, hpoint]
  | skip env hpoint hbatch =>
    refine ⟨hstop, ?_⟩
    simp [stepsLeft, rank, hpoint]
  | flush env hpoint hbatch =>
    refine ⟨hstop, ?_⟩
    simp [stepsLeft, rank, hpoint]

/-- Once the flag is set, nothing holds the thread up. -/
theorem thread_moves (jsonbIn : String → Option String) (hstop : s.stopFlag = true)
    (hin : s.point ≠ .exited) : ∃ a t, isThread a = true ∧ s.step jsonbIn a = some t := by
  cases hpoint : s.point with
  | testStop => exact ⟨.test, _, rfl, by rw [step, hpoint]⟩
  | testQueue => exact ⟨.test, _, rfl, by rw [step, hpoint]⟩
  | waiting =>
    refine ⟨.wake false, _, rfl, if_pos ⟨hpoint, ?_⟩⟩
    simp [ready, hstop]
  | flushing => exact ⟨.flush {}, _, rfl, if_pos hpoint⟩
  | exited => exact absurd hpoint hin

/-- **Stop returns.** Once the flag is set, the thread's own steps lead to its
end, whatever the backlog, and no schedule of them is longer than
`stepsLeft`. -/
theorem stop_returns (jsonbIn : String → Option String) {s : DbBatcher} (h : Coherent s)
    (hstop : s.stopFlag = true) :
    (∃ actions t, (∀ a ∈ actions, isThread a = true) ∧
      run (step jsonbIn) s (actions ++ [.join]) = some t ∧ t.stopReturned = true) ∧
    ∀ actions t, (∀ a ∈ actions, isThread a = true) → run (step jsonbIn) s actions = some t →
      actions.length ≤ s.stepsLeft := by
  constructor
  · generalize hn : s.stepsLeft = n
    induction n using Nat.strong_induction_on generalizing s with
    | _ n ih =>
      by_cases hexit : s.point = .exited
      · refine ⟨[], _, by simp, run_snoc.mpr ⟨s, rfl, if_pos ⟨hstop, hexit⟩⟩, rfl⟩
      · obtain ⟨a, m, ha, hm⟩ := thread_moves jsonbIn hstop hexit
        obtain ⟨hflag, hlt⟩ := stepsLeft_lt h hstop ha hm
        obtain ⟨actions, t, hall, hrun, hret⟩ := ih _ (hn ▸ hlt) (h.step hm) hflag rfl
        exact ⟨a :: actions, t, List.forall_mem_cons.mpr ⟨ha, hall⟩, run_cons.mpr ⟨m, hm, hrun⟩,
          hret⟩
  · intro actions
    induction actions generalizing s with
    | nil => exact fun _ _ _ => Nat.zero_le _
    | cons a actions ih =>
      intro t hall hrun
      obtain ⟨m, hm, hrest⟩ := run_cons.mp hrun
      obtain ⟨ha, hall⟩ := List.forall_mem_cons.mp hall
      obtain ⟨hflag, hlt⟩ := stepsLeft_lt h hstop ha hm
      have hlen := ih (h.step hm) hflag t hall hrest
      rw [List.length_cons]
      omega

-- ---------------------------------------------------------------------------
-- Conservation
-- ---------------------------------------------------------------------------

/-- Every valid update enqueued has been committed or is still held, as often
as it was enqueued. -/
def Conserved (jsonbIn : String → Option String) (s : DbBatcher) : Prop :=
  ∀ op : TaskUpdateOp, op.Valid jsonbIn →
    s.enqueued.count op = s.committed.count op + s.batch.count op + s.queue.count op

/-- A flush commits its batch or has nothing valid to lose. -/
def FlushKeeps (jsonbIn : String → Option String) (s : DbBatcher) : BatcherAction → Prop
  | .flush env => env.Commits jsonbIn s.batch ∨ ∀ op ∈ s.batch, ¬ op.Valid jsonbIn
  | _ => True

/-- The updates conserved are those of committed batches. -/
theorem Coherent.conserved_iff (h : Coherent s) : Conserved jsonbIn s ↔
    ∀ op : TaskUpdateOp, op.Valid jsonbIn → s.flushed.flatten.count op = s.committed.count op := by
  refine forall₂_congr fun op _ => ?_
  rw [← h.order, List.count_append, List.count_append]
  omega

/-- **Step lemma.** An action conserves the updates exactly if it is no flush
that drops a valid one. -/
theorem Coherent.conserved_step (h : Coherent s) (hstep : s.step jsonbIn a = some t) :
    Conserved jsonbIn t ↔ Conserved jsonbIn s ∧ FlushKeeps jsonbIn s a := by
  rw [h.conserved_iff, (h.step hstep).conserved_iff]
  cases step_moves hstep with
  | skip env hpoint hbatch =>
    refine (and_iff_left (Or.inr ?_)).symm
    rw [hbatch]
    exact fun op hop => absurd hop List.not_mem_nil
  | flush env hpoint hbatch =>
    have hold : ∀ op, s.committed.count op ≤ s.flushed.flatten.count op := fun op =>
      h.committed.count_le op
    have hflat : ∀ op, (s.flushed ++ [s.batch]).flatten.count op =
        s.flushed.flatten.count op + s.batch.count op := by
      intro op
      rw [List.flatten_append, List.flatten_singleton, List.count_append]
    show (∀ op : TaskUpdateOp, op.Valid jsonbIn → (s.flushed ++ [s.batch]).flatten.count op =
      (if env.Commits jsonbIn s.batch then s.committed ++ s.batch else s.committed).count op) ↔ _
    by_cases hcommit : env.Commits jsonbIn s.batch
    · rw [if_pos hcommit]
      have hkeeps : FlushKeeps jsonbIn s (.flush env) := Or.inl hcommit
      rw [and_iff_left hkeeps]
      refine forall₂_congr fun op _ => ?_
      rw [hflat, List.count_append]
      omega
    · rw [if_neg hcommit]
      constructor
      · -- the counts of the dropped batch must be zero
        intro hall
        refine ⟨fun op hop => ?_, Or.inr fun op hmem hop => ?_⟩
        · have hcount := hall op hop
          have hle := hold op
          rw [hflat] at hcount
          omega
        · have hcount := hall op hop
          have hle := hold op
          have hpos := List.count_pos_iff.mpr hmem
          rw [hflat] at hcount
          omega
      · rintro ⟨hall, hkeeps⟩ op hop
        have hnone : op ∉ s.batch := fun hmem =>
          hkeeps.resolve_left hcommit op hmem hop
        rw [hflat, List.count_eq_zero_of_not_mem hnone, hall op hop]
        rfl
  | _ => exact (and_iff_left trivial).symm

/-- **What the batcher keeps.** After a run every valid update enqueued has been
committed to the task table or is still in the queue or the batch, exactly if no
flush of the run that fails carried a valid update. -/
theorem batcher_conserves_iff (jsonbIn : String → Option String) (db : Db)
    (actions : List BatcherAction) (s : DbBatcher)
    (hrun : run (step jsonbIn) (started db) actions = some s) :
    (∀ op : TaskUpdateOp, op.Valid jsonbIn → (addedOps actions).count op =
      s.committed.count op + s.batch.count op + s.queue.count op) ↔
    Along (step jsonbIn) (FlushKeeps jsonbIn) (started db) actions := by
  have hstart : Conserved jsonbIn (started db) := fun _ _ => rfl
  have hiff := along_iff (fun _ _ _ h hstep => h.step hstep)
    (fun _ _ _ h hstep => h.conserved_step hstep) hrun (coherent_started db)
  have hadded : s.enqueued = addedOps actions := enqueued_run hrun
  rw [← and_iff_right hstart (b := Along _ _ _ _), ← hiff, Conserved, hadded]

theorem doneUpdate_valid (id : Uuid) : (doneUpdate id).Valid jsonbEmpty := by
  have hid : castUuid (paramText id.text) = .ok id := by
    rw [paramText_eq id.nul_notMem, castUuid_text]
  have hresult : castJsonb jsonbEmpty (paramText "{}") = .ok "{}" := by decide
  have hworker : castVarchar255 (paramText "worker") = .ok "worker" := by decide
  refine ⟨⟨id, stateSuccess, "{}", paramText "", "worker"⟩, ?_⟩
  refine Fallible.bind_eq_ok.mpr ⟨id, hid, Fallible.bind_eq_ok.mpr ⟨stateSuccess, rfl, ?_⟩⟩
  exact Fallible.bind_eq_ok.mpr ⟨"{}", hresult, Fallible.bind_eq_ok.mpr ⟨"worker", hworker, rfl⟩⟩

theorem oopsUpdate_invalid (id : Uuid) : ¬ (oopsUpdate id).Valid jsonbEmpty := by
  rintro ⟨w, hw⟩
  obtain ⟨taskId, -, hw⟩ := Fallible.bind_eq_ok.mp hw
  obtain ⟨state, -, hw⟩ := Fallible.bind_eq_ok.mp hw
  obtain ⟨result, hresult, -⟩ := Fallible.bind_eq_ok.mp hw
  have hrefused : castJsonb jsonbEmpty (paramText "oops") = .error .invalidText := by decide
  exact nomatch hrefused.symm.trans hresult

/-- A lost transaction that carries only an invalid update. -/
def keepRun : List BatcherAction :=
  [.add (oopsUpdate taskB), .test, .wake true, .flush { outcome := .rolledBack },
    .add (doneUpdate taskA), .test, .wake true, .flush {}]

theorem batcher_conserves_iff_keepRun :
    ∃ s, run (step jsonbEmpty) (started .empty) keepRun = some s ∧
      (addedOps keepRun).count (doneUpdate taskA) = s.committed.count (doneUpdate taskA) +
        s.batch.count (doneUpdate taskA) + s.queue.count (doneUpdate taskA) := by
  refine ⟨_, rfl, (batcher_conserves_iff jsonbEmpty .empty keepRun _ rfl).mpr ?_ _
    (doneUpdate_valid taskA)⟩
  have hfirst : ∀ op ∈ [oopsUpdate taskB], ¬ op.Valid jsonbEmpty := by
    intro op hop
    obtain rfl := List.mem_singleton.mp hop
    exact oopsUpdate_invalid taskB
  have hsecond : ∀ op ∈ [doneUpdate taskA], op.Valid jsonbEmpty := by
    intro op hop
    obtain rfl := List.mem_singleton.mp hop
    exact doneUpdate_valid taskA
  refine (along_cons rfl).mpr ⟨trivial, (along_cons rfl).mpr ⟨trivial, (along_cons rfl).mpr
    ⟨trivial, (along_cons rfl).mpr ⟨Or.inr hfirst, ?_⟩⟩⟩⟩
  exact (along_cons rfl).mpr ⟨trivial, (along_cons rfl).mpr ⟨trivial, (along_cons rfl).mpr
    ⟨trivial, (along_cons rfl).mpr ⟨Or.inl ⟨rfl, hsecond⟩, trivial⟩⟩⟩⟩

/-- The batch of a finished task and its neighbour with a result that is not
JSON. -/
def dropRun : List BatcherAction :=
  [.add (doneUpdate taskA), .add (oopsUpdate taskB), .test, .wake true, .flush {}]

/-- **One invalid result drops the whole batch**: the statement fails, and the
other update is held nowhere any more. -/
theorem neighbour_drops_update :
    ∃ s, run (step jsonbEmpty) (started .empty) dropRun = some s ∧
      (doneUpdate taskA).Valid jsonbEmpty ∧ doneUpdate taskA ∈ addedOps dropRun ∧
      doneUpdate taskA ∉ s.committed ∧ doneUpdate taskA ∉ s.batch ∧
      doneUpdate taskA ∉ s.queue := by
  have hfails : ¬ FlushEnv.Commits jsonbEmpty {} [doneUpdate taskA, oopsUpdate taskB] :=
    fun hcommit => oopsUpdate_invalid taskB (hcommit.2 _ (by simp))
  obtain ⟨s, hs⟩ : ∃ s, run (step jsonbEmpty) (started .empty) dropRun = some s := ⟨_, rfl⟩
  have hcommitted : s.committed =
      if FlushEnv.Commits jsonbEmpty {} [doneUpdate taskA, oopsUpdate taskB]
      then [doneUpdate taskA, oopsUpdate taskB] else [] := by
    rw [← Option.some.inj hs]
    rfl
  have hbatch : s.batch = [] := by
    rw [← Option.some.inj hs]
    rfl
  have hqueue : s.queue = [] := by
    rw [← Option.some.inj hs]
    rfl
  refine ⟨s, hs, doneUpdate_valid taskA, List.mem_cons_self, ?_, ?_, ?_⟩
  · rw [hcommitted, if_neg hfails]
    exact List.not_mem_nil
  · rw [hbatch]
    exact List.not_mem_nil
  · rw [hqueue]
    exact List.not_mem_nil

end DbBatcher

end DistTaskSystem
