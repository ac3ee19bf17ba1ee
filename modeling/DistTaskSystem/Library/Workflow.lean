import DistTaskSystem.Library.Runs
import Mathlib.Algebra.Order.BigOperators.Group.Finset
import Mathlib.Logic.Function.Basic
import Mathlib.Logic.Relation

/-!
# DTS — workflows with retries

A workflow is a finite set of tasks with their parents. A task is offered for
execution once all its parents have succeeded, and offered again after a
failure until it has failed more often than its limit. How often the
executions of a task fail before one succeeds is its *fate*; nothing else is
left open, so the order of the executions is the only choice of a run.

## Results

* `step_cases`        — an execution of an open task fails or succeeds.
* `consistent_run`    — the invariant of a run, and how often each task was executed.
* `Consistent.rest_done` — a run at rest has done what can succeed.
* `Consistent.rest_failures` — and every task that starts has failed as often as it may.
* `blocked_iff`       — without cycles, a task never starts exactly if an ancestor of
  it is exhausted.
-/

namespace DistTaskSystem

/-- Tasks with their parents, and how often each may be tried again. -/
structure Workflow (α : Type*) where
  tasks : Finset α
  parents : α → Finset α
  limit : α → ℕ
  closed : ∀ t ∈ tasks, parents t ⊆ tasks

namespace Workflow

open Runs

variable {α : Type*}

-- ---------------------------------------------------------------------------
-- What succeeds
-- ---------------------------------------------------------------------------

section Fates

variable (W : Workflow α) (fate : α → ℕ)

/-- The tasks that succeed in the end. -/
inductive Succeeds : α → Prop
  | intro {t : α} (htask : t ∈ W.tasks) (hparents : ∀ p ∈ W.parents t, Succeeds p)
      (hfate : fate t ≤ W.limit t) : Succeeds t

/-- The tasks that are executed at all. -/
def Starts (t : α) : Prop := ∀ p ∈ W.parents t, W.Succeeds fate p

variable {W fate} {t : α}

theorem Succeeds.task (h : W.Succeeds fate t) : t ∈ W.tasks := by
  cases h with
  | intro htask _ _ => exact htask

theorem succeeds_iff (htask : t ∈ W.tasks) :
    W.Succeeds fate t ↔ W.Starts fate t ∧ fate t ≤ W.limit t := by
  constructor
  · rintro ⟨-, hparents, hfate⟩
    exact ⟨hparents, hfate⟩
  · rintro ⟨hparents, hfate⟩
    exact .intro htask hparents hfate

/-- The ancestors of a task that succeeds have succeeded before. -/
theorem Starts.ancestor {a : α} (hstarts : W.Starts fate t)
    (hpath : Relation.TransGen (fun q c => q ∈ W.parents c) a t) : W.Succeeds fate a := by
  induction hpath with
  | single hparent => exact hstarts _ hparent
  | tail _ hparent ih =>
    have hsucceeds := hstarts _ hparent
    exact ih ((succeeds_iff hsucceeds.task).mp hsucceeds).1

/-- **Where there is no cycle, a task never starts exactly if an ancestor starts and is
exhausted.** -/
theorem blocked_iff (hacc : Acc (fun q c => q ∈ W.parents c) t) (htask : t ∈ W.tasks) :
    ¬ W.Starts fate t ↔ ∃ a ∈ W.tasks, Relation.TransGen (fun q c => q ∈ W.parents c) a t ∧
      W.Starts fate a ∧ W.limit a < fate a := by
  constructor
  · intro hblocked
    induction hacc with
    | intro t _ ih =>
      obtain ⟨q, hq⟩ := not_forall.mp hblocked
      obtain ⟨hparent, hfails⟩ := Classical.not_imp.mp hq
      have hqtask := W.closed t htask hparent
      by_cases hstarts : W.Starts fate q
      · refine ⟨q, hqtask, .single hparent, hstarts, ?_⟩
        by_contra hlimit
        exact hfails ((succeeds_iff hqtask).mpr ⟨hstarts, by omega⟩)
      · obtain ⟨a, ha, hpath, hexhausted⟩ := ih q hparent hqtask hstarts
        exact ⟨a, ha, hpath.tail hparent, hexhausted⟩
  · rintro ⟨a, ha, hpath, -, hexhausted⟩ hstarts
    have hlimit := ((succeeds_iff ha).mp (hstarts.ancestor hpath)).2
    omega

end Fates

-- ---------------------------------------------------------------------------
-- Executions
-- ---------------------------------------------------------------------------

/-- The tasks that have succeeded, and the failures of each task. -/
@[ext] structure Progress (α : Type*) where
  done : Finset α
  failures : α → ℕ

def Progress.start : Progress α := ⟨∅, fun _ => 0⟩

variable [DecidableEq α]

/-- How often the task has been executed. -/
def Progress.executions (p : Progress α) (t : α) : ℕ :=
  p.failures t + if t ∈ p.done then 1 else 0

/-- One more execution of the task. -/
def Progress.execute (fate : α → ℕ) (p : Progress α) (t : α) : Progress α :=
  if p.failures t < fate t then
    { p with failures := Function.update p.failures t (p.failures t + 1) }
  else { p with done := insert t p.done }

variable (W : Workflow α) (fate : α → ℕ)

/-- How often the task has been offered: when its parents had succeeded, and after
each failure that was not the last. -/
def offers (p : Progress α) (t : α) : ℕ :=
  (if W.parents t ⊆ p.done then 1 else 0) + min (p.failures t) (W.limit t)

/-- An offer of the task has not been taken yet. -/
def Open (p : Progress α) (t : α) : Prop := t ∈ W.tasks ∧ p.executions t < W.offers p t

instance (p : Progress α) (t : α) : Decidable (W.Open p t) :=
  inferInstanceAs (Decidable (_ ∧ _))

def step (p : Progress α) (t : α) : Option (Progress α) :=
  if W.Open p t then some (p.execute fate t) else none

/-- No offer is left. -/
def Rest (p : Progress α) : Prop := ∀ t ∈ W.tasks, W.offers p t ≤ p.executions t

variable {W fate} {p p' : Progress α} {t : α} {ts : List α}

-- ---------------------------------------------------------------------------
-- The invariant
-- ---------------------------------------------------------------------------

/-- What holds after any executions. -/
structure Consistent (W : Workflow α) (fate : α → ℕ) (p : Progress α) : Prop where
  done : ∀ t ∈ p.done, W.Succeeds fate t ∧ p.failures t = fate t
  started : ∀ t, 0 < p.executions t → t ∈ W.tasks ∧ W.parents t ⊆ p.done
  within : ∀ t, p.failures t ≤ fate t ∧ p.failures t ≤ W.limit t + 1

theorem Consistent.start : W.Consistent fate .start where
  done t ht := absurd ht (Finset.notMem_empty t)
  started t ht := by simp [Progress.executions, Progress.start] at ht
  within t := ⟨Nat.zero_le _, Nat.zero_le _⟩

/-- What is known of an open task: its parents have succeeded, it has not, and it has not
used up its limit. -/
theorem Consistent.open (h : W.Consistent fate p) (hopen : W.Open p t) :
    W.parents t ⊆ p.done ∧ t ∉ p.done ∧ p.failures t ≤ W.limit t := by
  have hoffer := hopen.2
  have hleft : p.failures t ≤ p.executions t := Nat.le_add_right _ _
  have hnot : t ∉ p.done := by
    intro hdone
    obtain ⟨hsucceeds, hfailures⟩ := h.done t hdone
    have hlimit := ((succeeds_iff hsucceeds.task).mp hsucceeds).2
    rw [offers, Progress.executions, if_pos hdone] at hoffer
    split at hoffer <;> omega
  rw [Progress.executions, if_neg hnot, offers] at hoffer
  have hsub : W.parents t ⊆ p.done := by
    by_contra hparents
    rw [if_neg hparents] at hoffer
    omega
  rw [if_pos hsub] at hoffer
  exact ⟨hsub, hnot, by omega⟩

/-- **Inversion.** An execution of an open task fails once more, or succeeds after as
many failures as its fate says. -/
theorem Consistent.step_cases (h : W.Consistent fate p) (hstep : W.step fate p t = some p') :
    W.Open p t ∧
    ((p.failures t < fate t ∧
        p' = { p with failures := Function.update p.failures t (p.failures t + 1) }) ∨
      (p.failures t = fate t ∧ p' = { p with done := insert t p.done })) := by
  rw [step] at hstep
  split at hstep
  · next hopen =>
    refine ⟨hopen, ?_⟩
    rw [← Option.some.inj hstep, Progress.execute]
    by_cases hfails : p.failures t < fate t
    · exact .inl ⟨hfails, if_pos hfails⟩
    · have hwithin := (h.within t).1
      exact .inr ⟨by omega, if_neg hfails⟩
  · cases hstep

/-- An execution counts for its task alone. -/
theorem Consistent.executions_step (h : W.Consistent fate p)
    (hstep : W.step fate p t = some p') (u : α) :
    p'.executions u = p.executions u + if u = t then 1 else 0 := by
  obtain ⟨hopen, ⟨-, rfl⟩ | ⟨-, rfl⟩⟩ := h.step_cases hstep
  · by_cases hut : u = t
    · subst hut
      simp only [Progress.executions, Function.update_self, if_true]
      omega
    · simp only [Progress.executions, Function.update_of_ne hut, if_neg hut, Nat.add_zero]
  · have hnot := (h.open hopen).2.1
    by_cases hut : u = t
    · subst hut
      simp only [Progress.executions, Finset.mem_insert_self, if_true, if_neg hnot]
    · simp only [Progress.executions, Finset.mem_insert, hut, false_or, if_false, Nat.add_zero]

/-- **Step lemma.** An execution keeps the invariant. -/
theorem Consistent.step (h : W.Consistent fate p) (hstep : W.step fate p t = some p') :
    W.Consistent fate p' := by
  have hcount := h.executions_step hstep
  obtain ⟨hopen, hcases⟩ := h.step_cases hstep
  obtain ⟨hparents, hnot, hlimit⟩ := h.open hopen
  have hstarted : ∀ u, 0 < p'.executions u → u ∈ W.tasks ∧ W.parents u ⊆ p.done := by
    intro u hu
    rw [hcount] at hu
    by_cases hut : u = t
    · exact hut ▸ ⟨hopen.1, hparents⟩
    · rw [if_neg hut] at hu
      exact h.started u hu
  rcases hcases with ⟨hfails, rfl⟩ | ⟨hfate, rfl⟩
  · refine ⟨fun u hu => ?_, hstarted, fun u => ?_⟩
    · have hut : u ≠ t := fun hut => hnot (hut ▸ hu)
      simp only [Function.update_of_ne hut]
      exact h.done u hu
    · by_cases hut : u = t
      · subst hut
        simp only [Function.update_self]
        omega
      · simp only [Function.update_of_ne hut]
        exact h.within u
  · refine ⟨fun u hu => ?_, fun u hu => ?_, h.within⟩
    · rcases Finset.mem_insert.mp hu with rfl | hdone
      · refine ⟨.intro hopen.1 (fun q hq => (h.done q (hparents hq)).1) ?_, hfate⟩
        rw [← hfate]
        exact hlimit
      · exact h.done u hdone
    · obtain ⟨htask, hsub⟩ := hstarted u hu
      exact ⟨htask, hsub.trans (Finset.subset_insert t p.done)⟩

/-- **Run lemma.** A run keeps the invariant, and each task was executed as often as the
run says. -/
theorem consistent_run (hrun : run (W.step fate) .start ts = some p) :
    W.Consistent fate p ∧ ∀ t, p.executions t = ts.count t := by
  have hstart : W.Consistent fate .start ∧
      ∀ t, (Progress.start : Progress α).executions t = ([] : List α).count t :=
    ⟨.start, fun t => by simp [Progress.executions, Progress.start]⟩
  have hinv := run_history
    (P := fun before p => W.Consistent fate p ∧ ∀ t, p.executions t = before.count t)
    (fun before p t p' hp hstep => ⟨hp.1.step hstep, fun u => ?_⟩) hrun hstart
  · exact hinv
  · rw [hp.1.executions_step hstep, hp.2, List.count_append, List.count_singleton]
    by_cases hut : u = t
    · rw [if_pos hut, hut, beq_self_eq_true, if_pos rfl]
    · rw [if_neg hut, if_neg]
      simpa using Ne.symm hut

-- ---------------------------------------------------------------------------
-- How many executions
-- ---------------------------------------------------------------------------

/-- A task is offered at most once more than its limit. -/
theorem offers_le (p : Progress α) (t : α) : W.offers p t ≤ W.limit t + 1 := by
  rw [offers]
  split <;> omega

/-- **Every execution has taken an offer.** -/
theorem Consistent.executions_le (h : W.Consistent fate p) (t : α) :
    p.executions t ≤ W.offers p t := by
  have hwithin := (h.within t).2
  by_cases hpos : 0 < p.executions t
  · rw [offers, if_pos (h.started t hpos).2, Progress.executions]
    split
    · next hdone =>
      obtain ⟨hsucceeds, hfailures⟩ := h.done t hdone
      have hlimit := ((succeeds_iff hsucceeds.task).mp hsucceeds).2
      omega
    · omega
  · omega

/-- The length of a run is the sum of the executions. -/
theorem length_run (hrun : run (W.step fate) .start ts = some p) :
    ts.length = ∑ t ∈ W.tasks, p.executions t := by
  obtain ⟨h, hcount⟩ := consistent_run hrun
  have htasks : ∀ t ∈ ts, t ∈ W.tasks := fun t ht =>
    (h.started t (by rw [hcount]; exact List.count_pos_iff.mpr ht)).1
  calc ts.length = ∑ t ∈ ts.toFinset, ts.count t := (List.sum_toFinset_count_eq_length ts).symm
    _ = ∑ t ∈ W.tasks, ts.count t := by
      refine Finset.sum_subset (fun t ht => htasks t (List.mem_toFinset.mp ht)) fun t _ ht => ?_
      exact List.count_eq_zero_of_not_mem fun hmem => ht (List.mem_toFinset.mpr hmem)
    _ = ∑ t ∈ W.tasks, p.executions t := Finset.sum_congr rfl fun t _ => (hcount t).symm

-- ---------------------------------------------------------------------------
-- At rest
-- ---------------------------------------------------------------------------

/-- **At rest, what can succeed has succeeded.** -/
theorem Consistent.rest_done (h : W.Consistent fate p) (hrest : W.Rest p) :
    t ∈ p.done ↔ W.Succeeds fate t := by
  refine ⟨fun hdone => (h.done t hdone).1, fun hsucceeds => ?_⟩
  induction hsucceeds with
  | @intro t htask _ hfate ih =>
    have hsub : W.parents t ⊆ p.done := fun _ hq => ih _ hq
    have hoffer := hrest t htask
    have hwithin := (h.within t).1
    rw [offers, if_pos hsub, Progress.executions] at hoffer
    by_contra hnot
    rw [if_neg hnot] at hoffer
    omega

/-- The parents of a task have succeeded exactly if it starts. -/
theorem Consistent.rest_starts (h : W.Consistent fate p) (hrest : W.Rest p) :
    W.parents t ⊆ p.done ↔ W.Starts fate t :=
  ⟨fun hsub _ hq => (h.rest_done hrest).mp (hsub hq),
    fun hstarts q hq => (h.rest_done hrest).mpr (hstarts q hq)⟩

/-- **At rest, a task that starts has failed as often as its fate and its limit let it.** -/
theorem Consistent.rest_failures (h : W.Consistent fate p) (hrest : W.Rest p)
    (htask : t ∈ W.tasks) (hstarts : W.Starts fate t) :
    p.failures t = min (fate t) (W.limit t + 1) := by
  have hwithin := h.within t
  by_cases hdone : t ∈ p.done
  · obtain ⟨hsucceeds, hfailures⟩ := h.done t hdone
    have hlimit := ((succeeds_iff htask).mp hsucceeds).2
    omega
  · have hoffer := hrest t htask
    have hexhausted : ¬ fate t ≤ W.limit t := fun hfate =>
      hdone ((h.rest_done hrest).mpr ((succeeds_iff htask).mpr ⟨hstarts, hfate⟩))
    rw [offers, if_pos ((h.rest_starts hrest).mpr hstarts), Progress.executions,
      if_neg hdone] at hoffer
    omega

/-- A task that does not start is not executed. -/
theorem Consistent.executions_blocked (h : W.Consistent fate p) (hblocked : ¬ W.Starts fate t) :
    p.executions t = 0 := by
  by_contra hpos
  obtain ⟨-, hsub⟩ := h.started t (Nat.pos_of_ne_zero hpos)
  exact hblocked fun q hq => (h.done q (hsub hq)).1

/-- **The executions of a run at rest.** -/
theorem Consistent.rest_executions (h : W.Consistent fate p) (hrest : W.Rest p)
    (htask : t ∈ W.tasks) (hstarts : W.Starts fate t) :
    p.executions t = min (fate t) (W.limit t) + 1 := by
  have hfailures := h.rest_failures hrest htask hstarts
  rw [Progress.executions]
  by_cases hfate : fate t ≤ W.limit t
  · rw [if_pos ((h.rest_done hrest).mpr ((succeeds_iff htask).mpr ⟨hstarts, hfate⟩))]
    omega
  · have hnot : t ∉ p.done := fun hdone =>
      hfate ((succeeds_iff htask).mp ((h.rest_done hrest).mp hdone)).2
    rw [if_neg hnot]
    omega

end Workflow

end DistTaskSystem
