import Mathlib.Data.List.Basic

/-!
# DTS — two runs side by side

A program on a shared state may stop with an error. Two of them are *coupled*
by a relation on states if they lead from related states to related states and
answer alike; one of them is *unseen* if it leads out of no relation on its
own. The relation says what an observer of one party sees of the state.

## Results

* `Coupled.andThen`, `Unseen.andThen` — the rules for a sequence.
* `unwinding` — an observer sees the same if the steps it does not own are left
  out of a schedule.
-/

namespace DistTaskSystem

namespace TwoRuns

variable {σ τ ε α β γ δ ι : Type*}

/-- Run `m`, then the program of its answer. -/
def andThen (m : σ → Except ε α × σ) (f : α → σ → Except ε β × σ) : σ → Except ε β × σ :=
  fun s =>
    match m s with
    | (.ok a, s') => f a s'
    | (.error e, s') => (.error e, s')

-- ---------------------------------------------------------------------------
-- Both run
-- ---------------------------------------------------------------------------

/-- Answers in a relation, or two errors. -/
def Answers (S : α → β → Prop) : Except ε α → Except ε β → Prop
  | .ok a, .ok b => S a b
  | .error _, .error _ => True
  | _, _ => False

/-- From related states to related states, with related answers. -/
def Coupled (R : σ → τ → Prop) (S : α → β → Prop) (m : σ → Except ε α × σ)
    (n : τ → Except ε β × τ) : Prop :=
  ∀ s t, R s t → Answers S (m s).1 (n t).1 ∧ R (m s).2 (n t).2

/-- **Sequence rule.** -/
theorem Coupled.andThen {R : σ → τ → Prop} {S : α → β → Prop} {T : γ → δ → Prop}
    {m : σ → Except ε α × σ} {n : τ → Except ε β × τ} {f : α → σ → Except ε γ × σ}
    {g : β → τ → Except ε δ × τ} (h : Coupled R S m n)
    (hrest : ∀ a b, S a b → Coupled R T (f a) (g b)) :
    Coupled R T (TwoRuns.andThen m f) (TwoRuns.andThen n g) := by
  intro s t hst
  obtain ⟨hanswers, hstates⟩ := h s t hst
  unfold TwoRuns.andThen
  rcases hm : m s with ⟨_ | a, s'⟩
  · rcases hn : n t with ⟨_ | b, t'⟩
    · rw [hm, hn] at hstates
      exact ⟨trivial, hstates⟩
    · rw [hm, hn] at hanswers
      exact hanswers.elim
  · rcases hn : n t with ⟨_ | b, t'⟩
    · rw [hm, hn] at hanswers
      exact hanswers.elim
    · rw [hm, hn] at hanswers hstates
      exact hrest a b hanswers s' t' hstates

theorem Coupled.answer {R : σ → τ → Prop} {S : α → β → Prop} {a : α} {b : β} (h : S a b) :
    Coupled R S (fun s => ((.ok a : Except ε α), s)) (fun t => ((.ok b : Except ε β), t)) :=
  fun _ _ hst => ⟨h, hst⟩

-- ---------------------------------------------------------------------------
-- Only one runs
-- ---------------------------------------------------------------------------

/-- The relation does not see the program. -/
def Unseen (R : σ → τ → Prop) (m : σ → Except ε α × σ) : Prop :=
  ∀ s t, R s t → R (m s).2 t

/-- **Sequence rule.** -/
theorem Unseen.andThen {R : σ → τ → Prop} {m : σ → Except ε α × σ}
    {f : α → σ → Except ε β × σ} (h : Unseen R m) (hrest : ∀ a, Unseen R (f a)) :
    Unseen R (TwoRuns.andThen m f) := by
  intro s t hst
  have hstates := h s t hst
  unfold TwoRuns.andThen
  rcases hm : m s with ⟨_ | a, s'⟩
  · rw [hm] at hstates
    exact hstates
  · rw [hm] at hstates
    exact hrest a s' t hstates

theorem Unseen.answer {R : σ → τ → Prop} {a : α} :
    Unseen R fun s => ((.ok a : Except ε α), s) :=
  fun _ _ hst => hst

-- ---------------------------------------------------------------------------
-- Schedules
-- ---------------------------------------------------------------------------

/-- **Unwinding.** If the steps of the observer are coupled and the others are
unseen, a schedule and its part without the others lead to related states. -/
theorem unwinding {R : σ → σ → Prop} {exec : ι → σ → σ} {own : ι → Prop} [DecidablePred own]
    {schedule : List ι} {s t : σ}
    (hown : ∀ o ∈ schedule, own o → ∀ s t, R s t → R (exec o s) (exec o t))
    (hother : ∀ o ∈ schedule, ¬ own o → ∀ s t, R s t → R (exec o s) t) (hst : R s t) :
    R (schedule.foldl (fun s o => exec o s) s)
      ((schedule.filter own).foldl (fun s o => exec o s) t) := by
  induction schedule generalizing s t with
  | nil => exact hst
  | cons o schedule ih =>
    rw [List.foldl_cons]
    have hown' := fun o' ho' => hown o' (List.mem_cons_of_mem o ho')
    have hother' := fun o' ho' => hother o' (List.mem_cons_of_mem o ho')
    by_cases ho : own o
    · rw [List.filter_cons_of_pos (by simpa using ho), List.foldl_cons]
      exact ih hown' hother' (hown o List.mem_cons_self ho s t hst)
    · rw [List.filter_cons_of_neg (by simpa using ho)]
      exact ih hown' hother' (hother o List.mem_cons_self ho s t hst)

end TwoRuns

end DistTaskSystem
