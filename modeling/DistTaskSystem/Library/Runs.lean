import Mathlib.Data.List.Basic
import Mathlib.Data.Option.Basic

/-!
# DTS — runs of a transition system

A system is a partial step function: `step s a` is the state after the action
`a`, or `none` where the action is not enabled. A *run* is a list of actions
that are enabled one after the other, so a statement about every run is a
statement about every interleaving of the parties that take the steps.

## Results

* `run_invariant`  — what every step keeps holds after every run.
* `run_history`    — the same, with the actions so far.
* `Along`          — every step of a run meets a condition on the state it
  starts from.
* `along_invariant` — what every such step keeps holds after such a run.
* `Along.imp`      — the consequence rule.
* `along_iff`      — the same, where the condition is exact.
* `along_iff_reached` — the same for all the states on the way.
* `run_length_le`  — a run whose steps use up a rank has no more steps than that.
* `run_ends`       — and comes to a final state if no other is stuck.
* `run_of_observed` — an observer that may refuse a step does not change the run.
-/

namespace DistTaskSystem

namespace Runs

variable {σ α : Type*}

/-- The state after a list of actions. -/
def run (step : σ → α → Option σ) : σ → List α → Option σ
  | s, [] => some s
  | s, a :: actions => (step s a).bind fun t => run step t actions

/-- Each action of the list meets `ok` in the state it is taken in. -/
def Along (step : σ → α → Option σ) (ok : σ → α → Prop) : σ → List α → Prop
  | _, [] => True
  | s, a :: actions => ok s a ∧ ∀ t ∈ step s a, Along step ok t actions

instance decidableAlong (step : σ → α → Option σ) (ok : σ → α → Prop)
    [∀ s a, Decidable (ok s a)] : ∀ s actions, Decidable (Along step ok s actions)
  | _, [] => inferInstanceAs (Decidable True)
  | s, a :: actions =>
    haveI : ∀ t, Decidable (Along step ok t actions) := fun t => decidableAlong step ok t actions
    inferInstanceAs (Decidable (ok s a ∧ ∀ t ∈ step s a, Along step ok t actions))

variable {step : σ → α → Option σ} {ok ok' : σ → α → Prop} {s t u : σ} {a : α}
  {actions actions' : List α}

-- ---------------------------------------------------------------------------
-- Taking a run apart
-- ---------------------------------------------------------------------------

@[simp] theorem run_nil : run step s [] = some s := rfl

theorem run_cons : run step s (a :: actions) = some u ↔
    ∃ t, step s a = some t ∧ run step t actions = some u := by
  rw [run, Option.bind_eq_some_iff]

theorem run_append : run step s (actions ++ actions') = some u ↔
    ∃ t, run step s actions = some t ∧ run step t actions' = some u := by
  induction actions generalizing s with
  | nil => simp
  | cons a actions ih =>
    rw [List.cons_append, run_cons]
    constructor
    · rintro ⟨t, hstep, hrest⟩
      obtain ⟨m, hm, hu⟩ := ih.mp hrest
      exact ⟨m, run_cons.mpr ⟨t, hstep, hm⟩, hu⟩
    · rintro ⟨m, hm, hu⟩
      obtain ⟨t, hstep, hrest⟩ := run_cons.mp hm
      exact ⟨t, hstep, ih.mpr ⟨m, hrest, hu⟩⟩

theorem run_snoc : run step s (actions ++ [a]) = some u ↔
    ∃ t, run step s actions = some t ∧ step t a = some u := by
  rw [run_append]
  simp only [run_cons, run_nil, Option.some.injEq, exists_eq_right]

-- ---------------------------------------------------------------------------
-- Invariants
-- ---------------------------------------------------------------------------

/-- **Invariant rule.** What every step keeps holds after every run. -/
theorem run_invariant {P : σ → Prop} (hstep : ∀ s a t, P s → step s a = some t → P t)
    (hrun : run step s actions = some u) (hs : P s) : P u := by
  induction actions generalizing s with
  | nil =>
    obtain rfl : s = u := Option.some.inj hrun
    exact hs
  | cons a actions ih =>
    obtain ⟨t, ht, hrest⟩ := run_cons.mp hrun
    exact ih hrest (hstep s a t hs ht)

/-- **Invariant rule with the history.** `P` may speak of the actions so far. -/
theorem run_history {P : List α → σ → Prop} {before : List α}
    (hstep : ∀ before s a t, P before s → step s a = some t → P (before ++ [a]) t)
    (hrun : run step s actions = some u) (hs : P before s) : P (before ++ actions) u := by
  induction actions generalizing s before with
  | nil =>
    obtain rfl : s = u := Option.some.inj hrun
    rwa [List.append_nil]
  | cons a actions ih =>
    obtain ⟨t, ht, hrest⟩ := run_cons.mp hrun
    rw [List.append_cons]
    exact ih hrest (hstep before s a t hs ht)

theorem along_cons (hstep : step s a = some t) :
    Along step ok s (a :: actions) ↔ ok s a ∧ Along step ok t actions := by
  rw [Along]
  constructor
  · rintro ⟨hok, hrest⟩
    exact ⟨hok, hrest t hstep⟩
  · rintro ⟨hok, hrest⟩
    refine ⟨hok, fun t' ht' => ?_⟩
    obtain rfl : t = t' := Option.some.inj (hstep.symm.trans ht')
    exact hrest

/-- A condition that the actions meet in every state. -/
theorem along_of_forall (h : ∀ a ∈ actions, ∀ u, ok u a) : Along step ok s actions := by
  induction actions generalizing s with
  | nil => trivial
  | cons a actions ih =>
    refine ⟨h a List.mem_cons_self s, fun t _ => ih fun b hb => ?_⟩
    exact h b (List.mem_cons_of_mem a hb)

theorem along_append (hrun : run step s actions = some t) :
    Along step ok s (actions ++ actions') ↔
      Along step ok s actions ∧ Along step ok t actions' := by
  induction actions generalizing s with
  | nil =>
    obtain rfl : s = t := Option.some.inj hrun
    simp [Along]
  | cons a actions ih =>
    obtain ⟨m, hm, hrest⟩ := run_cons.mp hrun
    rw [List.cons_append, along_cons hm, along_cons hm, ih hrest, and_assoc]

/-- **Invariant rule under a condition.** What the steps that meet the
condition keep holds after every run of such steps. -/
theorem along_invariant {P : σ → Prop}
    (hstep : ∀ s a t, P s → ok s a → step s a = some t → P t)
    (hrun : run step s actions = some u) (hok : Along step ok s actions) (hs : P s) : P u := by
  induction actions generalizing s with
  | nil =>
    obtain rfl : s = u := Option.some.inj hrun
    exact hs
  | cons a actions ih =>
    obtain ⟨t, ht, hrest⟩ := run_cons.mp hrun
    obtain ⟨hhead, htail⟩ := (along_cons ht).mp hok
    exact ih hrest htail (hstep s a t hs hhead ht)

/-- **Consequence rule.** The steps of a run meet each condition that follows from the one
they meet and from what they keep. -/
theorem Along.imp {P : σ → Prop}
    (hstep : ∀ s a t, P s → ok s a → step s a = some t → P t ∧ ok' s a)
    (hrun : run step s actions = some u) (hok : Along step ok s actions) (hs : P s) :
    Along step ok' s actions := by
  induction actions generalizing s with
  | nil => trivial
  | cons a actions ih =>
    obtain ⟨t, ht, hrest⟩ := run_cons.mp hrun
    obtain ⟨hhead, htail⟩ := (along_cons ht).mp hok
    obtain ⟨hPt, hok'⟩ := hstep s a t hs hhead ht
    exact (along_cons ht).mpr ⟨hok', ih hrest htail hPt⟩

theorem along_and (hrun : run step s actions = some u) :
    Along step (fun s a => ok s a ∧ ok' s a) s actions ↔
      Along step ok s actions ∧ Along step ok' s actions := by
  induction actions generalizing s with
  | nil => simp [Along]
  | cons a actions ih =>
    obtain ⟨t, ht, hrest⟩ := run_cons.mp hrun
    rw [along_cons ht, along_cons ht, along_cons ht, ih hrest, and_and_and_comm]

/-- **Exactness rule.** If each step keeps `P` exactly under the condition, then
`P` holds after a run exactly if it held before and every step met the condition.
`I` is what is known of the states on the way. -/
theorem along_iff {I P : σ → Prop} (hinv : ∀ s a t, I s → step s a = some t → I t)
    (hstep : ∀ s a t, I s → step s a = some t → (P t ↔ P s ∧ ok s a))
    (hrun : run step s actions = some u) (hs : I s) :
    P u ↔ P s ∧ Along step ok s actions := by
  induction actions generalizing s with
  | nil =>
    obtain rfl : s = u := Option.some.inj hrun
    simp [Along]
  | cons a actions ih =>
    obtain ⟨t, ht, hrest⟩ := run_cons.mp hrun
    rw [ih hrest (hinv s a t hs ht), hstep s a t hs ht, along_cons ht, and_assoc]

/-- **Exactness rule for the way.** If a step from a state with `P` keeps `P` exactly
under the condition, then every step of a run met the condition exactly if `P` held in
each state the run went through. -/
theorem along_iff_reached {I P : σ → Prop} (hinv : ∀ s a t, I s → step s a = some t → I t)
    (hstep : ∀ s a t, I s → P s → step s a = some t → (P t ↔ ok s a))
    (hrun : run step s actions = some u) (hs : I s) (hP : P s) :
    Along step ok s actions ↔
      ∀ before t, before <+: actions → run step s before = some t → P t := by
  induction actions generalizing s with
  | nil =>
    refine iff_of_true trivial fun before t hbefore ht => ?_
    obtain rfl := List.prefix_nil.mp hbefore
    obtain rfl : s = t := Option.some.inj ht
    exact hP
  | cons a actions ih =>
    obtain ⟨m, hm, hrest⟩ := run_cons.mp hrun
    rw [along_cons hm]
    constructor
    · rintro ⟨hok, halong⟩ before t hbefore ht
      have hPm : P m := (hstep s a m hs hP hm).mpr hok
      cases before with
      | nil =>
        obtain rfl : s = t := Option.some.inj ht
        exact hP
      | cons b before =>
        obtain ⟨rfl, htail⟩ := List.cons_prefix_cons.mp hbefore
        obtain ⟨m', hm', ht'⟩ := run_cons.mp ht
        obtain rfl : m = m' := Option.some.inj (hm.symm.trans hm')
        exact (ih hrest (hinv s b m hs hm) hPm).mp halong before t htail ht'
    · intro h
      have hPm : P m := h [a] m (List.cons_prefix_cons.mpr ⟨rfl, List.nil_prefix⟩)
        (run_cons.mpr ⟨m, hm, rfl⟩)
      refine ⟨(hstep s a m hs hP hm).mp hPm, (ih hrest (hinv s a m hs hm) hPm).mpr ?_⟩
      intro before t hbefore ht
      exact h (a :: before) t (List.cons_prefix_cons.mpr ⟨rfl, hbefore⟩)
        (run_cons.mpr ⟨m, hm, ht⟩)

-- ---------------------------------------------------------------------------
-- Runs that come to an end
-- ---------------------------------------------------------------------------

/-- **Rank rule.** Each step uses up some of the rank, except for what comes in. -/
theorem run_length_le {I : σ → Prop} {rank income : σ → Nat}
    (hinv : ∀ s a t, I s → step s a = some t → I t)
    (hstep : ∀ s a t, I s → step s a = some t → rank t + income s + 1 ≤ rank s + income t)
    (hrun : run step s actions = some u) (hs : I s) :
    actions.length + rank u + income s ≤ rank s + income u := by
  induction actions generalizing s with
  | nil =>
    obtain rfl : s = u := Option.some.inj hrun
    exact Nat.le_of_eq (congrArg (· + income s) (Nat.zero_add (rank s)))
  | cons a actions ih =>
    obtain ⟨t, ht, hrest⟩ := run_cons.mp hrun
    have hrest' := ih hrest (hinv s a t hs ht)
    have hfirst := hstep s a t hs ht
    rw [List.length_cons]
    omega

/-- **Progress rule.** If every state that is not final has a step that uses up some of the
rank, then a final one can be reached, in no more steps than the rank. -/
theorem run_ends {I final : σ → Prop} {rank : σ → Nat}
    (hinv : ∀ s a t, I s → step s a = some t → I t)
    (hprogress : ∀ s, I s → ¬ final s → ∃ a t, ok s a ∧ step s a = some t ∧ rank t < rank s)
    (hs : I s) : ∃ actions u, run step s actions = some u ∧ final u ∧
      Along step ok s actions ∧ actions.length ≤ rank s := by
  induction hn : rank s using Nat.strongRecOn generalizing s with
  | ind n ih =>
    by_cases hfinal : final s
    · exact ⟨[], s, rfl, hfinal, trivial, Nat.zero_le _⟩
    · obtain ⟨a, t, hok, ht, hless⟩ := hprogress s hs hfinal
      obtain ⟨actions, u, hrun, hu, halong, hlength⟩ :=
        ih (rank t) (hn ▸ hless) (hinv s a t hs ht) rfl
      refine ⟨a :: actions, u, run_cons.mpr ⟨t, ht, hrun⟩, hu,
        (along_cons ht).mpr ⟨hok, halong⟩, ?_⟩
      rw [List.length_cons]
      omega

-- ---------------------------------------------------------------------------
-- Observers
-- ---------------------------------------------------------------------------

variable {β : Type*} {watch : β → σ → α → Option β} {b b' : β}

/-- The system with an observer, who keeps notes and may refuse a step. -/
def observed (step : σ → α → Option σ) (watch : β → σ → α → Option β) (s : σ × β) (a : α) :
    Option (σ × β) :=
  (step s.1 a).bind fun t => (watch s.2 s.1 a).map fun b => (t, b)

theorem observed_eq_some {s t : σ × β} :
    observed step watch s a = some t ↔ step s.1 a = some t.1 ∧ watch s.2 s.1 a = some t.2 := by
  rw [observed, Option.bind_eq_some_iff]
  constructor
  · rintro ⟨u, hstep, h⟩
    obtain ⟨b, hwatch, rfl⟩ := Option.map_eq_some_iff.mp h
    exact ⟨hstep, hwatch⟩
  · rintro ⟨hstep, hwatch⟩
    exact ⟨t.1, hstep, Option.map_eq_some_iff.mpr ⟨t.2, hwatch, rfl⟩⟩

/-- **An observer** does not change the run. -/
theorem run_of_observed (hrun : run (observed step watch) (s, b) actions = some (u, b')) :
    run step s actions = some u := by
  induction actions generalizing s b with
  | nil => exact congrArg (Option.map Prod.fst) hrun
  | cons a actions ih =>
    obtain ⟨⟨t, c⟩, hfirst, hrest⟩ := run_cons.mp hrun
    exact run_cons.mpr ⟨t, (observed_eq_some.mp hfirst).1, ih hrest⟩

end Runs

end DistTaskSystem
