import Mathlib.Data.List.Count
import Mathlib.Data.List.Perm.Basic
import Mathlib.Logic.Function.Basic
import Mathlib.Logic.Function.Iterate

/-!
# DTS — one machine for each index

A family of machines over any type of indices: a tick of an index moves its
machine and emits something, and leaves the other machines alone. Whatever the
machines do, only the number of ticks of each index matters: two lists of ticks
with the same elements, in any order, lead to the same states and emit the same
things up to their order.

## Results

* `after_apply`  — a machine after a list of ticks.
* `after_perm`, `emitted_perm` — the order of the ticks does not matter.
-/

namespace DistTaskSystem

namespace Ticks

variable {κ σ ω : Type*} [DecidableEq κ]

/-- One tick. -/
def tick (step : κ → σ → σ × List ω) (f : κ → σ) (k : κ) : κ → σ :=
  Function.update f k (step k (f k)).1

/-- The machines after a list of ticks. -/
def after (step : κ → σ → σ × List ω) (f : κ → σ) (ticks : List κ) : κ → σ :=
  ticks.foldl (tick step) f

/-- What they emit on the way. -/
def emitted (step : κ → σ → σ × List ω) : (κ → σ) → List κ → List ω
  | _, [] => []
  | f, k :: ticks => (step k (f k)).2 ++ emitted step (tick step f k) ticks

variable {step : κ → σ → σ × List ω} {f : κ → σ} {ticks ticks' : List κ} {k k' : κ}

@[simp] theorem after_nil : after step f [] = f := rfl

@[simp] theorem after_cons :
    after step f (k :: ticks) = after step (tick step f k) ticks := rfl

theorem after_append : after step f (ticks ++ ticks') = after step (after step f ticks) ticks' :=
  List.foldl_append

theorem emitted_append : emitted step f (ticks ++ ticks') =
    emitted step f ticks ++ emitted step (after step f ticks) ticks' := by
  induction ticks generalizing f with
  | nil => rfl
  | cons k ticks ih =>
    rw [List.cons_append, emitted, emitted, ih, List.append_assoc, after_cons]

theorem tick_self : tick step f k k = (step k (f k)).1 := Function.update_self ..

theorem tick_ne (h : k' ≠ k) : tick step f k k' = f k' := Function.update_of_ne h ..

/-- **A machine after a list of ticks** has moved as often as its index occurs. -/
theorem after_apply (k : κ) :
    after step f ticks k = (fun s => (step k s).1)^[ticks.count k] (f k) := by
  induction ticks generalizing f with
  | nil => rfl
  | cons k' ticks ih =>
    rw [after_cons, ih]
    by_cases hk : k' = k
    · rw [hk, List.count_cons_self, Function.iterate_succ_apply, tick_self]
    · rw [List.count_cons_of_ne hk, tick_ne (Ne.symm hk)]

theorem tick_comm (h : k ≠ k') :
    tick step (tick step f k) k' = tick step (tick step f k') k := by
  rw [tick, tick_ne h.symm, tick, tick, tick_ne h, tick, Function.update_comm h]

/-- **The order of the ticks does not matter** for the states, -/
theorem after_perm (h : ticks.Perm ticks') : after step f ticks = after step f ticks' := by
  funext k
  rw [after_apply, after_apply, h.count_eq]

/-- and for what is emitted only the order can differ. -/
theorem emitted_perm (h : ticks.Perm ticks') :
    (emitted step f ticks).Perm (emitted step f ticks') := by
  induction h generalizing f with
  | nil => exact .refl _
  | cons k _ ih => exact (ih).append_left _
  | swap k k' ticks =>
    by_cases hk : k = k'
    · rw [hk]
    · rw [emitted, emitted, emitted, emitted, tick_comm hk, tick_ne hk, tick_ne (Ne.symm hk),
        ← List.append_assoc, ← List.append_assoc]
      exact List.perm_append_comm.append_right _
  | trans _ _ ih ih' => exact (ih).trans ih'

end Ticks

end DistTaskSystem
