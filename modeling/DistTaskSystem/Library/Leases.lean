import Mathlib.Logic.Function.Basic
import Mathlib.Order.Nat

/-!
# DTS — leases

A table of leases over any type of keys: a key is granted a lease, holds it as
long as it renews it, and loses it in the first sweep that finds it older than
the timeout. Only a grant brings a key back.

A lease carries a value that a renewal replaces and a modification changes
without renewing.

## Results

* `sweep_eq_none_iff` — a sweep takes exactly the leases that are not fresh.
* `after_none`        — a key without a lease has none until a grant.
-/

namespace DistTaskSystem

namespace Leases

variable {κ β : Type*}

/-- A lease: when it was last renewed, and what is kept with it. -/
structure Lease (β : Type*) where
  renewed : Nat
  value : β

/-- No older than the timeout. -/
def Lease.Fresh (timeout now : Nat) (l : Lease β) : Prop := now ≤ l.renewed + timeout

instance (timeout now : Nat) (l : Lease β) : Decidable (l.Fresh timeout now) :=
  inferInstanceAs (Decidable (_ ≤ _))

/-- Who holds a lease. -/
abbrev Table (κ β : Type*) := κ → Option (Lease β)

inductive Op (κ β : Type*) where
  | grant (k : κ) (value : β)
  | renew (k : κ) (value : β)
  | modify (k : κ) (f : β → β)
  | look
  | sweep

namespace Table

/-- No key has a lease. -/
def empty : Table κ β := fun _ => none

/-- One operation at a time. Keys without a lease are not renewed or modified. -/
def apply [DecidableEq κ] (timeout now : Nat) (t : Table κ β) : Op κ β → Table κ β
  | .grant k value => Function.update t k (some ⟨now, value⟩)
  | .renew k value => Function.update t k ((t k).map fun _ => ⟨now, value⟩)
  | .modify k f => Function.update t k ((t k).map fun l => ⟨l.renewed, f l.value⟩)
  | .look => t
  | .sweep => fun k => (t k).filter fun l => l.Fresh timeout now

/-- The table after operations at their times. -/
def after [DecidableEq κ] (timeout : Nat) (t : Table κ β) (ops : List (Nat × Op κ β)) :
    Table κ β :=
  ops.foldl (fun t e => t.apply timeout e.1 e.2) t

variable [DecidableEq κ] {timeout now : Nat} {t : Table κ β} {k : κ} {ops : List (Nat × Op κ β)}

theorem sweep_eq_some_iff {l : Lease β} :
    t.apply timeout now .sweep k = some l ↔ t k = some l ∧ l.Fresh timeout now := by
  rw [apply, Option.filter_eq_some_iff, decide_eq_true_eq]

/-- **A sweep** takes exactly the leases that are not fresh. -/
theorem sweep_eq_none_iff :
    t.apply timeout now .sweep k = none ↔ ∀ l ∈ t k, ¬ l.Fresh timeout now := by
  rw [apply, Option.filter_eq_none_iff]
  simp only [decide_eq_true_eq, Option.mem_def]

/-- **Only a grant brings a key back**, in one step, -/
theorem apply_none {op : Op κ β} (h : t k = none) (hop : ∀ value, op ≠ .grant k value) :
    t.apply timeout now op k = none := by
  -- an operation on another key is not seen at this one
  have hother : ∀ k' l, (k = k' → l = none) → Function.update t k' l k = none := by
    intro k' l hl
    by_cases hk : k = k'
    · rw [hk, Function.update_self, hl hk]
    · rw [Function.update_of_ne hk, h]
  cases op with
  | grant k' value => exact hother k' _ fun hk => absurd (hk ▸ rfl) (hop value)
  | renew k' value => exact hother k' _ fun hk => by rw [← hk, h]; rfl
  | modify k' f => exact hother k' _ fun hk => by rw [← hk, h]; rfl
  | look => exact h
  | sweep =>
    show (t k).filter _ = none
    rw [h]
    rfl

/-- and in any number of them. -/
theorem after_none (h : t k = none) (hops : ∀ e ∈ ops, ∀ value, e.2 ≠ .grant k value) :
    t.after timeout ops k = none := by
  induction ops generalizing t with
  | nil => exact h
  | cons e ops ih =>
    rw [after, List.foldl_cons]
    refine ih (apply_none h (hops e List.mem_cons_self)) fun e' he' => ?_
    exact hops e' (List.mem_cons_of_mem e he')

theorem after_append (ops' : List (Nat × Op κ β)) :
    t.after timeout (ops ++ ops') = (t.after timeout ops).after timeout ops' :=
  List.foldl_append

end Table

end Leases

end DistTaskSystem
