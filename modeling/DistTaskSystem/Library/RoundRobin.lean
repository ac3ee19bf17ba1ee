import Mathlib.Data.Int.CardIntervalMod
import Mathlib.Data.Int.ConditionallyCompleteOrder

/-!
# DTS — round robin over sorted loads

Units are handed out one by one, to the places of a list in turn or to a place with a
least load. Where the turns follow the loads upward from the least one, the loads do not
drift apart: the earlier place has at most one unit more than the later one, which is
not below it to begin with.

## Results

* `spread_le_iff`  — the spread as a bound on every two loads.
* `turns_antitone`, `turns_le_succ` — how many units two places get.
* `gap_turns`      — round robin from sorted loads.
* `gap_least`      — a unit for a least load.
-/

namespace DistTaskSystem

namespace RoundRobin

-- ---------------------------------------------------------------------------
-- Spread
-- ---------------------------------------------------------------------------

/-- The largest load less the smallest one. -/
def spread (loads : List Int) : Int := loads.max?.getD 0 - loads.min?.getD 0

theorem spread_le_iff {loads : List Int} {bound : Int} (hbound : 0 ≤ bound) :
    spread loads ≤ bound ↔ ∀ x ∈ loads, ∀ y ∈ loads, x - y ≤ bound := by
  cases hmax : loads.max? with
  | none =>
    obtain rfl := List.max?_eq_none_iff.mp hmax
    exact iff_of_true hbound fun x hx => absurd hx List.not_mem_nil
  | some high =>
    obtain ⟨hhigh, hle⟩ := List.max?_eq_some_iff.mp hmax
    obtain ⟨low, hmin⟩ : ∃ low, loads.min? = some low := by
      cases hmin : loads.min? with
      | none =>
        rw [List.min?_eq_none_iff.mp hmin] at hhigh
        exact absurd hhigh List.not_mem_nil
      | some low => exact ⟨low, rfl⟩
    obtain ⟨hlow, hge⟩ := List.min?_eq_some_iff.mp hmin
    rw [spread, hmax, hmin]
    constructor
    · intro hspread x hx y hy
      have hx' := hle x hx
      have hy' := hge y hy
      simp only [Option.getD_some] at hspread
      omega
    · exact fun h => h high hhigh low hlow

-- ---------------------------------------------------------------------------
-- Turns
-- ---------------------------------------------------------------------------

/-- The units that the i-th of n places has been given after k turns. -/
def turns (n k i : Nat) : Nat := k.count (· ≡ i [MOD n])

variable {n k i j : Nat}

@[simp] theorem turns_zero : turns n 0 i = 0 := Nat.count_zero _

theorem turns_succ (hi : i < n) :
    turns n (k + 1) i = turns n k i + if i = k % n then 1 else 0 := by
  rw [turns, Nat.count_succ, turns]
  congr 2
  rw [Nat.ModEq, Nat.mod_eq_of_lt hi]
  exact propext ⟨Eq.symm, Eq.symm⟩

/-- Quotient and remainder. -/
theorem turns_eq (hi : i < n) : turns n k i = k / n + if i < k % n then 1 else 0 := by
  rw [turns, Nat.count_modEq_card k (Nat.zero_lt_of_lt hi), Nat.mod_eq_of_lt hi]

/-- An earlier place is served no less. -/
theorem turns_antitone (hij : i ≤ j) (hj : j < n) : turns n k j ≤ turns n k i := by
  rw [turns_eq hj, turns_eq (hij.trans_lt hj)]
  split <;> split <;> omega

/-- No place is two units ahead. -/
theorem turns_le_succ (hi : i < n) (hj : j < n) : turns n k i ≤ turns n k j + 1 := by
  rw [turns_eq hi, turns_eq hj]
  split <;> split <;> omega

-- ---------------------------------------------------------------------------
-- Gaps
-- ---------------------------------------------------------------------------

/-- **Round robin.** Served in turn from the least one on, sorted loads stay as close as
they were, or within one unit. -/
theorem gap_turns {base : Fin n → Int} {bound : Int} (hsorted : Monotone base)
    (hgap : ∀ i j, base i - base j ≤ bound) (k : Nat) (i j : Fin n) :
    (base i + turns n k i) - (base j + turns n k j) ≤ max 1 bound := by
  rcases le_total i j with hij | hji
  · -- the earlier place may have had one turn more
    have hbase := hsorted hij
    have hturns := turns_le_succ (k := k) i.isLt j.isLt
    omega
  · have hbase := hgap i j
    have hturns := turns_antitone (k := k) (Fin.le_def.mp hji) i.isLt
    omega

/-- **A unit for a least load** leaves no gap but of one unit that was not there. -/
theorem gap_least {ι : Type*} [DecidableEq ι] (places : Set ι) {load : ι → Int} {bound : Int}
    {least : ι} (hleast : ∀ i ∈ places, load least ≤ load i)
    (hgap : ∀ i ∈ places, ∀ j ∈ places, load i - load j ≤ bound) :
    ∀ i ∈ places, ∀ j ∈ places,
      (load i + if i = least then 1 else 0) - (load j + if j = least then 1 else 0) ≤
        max 1 bound := by
  intro i hi j hj
  have hij := hgap i hi j hj
  have hj' := hleast j hj
  by_cases heq : i = least
  · subst heq
    rw [if_pos rfl]
    split <;> omega
  · rw [if_neg heq]
    split <;> omega

end RoundRobin

end DistTaskSystem
