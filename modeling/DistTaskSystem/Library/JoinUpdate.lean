import Mathlib.Data.List.Basic

/-!
# DTS — updates by a join

A list of writes is applied to the rows of a table: one after the other, each to the row
with its key, or all at once, where a row takes one of the writes with its key. A write
overwrites what an earlier one left, so of the writes one after the other the last one
with the key counts.

## Results

* `foldl_applyOne` — the writes one after the other.
* `picks_last_iff` — when it does not matter which write a row takes.
-/

namespace DistTaskSystem

namespace JoinUpdate

variable {κ ρ ω : Type*} [DecidableEq κ] {key : ω → κ} {apply : ω → ρ → ρ}

/-- A write to the row of a key. -/
def applyOne (key : ω → κ) (apply : ω → ρ → ρ) (k : κ) (row : ρ) (w : ω) : ρ :=
  if key w = k then apply w row else row

/-- The writes a row joins with. -/
def joined (key : ω → κ) (k : κ) (writes : List ω) : List ω := writes.filter fun w => key w = k

/-- What a write leaves of a row, if there is one. -/
def applyTo (apply : ω → ρ → ρ) (row : ρ) : Option ω → ρ
  | some w => apply w row
  | none => row

theorem mem_joined {k : κ} {writes : List ω} {w : ω} :
    w ∈ joined key k writes ↔ w ∈ writes ∧ key w = k := by
  rw [joined, List.mem_filter, decide_eq_true_eq]

theorem joined_cons (k : κ) (w : ω) (rest : List ω) :
    joined key k (w :: rest) =
      if key w = k then w :: joined key k rest else joined key k rest := by
  simp only [joined, List.filter_cons, decide_eq_true_eq]

/-- **One after the other**, the last write with the key counts. -/
theorem foldl_applyOne (hover : ∀ w w' row, apply w (apply w' row) = apply w row) (k : κ)
    (writes : List ω) (row : ρ) :
    writes.foldl (applyOne key apply k) row =
      applyTo apply row (joined key k writes).getLast? := by
  induction writes generalizing row with
  | nil => rfl
  | cons w rest ih =>
    rw [List.foldl_cons, ih, applyOne, joined_cons]
    by_cases hkey : key w = k
    · rw [if_pos hkey, if_pos hkey, List.getLast?_cons]
      cases (joined key k rest).getLast? with
      | none => rfl
      | some w' => exact hover w' w row
    · rw [if_neg hkey, if_neg hkey]

/-- **All at once**: each write of the list is as good as the last one exactly if they
are all the same. -/
theorem picks_last_iff (writes : List ω) :
    (∀ i < writes.length, writes[i]? = writes.getLast?) ↔
      ∀ w ∈ writes, ∀ w' ∈ writes, w = w' := by
  constructor
  · intro h w hw w' hw'
    obtain ⟨i, hi, rfl⟩ := List.mem_iff_getElem.mp hw
    obtain ⟨j, hj, rfl⟩ := List.mem_iff_getElem.mp hw'
    have hboth := (h i hi).trans (h j hj).symm
    rwa [List.getElem?_eq_getElem hi, List.getElem?_eq_getElem hj, Option.some.injEq] at hboth
  · intro h i hi
    have hne : writes ≠ [] := List.ne_nil_of_length_pos (Nat.zero_lt_of_lt hi)
    rw [List.getLast?_eq_some_getLast hne, List.getElem?_eq_getElem hi]
    exact congrArg some (h _ (List.getElem_mem hi) _ (List.getLast_mem hne))

end JoinUpdate

end DistTaskSystem
