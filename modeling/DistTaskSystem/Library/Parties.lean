import Mathlib.Algebra.BigOperators.Group.List.Basic
import Mathlib.Algebra.GroupWithZero.Nat
import Mathlib.Data.List.Basic

/-!
# DTS — systems of many parties

A system keeps its parties in a list, in the order in which they came, and a
step replaces one of them. What the step does to a sum over the parties or to
the things they hold is what it does to that one.

## Results

* `perm_set`    — what the parties hold, with the one that moves taken out.
* `sum_set`     — a sum of weights.
* `countP_set`  — the number of parties of a kind.
* `forall_set`, `forall_concat` — what holds of each party at its place.
-/

namespace DistTaskSystem

namespace Parties

variable {α β : Type*} {l : List α} {i : Nat} {a x : α}

/-- The party that moves stands between the others. -/
theorem split (h : l[i]? = some a) :
    ∃ before after, l = before ++ a :: after ∧ ∀ x, l.set i x = before ++ x :: after := by
  obtain ⟨hi, hget⟩ := List.getElem?_eq_some_iff.mp h
  refine ⟨l.take i, l.drop (i + 1), ?_, ?_⟩
  · rw [← hget, List.getElem_cons_drop, List.take_append_drop]
  · intro x
    rw [List.set_eq_take_append_cons_drop, if_pos hi]

/-- What the parties hold is what the one that moves holds, and the rest, which
does not change. -/
theorem perm_set (f : α → Option β) (h : l[i]? = some a) :
    ∃ rest, (l.filterMap f).Perm ((f a).toList ++ rest) ∧
      ∀ x, ((l.set i x).filterMap f).Perm ((f x).toList ++ rest) := by
  obtain ⟨before, after, hl, hset⟩ := split h
  have hmiddle : ∀ x, ((before ++ x :: after).filterMap f).Perm
      ((f x).toList ++ (before.filterMap f ++ after.filterMap f)) := by
    intro x
    rw [List.filterMap_append, List.filterMap_cons]
    cases f x with
    | none => exact List.Perm.refl _
    | some b => exact List.perm_middle
  refine ⟨before.filterMap f ++ after.filterMap f, ?_, ?_⟩
  · rw [hl]
    exact hmiddle a
  · intro x
    rw [hset x]
    exact hmiddle x

theorem sum_set (w : α → Nat) (h : l[i]? = some a) :
    ((l.set i x).map w).sum + w a = (l.map w).sum + w x := by
  obtain ⟨before, after, hl, hset⟩ := split h
  rw [hset x, hl]
  simp only [List.map_append, List.map_cons, List.sum_append, List.sum_cons]
  omega

theorem countP_set (p : α → Bool) (h : l[i]? = some a) :
    (l.set i x).countP p + (if p a then 1 else 0) = l.countP p + if p x then 1 else 0 := by
  obtain ⟨before, after, hl, hset⟩ := split h
  rw [hset x, hl]
  simp only [List.countP_append, List.countP_cons]
  omega

theorem forall_set {P : Nat → α → Prop} (hothers : ∀ j b, j ≠ i → l[j]? = some b → P j b)
    (hmoves : P i x) : ∀ j b, (l.set i x)[j]? = some b → P j b := by
  intro j b hb
  by_cases hj : j = i
  · subst hj
    rw [List.getElem?_set_self'] at hb
    obtain ⟨a, -, rfl⟩ := Option.map_eq_some_iff.mp hb
    exact hmoves
  · rw [List.getElem?_set_ne (Ne.symm hj)] at hb
    exact hothers j b hj hb

theorem forall_concat {P : Nat → α → Prop} (h : ∀ j b, l[j]? = some b → P j b)
    (hnew : P l.length x) : ∀ j b, (l ++ [x])[j]? = some b → P j b := by
  intro j b hb
  rcases Nat.lt_trichotomy j l.length with hj | rfl | hj
  · rw [List.getElem?_append_left hj] at hb
    exact h j b hb
  · rw [List.getElem?_concat_length] at hb
    obtain rfl := Option.some.inj hb
    exact hnew
  · rw [List.getElem?_eq_none (by rw [List.length_append]; exact hj)] at hb
    exact nomatch hb

end Parties

end DistTaskSystem
