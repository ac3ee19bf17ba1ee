import Mathlib.Data.List.Basic
import DistTaskSystem.Library.Parties

/-!
# DTS — items in the custody of threads

Each item is at home with one thread, and a thread holds at most one item at a time, one
of its own. `Stage` says how an item may look, given where its thread stands; a thread
that is busy with another item does not matter to it. As nobody else holds the item, a
step of its thread is all that can take it from one stage to the next.

## Results

* `Kept.at_point` — what a thread holds is its own, and in the stage that fits.
* `Kept.move`     — a thread moves, and one item of its own with it.
* `Kept.concat`   — a new item, which no thread holds.
-/

namespace DistTaskSystem

namespace Custody

variable {Item Thread : Type*}

/-- Items, where they are at home, and which one a thread holds. A thread that does not
exist stands at `idle`. -/
structure House (Item Thread : Type*) where
  home : Item → Nat
  held : Thread → Option Nat
  idle : Thread
  Stage : Nat → Item → Thread → Prop
  elsewhere : ∀ {tag c p p'}, Stage tag c p → held p ≠ some tag → held p' ≠ some tag →
    Stage tag c p'

variable {H : House Item Thread} {items : List Item} {threads : List Thread} {tag i : Nat}
  {c c' : Item} {p p' : Thread}

/-- Each item is in a stage, and a thread holds none but its own. -/
structure Kept (H : House Item Thread) (items : List Item) (threads : List Thread) : Prop where
  stage : ∀ (tag : Nat) (c : Item), items[tag]? = some c →
    H.Stage tag c ((threads[H.home c]?).getD H.idle)
  holds : ∀ (i : Nat) (p : Thread) (tag : Nat), threads[i]? = some p → H.held p = some tag →
    ∃ c, items[tag]? = some c ∧ H.home c = i

theorem Kept.stage_at (h : Kept H items threads) (hc : items[tag]? = some c)
    (hthread : threads[H.home c]? = some p) : H.Stage tag c p := by
  have hstage := h.stage tag c hc
  rwa [hthread] at hstage

theorem Kept.at_point (h : Kept H items threads) (hthread : threads[i]? = some p)
    (hheld : H.held p = some tag) (hc : items[tag]? = some c) : H.home c = i ∧ H.Stage tag c p := by
  obtain ⟨d, hd, rfl⟩ := h.holds i p tag hthread hheld
  obtain rfl : c = d := Option.some.inj (hc.symm.trans hd)
  exact ⟨rfl, h.stage_at hc hthread⟩

theorem held_ne {tag' : Nat} (hp : H.held p = none ∨ H.held p = some tag) (htag : tag' ≠ tag) :
    H.held p ≠ some tag' := by
  intro hp'
  rcases hp with hp | hp
  · exact nomatch hp.symm.trans hp'
  · exact htag (Option.some.inj (hp'.symm.trans hp))

/-- A thread moves, and an item of its own with it. -/
theorem Kept.move (h : Kept H items threads) (hc : items[tag]? = some c)
    (hthread : threads[H.home c]? = some p) (hp : H.held p = none ∨ H.held p = some tag)
    (hp' : H.held p' = none ∨ H.held p' = some tag) (hhome : H.home c' = H.home c)
    (hstage : H.Stage tag c' p') :
    Kept H (items.set tag c') (threads.set (H.home c) p') := by
  have hlt : H.home c < threads.length := (List.getElem?_eq_some_iff.mp hthread).1
  have hlt' : tag < items.length := (List.getElem?_eq_some_iff.mp hc).1
  constructor
  · refine Parties.forall_set (fun tag' d htag hd => ?_) ?_
    · by_cases hhome' : H.home d = H.home c
      · rw [hhome', List.getElem?_set_self hlt]
        have hold := h.stage tag' d hd
        rw [hhome', hthread] at hold
        exact H.elsewhere hold (held_ne hp htag) (held_ne hp' htag)
      · rw [List.getElem?_set_ne (Ne.symm hhome')]
        exact h.stage tag' d hd
    · rw [hhome, List.getElem?_set_self hlt]
      exact hstage
  · intro i q tag' hq htag'
    by_cases hi : i = H.home c
    · subst hi
      obtain rfl : p' = q := Option.some.inj ((List.getElem?_set_self hlt).symm.trans hq)
      obtain rfl : tag' = tag := of_not_not fun htag => held_ne hp' htag htag'
      exact ⟨c', List.getElem?_set_self hlt', hhome⟩
    · obtain ⟨d, hd, hdhome⟩ := h.holds i q tag'
        ((List.getElem?_set_ne (Ne.symm hi)).symm.trans hq) htag'
      have htag : tag' ≠ tag := by
        rintro rfl
        obtain rfl : c = d := Option.some.inj (hc.symm.trans hd)
        exact hi hdhome.symm
      exact ⟨d, (List.getElem?_set_ne (Ne.symm htag)).trans hd, hdhome⟩

/-- A new item. -/
theorem Kept.concat (h : Kept H items threads) (hidle : H.held H.idle = none)
    (hstage : ∀ p, H.held p ≠ some items.length → H.Stage items.length c p) :
    Kept H (items ++ [c]) threads := by
  constructor
  · refine Parties.forall_concat h.stage (hstage _ fun hheld => ?_)
    -- what a thread holds is there already
    cases hthread : threads[H.home c]? with
    | none =>
      rw [hthread] at hheld
      exact nomatch hidle.symm.trans hheld
    | some p =>
      rw [hthread] at hheld
      obtain ⟨d, hd, -⟩ := h.holds _ p _ hthread hheld
      exact Nat.lt_irrefl _ (List.getElem?_eq_some_iff.mp hd).1
  · intro i p tag hp htag
    obtain ⟨d, hd, hhome⟩ := h.holds i p tag hp htag
    have hlt : tag < items.length := (List.getElem?_eq_some_iff.mp hd).1
    exact ⟨d, (List.getElem?_append_left hlt).trans hd, hhome⟩

end Custody

end DistTaskSystem
