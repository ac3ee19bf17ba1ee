import Mathlib.Data.Finset.Card
import Mathlib.Data.Finset.Filter
import Mathlib.Data.List.Count
import Mathlib.Data.List.Nodup
import Mathlib.Logic.Function.Basic
import Mathlib.Tactic.Push

/-!
# Countdown triggering over a directed graph

A node waits for its parents by holding a counter: each completed parent
lowers the counters of its children by one, and the child whose counter
reaches zero is appended to a log of ready nodes and loses its counter. The
children set of a completed node is cleared, so completing it again does
nothing.

Two kinds of result live here:

* closed forms that hold in *every* state, also inconsistent ones
  (`decrementAll_counter`, `decrementAll_ready`, `decrementAll_faults`): one
  completion acts on its children independently of their order;
* `Exact` — the state is the one the graph, the published nodes and the
  completed nodes determine. Publishing a node and completing a node whose
  children are all published keep it (`Exact.publish`, `Exact.complete`), and
  in an exact state over an acyclic graph nothing is stuck
  (`Exact.ready_of_settled`).
-/

namespace Countdown

variable {α : Type*}

/-- What a decrement can find wrong about a child. -/
inductive Fault (α : Type*) where
  | missing (c : α)
  | negative (c : α)
deriving DecidableEq

/-- The bookkeeping of a countdown. -/
structure State (α : Type*) where
  /-- children still to be notified when the node completes -/
  children : α → Finset α
  /-- parents still awaited -/
  counter : α → Option ℤ
  /-- whether the node can be started at all -/
  known : α → Bool
  /-- the log of nodes found ready -/
  ready : List α
  faults : List (Fault α)

namespace State

/-- What a decrement leaves of a node's counter; a missing counter is zero. -/
def left (s : State α) (c : α) : ℤ := (s.counter c).getD 0 - 1

/-- A decrement makes the node ready. -/
def fires (s : State α) (c : α) : Bool := decide (s.left c = 0) && s.known c

/-- The fault a decrement reports, if any. -/
def faultOf (s : State α) (c : α) : Option (Fault α) :=
  if s.left c = 0 then
    if s.known c then none else some (.missing c)
  else if s.left c < 0 then some (.negative c)
  else none

variable [DecidableEq α]

/-- One parent of `c` completed. -/
def decrement (s : State α) (c : α) : State α where
  children := s.children
  counter := Function.update s.counter c (if s.fires c then none else some (s.left c))
  known := s.known
  ready := if s.fires c then s.ready ++ [c] else s.ready
  faults := s.faults ++ (s.faultOf c).toList

/-- The children of one completed node, in some order. -/
def decrementAll (s : State α) (l : List α) : State α := l.foldl decrement s

/-- Node `p` completed; `l` enumerates the children found. -/
def complete (s : State α) (p : α) (l : List α) : State α :=
  { s.decrementAll l with children := Function.update s.children p ∅ }

/-- Node `t` can be started from now on. -/
def learn (s : State α) (t : α) : State α :=
  { s with known := Function.update s.known t true }

/-- Node `t` is announced with `n` parents. -/
def publish (s : State α) (t : α) (n : ℕ) : State α where
  children := s.children
  counter := if n = 0 then s.counter else Function.update s.counter t (some n)
  known := s.known
  ready := if n = 0 then s.ready ++ [t] else s.ready
  faults := s.faults

/-! ## One completion, in closed form -/

@[simp] theorem decrementAll_nil (s : State α) : s.decrementAll [] = s := rfl

@[simp] theorem decrementAll_cons (s : State α) (c : α) (l : List α) :
    s.decrementAll (c :: l) = (s.decrement c).decrementAll l := rfl

theorem decrement_left_ne {s : State α} {c d : α} (hdc : d ≠ c) :
    (s.decrement c).left d = s.left d := by
  simp [left, decrement, Function.update_of_ne hdc]

theorem decrement_fires_ne {s : State α} {c d : α} (hdc : d ≠ c) :
    (s.decrement c).fires d = s.fires d := by
  simp only [fires, decrement_left_ne hdc]
  rfl

theorem decrement_faultOf_ne {s : State α} {c d : α} (hdc : d ≠ c) :
    (s.decrement c).faultOf d = s.faultOf d := by
  simp only [faultOf, decrement_left_ne hdc]
  rfl

@[simp] theorem decrementAll_children (s : State α) (l : List α) :
    (s.decrementAll l).children = s.children := by
  induction l generalizing s with
  | nil => rfl
  | cons c rest ih => rw [decrementAll_cons, ih]; rfl

@[simp] theorem decrementAll_known (s : State α) (l : List α) :
    (s.decrementAll l).known = s.known := by
  induction l generalizing s with
  | nil => rfl
  | cons c rest ih => rw [decrementAll_cons, ih]; rfl

/-- Every enumerated child is decremented once, the others keep their counters. -/
theorem decrementAll_counter {l : List α} (hl : l.Nodup) (s : State α) (d : α) :
    (s.decrementAll l).counter d =
      if d ∈ l then (if s.fires d then none else some (s.left d)) else s.counter d := by
  induction l generalizing s with
  | nil => simp
  | cons c rest ih =>
    rw [List.nodup_cons] at hl
    rw [decrementAll_cons, ih hl.2]
    by_cases hdc : d = c
    · subst hdc
      rw [if_neg hl.1, if_pos List.mem_cons_self]
      exact Function.update_self ..
    · have hcounter : (s.decrement c).counter d = s.counter d := Function.update_of_ne hdc _ _
      rw [decrement_fires_ne hdc, decrement_left_ne hdc, hcounter]
      simp only [List.mem_cons, hdc, false_or]

/-- The children that became ready are logged in the order of the enumeration. -/
theorem decrementAll_ready {l : List α} (hl : l.Nodup) (s : State α) :
    (s.decrementAll l).ready = s.ready ++ l.filter s.fires := by
  induction l generalizing s with
  | nil => simp
  | cons c rest ih =>
    rw [List.nodup_cons] at hl
    have hrest : rest.filter (s.decrement c).fires = rest.filter s.fires :=
      List.filter_congr fun d hd =>
        decrement_fires_ne fun hdc => hl.1 (hdc ▸ hd)
    rw [decrementAll_cons, ih hl.2, hrest, List.filter_cons]
    cases hfires : s.fires c <;> simp [decrement, hfires]

/-- The faults of one completion, in the order of the enumeration. -/
theorem decrementAll_faults {l : List α} (hl : l.Nodup) (s : State α) :
    (s.decrementAll l).faults = s.faults ++ l.filterMap s.faultOf := by
  induction l generalizing s with
  | nil => simp
  | cons c rest ih =>
    rw [List.nodup_cons] at hl
    have hrest : rest.filterMap (s.decrement c).faultOf = rest.filterMap s.faultOf :=
      List.filterMap_congr fun d hd =>
        decrement_faultOf_ne fun hdc => hl.1 (hdc ▸ hd)
    rw [decrementAll_cons, ih hl.2, hrest, List.filterMap_cons]
    cases hfault : s.faultOf c <;> simp [decrement, hfault]

end State

/-! ## The state a graph determines -/

variable [DecidableEq α]

/-- The listed nodes that have `t` among their children. -/
def parents (V : Finset α) (G : α → Finset α) (t : α) : Finset α :=
  V.filter fun p => t ∈ G p

/-- How many parents of `t` have not completed. -/
def pending (V : Finset α) (G : α → Finset α) (R : Finset α) (t : α) : ℕ :=
  (parents V G t \ R).card

section Graph

variable {V : Finset α} {G : α → Finset α} {R : Finset α}

theorem mem_parents {p t : α} : p ∈ parents V G t ↔ p ∈ V ∧ t ∈ G p := by
  simp [parents]

theorem parents_ne_empty {p t : α} (hp : p ∈ V) (ht : t ∈ G p) : parents V G t ≠ ∅ :=
  Finset.ne_empty_of_mem (mem_parents.mpr ⟨hp, ht⟩)

theorem pending_eq_zero {t : α} : pending V G R t = 0 ↔ parents V G t ⊆ R := by
  rw [pending, Finset.card_eq_zero, Finset.sdiff_eq_empty_iff_subset]

theorem pending_pos {p t : α} (hp : p ∈ V) (ht : t ∈ G p) (hR : p ∉ R) :
    0 < pending V G R t := by
  rw [pending, Finset.card_pos]
  exact ⟨p, Finset.mem_sdiff.mpr ⟨mem_parents.mpr ⟨hp, ht⟩, hR⟩⟩

/-- Before any parent completed all of them are pending. -/
theorem pending_eq_card {t : α} (h : ∀ p ∈ parents V G t, p ∉ R) :
    pending V G R t = (parents V G t).card := by
  rw [pending, Finset.sdiff_eq_self_of_disjoint (Finset.disjoint_left.mpr h)]

/-- Completing a node takes one off the pending parents of its children. -/
theorem pending_insert_child {p t : α} (hp : p ∈ V) (ht : t ∈ G p) (hR : p ∉ R) :
    (pending V G (insert p R) t : ℤ) = pending V G R t - 1 := by
  have hmem : p ∈ parents V G t \ R :=
    Finset.mem_sdiff.mpr ⟨mem_parents.mpr ⟨hp, ht⟩, hR⟩
  have hcard := Finset.card_erase_add_one hmem
  rw [pending, pending, Finset.sdiff_insert]
  omega

theorem pending_insert_other {p t : α} (ht : t ∉ G p) :
    pending V G (insert p R) t = pending V G R t := by
  have hnot : p ∉ parents V G t \ R := fun h =>
    ht (mem_parents.mp (Finset.mem_sdiff.mp h).1).2
  rw [pending, pending, Finset.sdiff_insert, Finset.erase_eq_of_notMem hnot]

end Graph

/-- The state is the one determined by the graph, the publications `P` so far
and the completed nodes `R`, over a log that already held `base` and `errs`.
A node without parents is logged at each of its publications, any other once,
as soon as it is published and its last parent has completed. -/
structure Exact (V : Finset α) (G : α → Finset α) (base : α → ℕ) (errs : List (Fault α))
    (P : List α) (R : Finset α) (s : State α) : Prop where
  children : ∀ p ∈ V, s.children p = if p ∈ R then ∅ else G p
  counter : ∀ t, s.counter t =
    if t ∈ P ∧ 0 < pending V G R t then some (pending V G R t : ℤ) else none
  known : ∀ t ∈ P, s.known t = true
  ready : ∀ t, s.ready.count t = base t +
    if parents V G t = ∅ then P.count t
    else if t ∈ P ∧ pending V G R t = 0 then 1 else 0
  faults : s.faults = errs

/-- Two states that look the same to the nodes of `V`. -/
structure State.Agree (V : Finset α) (s s' : State α) : Prop where
  children : ∀ p ∈ V, s'.children p = s.children p
  counter : s'.counter = s.counter
  known : ∀ t ∈ V, s'.known t = s.known t
  ready : ∀ t ∈ V, s'.ready.count t = s.ready.count t
  faults : s'.faults = s.faults

theorem State.Agree.refl (V : Finset α) (s : State α) : s.Agree V s :=
  ⟨fun _ _ => rfl, rfl, fun _ _ => rfl, fun _ _ => rfl, rfl⟩

theorem State.Agree.trans {V : Finset α} {s s' s'' : State α} (h : s.Agree V s')
    (h' : s'.Agree V s'') : s.Agree V s'' where
  children p hp := (h'.children p hp).trans (h.children p hp)
  counter := h'.counter.trans h.counter
  known t ht := (h'.known t ht).trans (h.known t ht)
  ready t ht := (h'.ready t ht).trans (h.ready t ht)
  faults := h'.faults.trans h.faults

namespace Exact

variable {V : Finset α} {G : α → Finset α} {base : α → ℕ} {errs : List (Fault α)}
  {P : List α} {R : Finset α} {s : State α}

/-- Nothing published and nothing completed. -/
theorem init (hchildren : ∀ p ∈ V, s.children p = G p) (hcounter : ∀ t, s.counter t = none) :
    Exact V G s.ready.count s.faults [] ∅ s where
  children p hp := by simp [hchildren p hp]
  counter t := by simp [hcounter t]
  known t ht := by simp at ht
  ready t := by simp
  faults := rfl

theorem learn (h : Exact V G base errs P R s) (t : α) :
    Exact V G base errs P R (s.learn t) where
  children := h.children
  counter := h.counter
  known x hx := by
    by_cases hxt : x = t
    · subst hxt
      exact Function.update_self ..
    · show Function.update s.known t true x = true
      rw [Function.update_of_ne hxt]
      exact h.known x hx
  ready := h.ready
  faults := h.faults

/-- A node that can be started can be announced as long as none of its parents
has completed. -/
theorem publish (h : Exact V G base errs P R s) {t : α} (hknown : s.known t = true)
    (hR : ∀ p ∈ parents V G t, p ∉ R) :
    Exact V G base errs (P ++ [t]) R (s.publish t (parents V G t).card) where
  children := h.children
  known x hx := by
    rw [List.mem_append, List.mem_singleton] at hx
    rcases hx with hx | hx
    · exact h.known x hx
    · exact hx ▸ hknown
  counter x := by
    have hcard := pending_eq_card hR
    by_cases hxt : x = t
    · subst hxt
      by_cases hroot : (parents V G x).card = 0
      · simp [State.publish, hroot, h.counter x, hcard]
      · simp [State.publish, hroot, hcard, Nat.pos_of_ne_zero hroot]
    · have hmem : x ∈ P ++ [t] ↔ x ∈ P := by simp [hxt]
      simp only [hmem, ← h.counter x]
      by_cases hroot : (parents V G t).card = 0
      · simp only [State.publish, hroot, if_true]
      · simp only [State.publish, if_neg hroot, Function.update_of_ne hxt]
  ready x := by
    have hcard := pending_eq_card hR
    by_cases hxt : x = t
    · subst hxt
      by_cases hroot : parents V G x = ∅
      · have := h.ready x
        simp only [State.publish, hroot, Finset.card_empty, if_true, List.count_append,
          List.count_singleton_self] at this ⊢
        omega
      · have hne : (parents V G x).card ≠ 0 := Finset.card_ne_zero.mpr
          (Finset.nonempty_iff_ne_empty.mpr hroot)
        have := h.ready x
        simp only [State.publish, if_neg hroot, hcard, hne, and_false, if_false] at this ⊢
        exact this
    · have hmem : x ∈ P ++ [t] ↔ x ∈ P := by simp [hxt]
      have hcount : (P ++ [t]).count x = P.count x := by
        simp [List.count_append, Ne.symm hxt]
      simp only [hcount, hmem, ← h.ready x]
      by_cases hroot : (parents V G t).card = 0
      · simp [State.publish, hroot, List.count_append, Ne.symm hxt]
      · simp [State.publish, hroot]
  faults := h.faults

/-- A second completion finds no children and changes nothing. -/
theorem complete_again (h : Exact V G base errs P R s) {p : α} {l : List α} (hp : p ∈ V)
    (hpR : p ∈ R) (hmem : ∀ c ∈ l, c ∈ s.children p) : s.complete p l = s := by
  have hempty : s.children p = ∅ := by rw [h.children p hp, if_pos hpR]
  have hnil : l = [] := by
    rw [List.eq_nil_iff_forall_not_mem]
    intro c hc
    have := hmem c hc
    simp [hempty] at this
  rw [hnil]
  cases s
  simp only [State.complete, State.decrementAll_nil] at hempty ⊢
  rw [← hempty, Function.update_eq_self]

/-! What a first completion does to a published child. -/

section Child

variable {p c : α}

theorem left_child (h : Exact V G base errs P R s) (hp : p ∈ V) (hpR : p ∉ R) (hc : c ∈ G p)
    (hcP : c ∈ P) : s.left c = pending V G (insert p R) c := by
  have hpos := pending_pos hp hc hpR
  rw [pending_insert_child hp hc hpR, State.left, h.counter c, if_pos ⟨hcP, hpos⟩,
    Option.getD_some]

theorem fires_child (h : Exact V G base errs P R s) (hp : p ∈ V) (hpR : p ∉ R) (hc : c ∈ G p)
    (hcP : c ∈ P) : s.fires c = true ↔ pending V G (insert p R) c = 0 := by
  simp [State.fires, h.left_child hp hpR hc hcP, h.known c hcP]

theorem faultOf_child (h : Exact V G base errs P R s) (hp : p ∈ V) (hpR : p ∉ R) (hc : c ∈ G p)
    (hcP : c ∈ P) : s.faultOf c = none := by
  have hnn : ¬ ((pending V G (insert p R) c : ℤ) < 0) := by omega
  simp only [State.faultOf, h.left_child hp hpR hc hcP, h.known c hcP, if_true, if_neg hnn,
    ite_self]

/-- The log gains the child if it fires. -/
theorem ready_child (h : Exact V G base errs P R s) {l : List α} (hp : p ∈ V) (hpR : p ∉ R)
    (hl : l.Nodup) (hcl : c ∈ l) (hc : c ∈ G p) (hcP : c ∈ P) :
    s.ready.count c + (l.filter s.fires).count c =
      base c + if pending V G (insert p R) c = 0 then 1 else 0 := by
  have hready := h.ready c
  have hpos := pending_pos hp hc hpR
  rw [if_neg (parents_ne_empty hp hc), if_neg (by omega)] at hready
  by_cases hzero : pending V G (insert p R) c = 0
  · have hfires := (h.fires_child hp hpR hc hcP).mpr hzero
    rw [List.count_filter hfires, List.count_eq_one_of_mem hl hcl, if_pos hzero]
    omega
  · have hnot : c ∉ l.filter s.fires := fun hm =>
      hzero ((h.fires_child hp hpR hc hcP).mp (List.mem_filter.mp hm).2)
    rw [List.count_eq_zero_of_not_mem hnot, if_neg hzero]
    omega

end Child

/-- Completing a node whose children are all published keeps the state exact;
completing it a second time changes nothing. -/
theorem complete (h : Exact V G base errs P R s) {p : α} {l : List α} (hp : p ∈ V)
    (hl : l.Nodup) (hmem : ∀ c, c ∈ l ↔ c ∈ s.children p)
    (hpub : p ∉ R → ∀ c ∈ G p, c ∈ P) :
    Exact V G base errs P (insert p R) (s.complete p l) := by
  by_cases hpR : p ∈ R
  · rw [h.complete_again hp hpR fun c hc => (hmem c).mp hc, Finset.insert_eq_of_mem hpR]
    exact h
  have hpub := hpub hpR
  -- the enumerated children are exactly the children of `p` in the graph
  have hchild : ∀ c, c ∈ l ↔ c ∈ G p := fun c => by
    rw [hmem c, h.children p hp, if_neg hpR]
  refine ⟨?_, ?_, ?_, ?_, ?_⟩
  · intro q hq
    by_cases hqp : q = p
    · subst hqp
      simp [State.complete]
    · simp only [State.complete, Function.update_of_ne hqp, Finset.mem_insert, hqp, false_or]
      exact h.children q hq
  · intro t
    simp only [State.complete, State.decrementAll_counter hl, hchild]
    by_cases ht : t ∈ G p
    · have hfires := h.fires_child hp hpR ht (hpub t ht)
      simp only [if_pos ht, hpub t ht, true_and]
      by_cases hzero : pending V G (insert p R) t = 0
      · rw [if_pos (hfires.mpr hzero), if_neg (by omega)]
      · rw [if_neg (fun hf => hzero (hfires.mp hf)), if_pos (by omega),
          h.left_child hp hpR ht (hpub t ht)]
    · rw [if_neg ht, pending_insert_other ht]
      exact h.counter t
  · intro t ht
    simp only [State.complete, State.decrementAll_known]
    exact h.known t ht
  · intro t
    simp only [State.complete, State.decrementAll_ready hl, List.count_append]
    by_cases ht : t ∈ G p
    · rw [h.ready_child hp hpR hl ((hchild t).mpr ht) ht (hpub t ht),
        if_neg (parents_ne_empty hp ht)]
      simp only [hpub t ht, true_and]
    · have hnot : t ∉ l.filter s.fires := fun hm =>
        ht ((hchild t).mp (List.mem_filter.mp hm).1)
      rw [List.count_eq_zero_of_not_mem hnot, pending_insert_other ht]
      exact h.ready t
  · have hnone : l.filterMap s.faultOf = [] := by
      rw [List.filterMap_eq_nil_iff]
      intro c hc
      have hcG := (hchild c).mp hc
      exact h.faultOf_child hp hpR hcG (hpub c hcG)
    simp only [State.complete, State.decrementAll_faults hl, hnone, List.append_nil]
    exact h.faults

/-- Others may log nodes outside `V` and change what concerns neither `V` nor
the counters. -/
theorem frame (h : Exact V G base errs P R s) (s' : State α) (hP : ∀ t ∈ P, t ∈ V)
    (hchildren : ∀ p ∈ V, s'.children p = s.children p) (hcounter : s'.counter = s.counter)
    (hknown : ∀ t ∈ V, s'.known t = s.known t)
    (hready : ∀ t ∈ V, s'.ready.count t = s.ready.count t) (hfaults : s'.faults = s.faults) :
    ∃ base', (∀ t ∈ V, base' t = base t) ∧ Exact V G base' errs P R s' := by
  refine ⟨fun t => if t ∈ V then base t else s'.ready.count t, fun t ht => if_pos ht, ?_⟩
  refine ⟨fun p hp => (hchildren p hp).trans (h.children p hp), fun t => ?_, fun t ht => ?_,
    fun t => ?_, hfaults.trans h.faults⟩
  · rw [hcounter, h.counter t]
  · rw [hknown t (hP t ht), h.known t ht]
  · by_cases ht : t ∈ V
    · rw [if_pos ht, hready t ht, h.ready t]
    · -- a node outside `V` is never published
      have htP : t ∉ P := fun hmem => ht (hP t hmem)
      simp [ht, htP, List.count_eq_zero_of_not_mem htP]

/-- What is seen of the nodes in `V` decides whether a state is exact. -/
theorem agree (h : Exact V G base errs P R s) {s' : State α} (hP : ∀ t ∈ P, t ∈ V)
    (hs : s.Agree V s') :
    ∃ base', (∀ t ∈ V, base' t = base t) ∧ Exact V G base' errs P R s' :=
  h.frame s' hP hs.children hs.counter hs.known hs.ready hs.faults

/-- A node may be logged once more from outside. -/
theorem relog (h : Exact V G base errs P R s) (t : α) :
    Exact V G (fun x => base x + if x = t then 1 else 0) errs P R
      { s with ready := s.ready ++ [t] } where
  children := h.children
  counter := h.counter
  known := h.known
  ready x := by
    have hready := h.ready x
    have hnew : [t].count x = if x = t then 1 else 0 := by
      rw [List.count_singleton]
      simp only [beq_iff_eq, @eq_comm α t x]
    rw [List.count_append, hready, hnew]
    omega
  faults := h.faults

/-- What is no node is not logged. -/
theorem count_outside (h : Exact V G base errs P R s) {t : α} (hG : ∀ p ∈ V, t ∉ G p)
    (ht : t ∉ P) : s.ready.count t = base t := by
  have hroot : parents V G t = ∅ :=
    Finset.filter_eq_empty_iff.mpr fun p hp => hG p hp
  rw [h.ready t, if_pos hroot, List.count_eq_zero_of_not_mem ht, Nat.add_zero]

/-- In an exact state whose nodes are all published, a node with accessible
ancestry is logged as soon as every logged node has completed. -/
theorem ready_of_settled (h : Exact V G base errs P R s) (hall : ∀ t ∈ V, t ∈ P)
    (hsettled : ∀ t ∈ V, base t < s.ready.count t → t ∈ R) {t : α}
    (hacc : Acc (fun p c => c ∈ G p) t) (ht : t ∈ V) : base t < s.ready.count t := by
  induction hacc with
  | intro t _ ih =>
    have hparents : parents V G t ⊆ R := fun p hp => by
      obtain ⟨hpV, hpt⟩ := mem_parents.mp hp
      exact hsettled p hpV (ih p hpt hpV)
    rw [h.ready t]
    by_cases hroot : parents V G t = ∅
    · have := List.count_pos_iff.mpr (hall t ht)
      rw [if_pos hroot]
      omega
    · rw [if_neg hroot, if_pos ⟨hall t ht, pending_eq_zero.mpr hparents⟩]
      omega

end Exact

end Countdown
