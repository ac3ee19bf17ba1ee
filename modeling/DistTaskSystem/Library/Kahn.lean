import Mathlib.Algebra.BigOperators.Group.Finset.Basic
import Mathlib.Data.Finset.Card
import Mathlib.Logic.Function.Basic

/-!
# DTS — Kahn's algorithm

The queue of nodes without open parents, over any type of nodes: a node is
popped, the counter of each of its successors is decremented, and a successor
whose counter reached zero is queued.

`run_total` shows what holds whatever the counters are: no node is popped
twice, so the number of pops is at most the number of nodes, and that much fuel
is enough. `run_exact` shows what is popped if the counters start as the numbers
of edges, repeated ones counted: the nodes that no infinite path leads to.
-/

namespace DistTaskSystem

namespace Kahn

variable {α : Type} [DecidableEq α]

/-- One successor of a popped node. -/
def relax (s : (α → Int) × List α) (v : α) : (α → Int) × List α :=
  (Function.update s.1 v (s.1 v - 1), if s.1 v - 1 = 0 then s.2 ++ [v] else s.2)

/-- The loop; the result is the number of pops. -/
def run (adj : α → List α) : Nat → List α → (α → Int) → Nat → Option Nat
  | _, [], _, count => some count
  | 0, _ :: _, _, _ => none
  | fuel + 1, u :: queue, inDegree, count =>
    let s := (adj u).foldl relax (inDegree, queue)
    run adj fuel s.2 s.1 (count + 1)

/-- The nodes seen so far are distinct nodes without open parents. -/
structure Once (V : Finset α) (seen : List α) (inDegree : α → Int) : Prop where
  nodup : seen.Nodup
  mem : ∀ x ∈ seen, x ∈ V
  closed : ∀ x ∈ seen, inDegree x ≤ 0

variable {V : Finset α} {popped : List α} {s : (α → Int) × List α}

/-- A counter passes zero only once, on the way down: a seen node is not queued
again. -/
theorem Once.relax (h : Once V (popped ++ s.2) s.1) {v : α} (hv : v ∈ V) :
    Once V (popped ++ (relax s v).2) (relax s v).1 := by
  have hclosed : ∀ x ∈ popped ++ s.2, (Kahn.relax s v).1 x ≤ 0 := by
    intro x hx
    have hold := h.closed x hx
    show Function.update s.1 v (s.1 v - 1) x ≤ 0
    by_cases heq : x = v
    · subst heq
      rw [Function.update_self]
      omega
    · rwa [Function.update_of_ne heq]
  by_cases hzero : s.1 v - 1 = 0
  · -- the counter was one, so the node is new
    have hnew : v ∉ popped ++ s.2 := by
      intro hmem
      have hold := h.closed v hmem
      omega
    have hqueue : popped ++ (Kahn.relax s v).2 = popped ++ s.2 ++ [v] := by
      show popped ++ (if s.1 v - 1 = 0 then s.2 ++ [v] else s.2) = _
      rw [if_pos hzero, List.append_assoc]
    rw [hqueue]
    refine ⟨?_, fun x hx => ?_, fun x hx => ?_⟩
    · rw [← List.concat_eq_append]
      exact h.nodup.concat hnew
    · rcases List.mem_append.mp hx with hx | hx
      · exact h.mem x hx
      · exact List.mem_singleton.mp hx ▸ hv
    · rcases List.mem_append.mp hx with hx | hx
      · exact hclosed x hx
      · obtain rfl := List.mem_singleton.mp hx
        show Function.update s.1 x (s.1 x - 1) x ≤ 0
        rw [Function.update_self]
        omega
  · have hqueue : (Kahn.relax s v).2 = s.2 := by
      show (if s.1 v - 1 = 0 then s.2 ++ [v] else s.2) = _
      rw [if_neg hzero]
    rw [hqueue]
    exact ⟨h.nodup, h.mem, hclosed⟩

theorem Once.foldl {successors : List α} (hsucc : ∀ v ∈ successors, v ∈ V)
    (h : Once V (popped ++ s.2) s.1) :
    Once V (popped ++ (successors.foldl Kahn.relax s).2) (successors.foldl Kahn.relax s).1 := by
  induction successors generalizing s with
  | nil => exact h
  | cons v rest ih =>
    obtain ⟨hv, hrest⟩ := List.forall_mem_cons.mp hsucc
    exact ih hrest (h.relax hv)

/-- **Invariant rule for the loop.** What each pop keeps, and what bounds the nodes
seen, holds of the nodes popped in the end. -/
theorem run_ends {adj : α → List α} {n : Nat} {P : List α → List α → (α → Int) → Prop}
    (hpop : ∀ popped u rest inDegree, P popped (u :: rest) inDegree →
      P (popped ++ [u]) ((adj u).foldl relax (inDegree, rest)).2
        ((adj u).foldl relax (inDegree, rest)).1)
    (hbound : ∀ popped queue inDegree, P popped queue inDegree → (popped ++ queue).length ≤ n)
    {fuel : Nat} {queue : List α} {inDegree : α → Int} (h : P popped queue inDegree)
    (hfuel : n ≤ popped.length + fuel) :
    ∃ all inDegree', P all [] inDegree' ∧
      run adj fuel queue inDegree popped.length = some all.length := by
  induction fuel generalizing popped queue inDegree with
  | zero =>
    cases queue with
    | nil =>
      refine ⟨popped, inDegree, h, ?_⟩
      unfold run
      rfl
    | cons u rest =>
      -- all nodes were popped, so none is left to be queued
      exfalso
      have hle := hbound popped (u :: rest) inDegree h
      rw [List.length_append, List.length_cons] at hle
      omega
  | succ fuel ih =>
    cases queue with
    | nil =>
      refine ⟨popped, inDegree, h, ?_⟩
      unfold run
      rfl
    | cons u rest =>
      have hlength : (popped ++ [u]).length = popped.length + 1 := by simp
      obtain ⟨all, inDegree', hall, hrun⟩ := ih (hpop popped u rest inDegree h) (by omega)
      refine ⟨all, inDegree', hall, ?_⟩
      unfold run
      rwa [hlength] at hrun

theorem Once.length_le {seen : List α} {inDegree : α → Int} (h : Once V seen inDegree) :
    seen.length ≤ V.card := by
  rw [← List.toFinset_card_of_nodup h.nodup]
  exact Finset.card_le_card fun x hx => h.mem x (List.mem_toFinset.mp hx)

theorem Once.pop {adj : α → List α} (hadj : ∀ u, ∀ v ∈ adj u, v ∈ V) {u : α} {rest : List α}
    {inDegree : α → Int} (h : Once V (popped ++ u :: rest) inDegree) :
    Once V (popped ++ [u] ++ ((adj u).foldl Kahn.relax (inDegree, rest)).2)
      ((adj u).foldl Kahn.relax (inDegree, rest)).1 := by
  have hshift : popped ++ u :: rest = popped ++ [u] ++ rest := by simp
  rw [hshift] at h
  exact Once.foldl (s := (inDegree, rest)) (hadj u) h

/-- **The loop ends**, and what it counted are distinct nodes. -/
theorem run_total {adj : α → List α} (hadj : ∀ u, ∀ v ∈ adj u, v ∈ V) {fuel : Nat}
    {queue : List α} {inDegree : α → Int} (h : Once V (popped ++ queue) inDegree)
    (hfuel : V.card ≤ popped.length + fuel) :
    ∃ all : List α, all.Nodup ∧ (∀ x ∈ all, x ∈ V) ∧
      run adj fuel queue inDegree popped.length = some all.length := by
  obtain ⟨all, inDegree', hall, hrun⟩ :=
    run_ends (P := fun popped queue inDegree => Once V (popped ++ queue) inDegree)
      (fun popped u rest inDegree h => h.pop hadj) (fun popped queue inDegree h => h.length_le)
      h hfuel
  rw [List.append_nil] at hall
  exact ⟨all, hall.nodup, hall.mem, hrun⟩

/-! ## What is counted -/

/-- The edges into a node whose source was not popped. -/
def openEdges (adj : α → List α) (V : Finset α) (popped : List α) (v : α) : Nat :=
  ∑ u ∈ V with u ∉ popped, (adj u).count v

/-- The counters are the numbers of open edges, the nodes seen are those without one,
and no path backwards from a node seen is infinite. -/
structure Exact (adj : α → List α) (V : Finset α) (popped queue : List α)
    (inDegree : α → Int) : Prop where
  once : Once V (popped ++ queue) inDegree
  counts : ∀ v, inDegree v = openEdges adj V popped v
  seen : ∀ v ∈ V, openEdges adj V popped v = 0 → v ∈ popped ++ queue
  acc : ∀ v ∈ popped ++ queue, Acc (fun u v => v ∈ adj u) v

theorem foldl_relax_inDegree (successors : List α) (v : α) :
    (successors.foldl relax s).1 v = s.1 v - successors.count v := by
  induction successors generalizing s with
  | nil => simp
  | cons w rest ih =>
    rw [List.foldl_cons, ih]
    show Function.update s.1 w (s.1 w - 1) v - _ = _
    by_cases hvw : v = w
    · subst hvw
      rw [Function.update_self, List.count_cons_self]
      omega
    · rw [Function.update_of_ne hvw, List.count_cons_of_ne (Ne.symm hvw)]

/-- A successor is queued as its counter passes zero. -/
theorem mem_foldl_relax (successors : List α) (v : α) :
    v ∈ (successors.foldl relax s).2 ↔
      v ∈ s.2 ∨ (0 < s.1 v ∧ s.1 v ≤ successors.count v) := by
  induction successors generalizing s with
  | nil =>
    rw [List.foldl_nil, List.count_nil]
    exact (or_iff_left fun h => by omega).symm
  | cons w rest ih =>
    have hqueue : v ∈ (relax s w).2 ↔ v ∈ s.2 ∨ (v = w ∧ s.1 w = 1) := by
      show v ∈ (if s.1 w - 1 = 0 then s.2 ++ [w] else s.2) ↔ _
      split
      · next hzero =>
        rw [List.mem_append, List.mem_singleton]
        exact or_congr_right ⟨fun h => ⟨h, by omega⟩, fun h => h.1⟩
      · next hzero => exact (or_iff_left fun h => hzero (by omega)).symm
    rw [List.foldl_cons, ih, hqueue, or_assoc]
    refine or_congr_right ?_
    show _ ∨ (0 < Function.update s.1 w (s.1 w - 1) v ∧
      Function.update s.1 w (s.1 w - 1) v ≤ _) ↔ _
    by_cases hvw : v = w
    · subst hvw
      rw [Function.update_self, List.count_cons_self, eq_self, true_and]
      omega
    · rw [Function.update_of_ne hvw, List.count_cons_of_ne (Ne.symm hvw)]
      exact or_iff_right fun h => hvw h.1

/-- Popping a node closes its edges. -/
theorem openEdges_pop (adj : α → List α) {u : α} (hu : u ∈ V) (hnew : u ∉ popped) (v : α) :
    openEdges adj V (popped ++ [u]) v + (adj u).count v = openEdges adj V popped v := by
  have herase : (V.filter fun w => w ∉ popped ++ [u]) = (V.filter fun w => w ∉ popped).erase u := by
    ext w
    simp only [Finset.mem_filter, Finset.mem_erase, List.mem_append, List.mem_singleton]
    tauto
  rw [openEdges, herase]
  exact Finset.sum_erase_add _ _ (Finset.mem_filter.mpr ⟨hu, hnew⟩)

/-- One more edge from a node that was not popped. -/
theorem openEdges_addEdge (adj : α → List α) {p : α} (hp : p ∈ V) (hnew : p ∉ popped) (c v : α) :
    openEdges (Function.update adj p (adj p ++ [c])) V popped v =
      openEdges adj V popped v + [c].count v := by
  have hmem : p ∈ V.filter fun w => w ∉ popped := Finset.mem_filter.mpr ⟨hp, hnew⟩
  have hrest : ∑ u ∈ (V.filter fun w => w ∉ popped).erase p,
      (Function.update adj p (adj p ++ [c]) u).count v =
      ∑ u ∈ (V.filter fun w => w ∉ popped).erase p, (adj u).count v := by
    refine Finset.sum_congr rfl fun u hu => ?_
    rw [Function.update_of_ne (Finset.ne_of_mem_erase hu)]
  rw [openEdges, openEdges, ← Finset.sum_erase_add _ _ hmem, hrest, Function.update_self,
    List.count_append, ← add_assoc, Finset.sum_erase_add _ _ hmem]

theorem mem_of_openEdges {adj : α → List α} {u v : α} (hopen : openEdges adj V popped v = 0)
    (huv : v ∈ adj u) (hu : u ∈ V) : u ∈ popped := by
  by_contra hnot
  have hzero := Finset.sum_eq_zero_iff.mp hopen u (Finset.mem_filter.mpr ⟨hu, hnot⟩)
  exact List.count_eq_zero.mp hzero huv

/-- **One pop.** -/
theorem Exact.pop {adj : α → List α} (hadj : ∀ u, ∀ v ∈ adj u, v ∈ V ∧ u ∈ V) {u : α}
    {rest : List α} {inDegree : α → Int} (h : Exact adj V popped (u :: rest) inDegree) :
    Exact adj V (popped ++ [u]) ((adj u).foldl relax (inDegree, rest)).2
      ((adj u).foldl relax (inDegree, rest)).1 := by
  have hu : u ∈ popped ++ u :: rest := by simp
  have hnew : u ∉ popped := by
    intro hmem
    exact (List.nodup_append.mp h.once.nodup).2.2 u hmem u List.mem_cons_self rfl
  have hclose := openEdges_pop adj (h.once.mem u hu) hnew
  have hshift : ∀ v, v ∈ popped ++ [u] ++ ((adj u).foldl relax (inDegree, rest)).2 ↔
      v ∈ popped ++ u :: rest ∨ (0 < inDegree v ∧ inDegree v ≤ (adj u).count v) := by
    intro v
    rw [List.mem_append, mem_foldl_relax, ← or_assoc, ← List.mem_append, List.append_assoc]
    rfl
  have hseen : ∀ v ∈ V, openEdges adj V (popped ++ [u]) v = 0 →
      v ∈ popped ++ [u] ++ ((adj u).foldl relax (inDegree, rest)).2 := by
    intro v hv hzero
    rw [hshift]
    by_cases hold : openEdges adj V popped v = 0
    · exact .inl (h.seen v hv hold)
    · -- the last open edges were those of the popped node
      have hcount := h.counts v
      have hclosed := hclose v
      exact .inr (by omega)
  refine ⟨h.once.pop fun u v hv => (hadj u v hv).1, fun v => ?_, hseen, fun v hv => ?_⟩
  · have hcount := h.counts v
    have hclosed := hclose v
    rw [foldl_relax_inDegree]
    show inDegree v - _ = _
    omega
  · rcases (hshift v).mp hv with hold | ⟨hpos, hle⟩
    · exact h.acc v hold
    · -- the sources of its edges were all popped before
      have hcount := h.counts v
      have hclosed := hclose v
      have hzero : openEdges adj V (popped ++ [u]) v = 0 := by omega
      refine Acc.intro v fun w hw => ?_
      have hpopped := mem_of_openEdges hzero hw (hadj w v hw).2
      refine h.acc w ?_
      rcases List.mem_append.mp hpopped with hmem | hmem
      · exact List.mem_append_left _ hmem
      · exact List.mem_singleton.mp hmem ▸ hu

/-- **What is popped** are exactly the nodes that no infinite path leads to. -/
theorem run_exact {adj : α → List α} (hadj : ∀ u, ∀ v ∈ adj u, v ∈ V ∧ u ∈ V) {fuel : Nat}
    {queue : List α} {inDegree : α → Int} (h : Exact adj V [] queue inDegree)
    (hfuel : V.card ≤ fuel) :
    ∃ all : List α, all.Nodup ∧ (∀ v, v ∈ all ↔ v ∈ V ∧ Acc (fun u v => v ∈ adj u) v) ∧
      run adj fuel queue inDegree 0 = some all.length := by
  have hfuel : V.card ≤ ([] : List α).length + fuel := by rwa [List.length_nil, Nat.zero_add]
  obtain ⟨all, inDegree', hall, hrun⟩ := run_ends (P := Exact adj V)
    (fun popped u rest inDegree h => h.pop hadj) (fun popped queue inDegree h => h.once.length_le)
    h hfuel
  refine ⟨all, by simpa using hall.once.nodup, fun v => ⟨fun hv => ?_, ?_⟩, hrun⟩
  · have hv : v ∈ all ++ [] := by simpa using hv
    exact ⟨hall.once.mem v hv, hall.acc v hv⟩
  · rintro ⟨hv, hacc⟩
    induction hacc with
    | intro v _ ih =>
      -- an open edge would start at a node that was not popped
      have hzero : openEdges adj V all v = 0 := by
        refine Finset.sum_eq_zero fun w hw => ?_
        rw [Finset.mem_filter] at hw
        exact List.count_eq_zero.mpr fun hwv => hw.2 (ih w hwv hw.1)
      simpa using hall.seen v hv hzero

end Kahn

end DistTaskSystem
