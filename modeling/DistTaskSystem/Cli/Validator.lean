import DistTaskSystem.Common.Task
import DistTaskSystem.Library.Fallible
import DistTaskSystem.Library.Kahn
import Mathlib.Data.Finset.Dedup

/-!
# DTS — the validator of the command line tool

`dag.Validate` of `dts-cli`: every task is named, every edge runs between
listed tasks, and Kahn's algorithm pops as many nodes as there are tasks. The
tasks without parents are queued in the order in which Go iterates over a map,
which is a parameter (`MapOrder`).
-/

namespace DistTaskSystem

/-- The order in which Go iterates over the keys of a map. -/
structure MapOrder where
  order : List String → List String
  perm : ∀ l, (order l).Perm l

/-- The keys as they were inserted. -/
def MapOrder.insertion : MapOrder := ⟨id, fun l => List.Perm.refl l⟩

/-- What `Validate` returns instead of nil. -/
inductive ValidateError where
  | message (text : String)
  /-- the loop ran out of fuel; see `validate_ends` -/
  | outOfFuel
deriving DecidableEq, Repr

/-- The maps `adj` and `inDegree`. -/
structure KahnGraph where
  adj : String → List String
  inDegree : String → Int

/-- One iteration of the loop over the edges. -/
def addEdge (ids : List String) (graph : KahnGraph) (edge : TaskEdge) :
    Except ValidateError KahnGraph :=
  if edge.parentNaturalId ∉ ids then
    .error (.message ("edge parent '" ++ edge.parentNaturalId ++ "' not found"))
  else if edge.childNaturalId ∉ ids then
    .error (.message ("edge child '" ++ edge.childNaturalId ++ "' not found"))
  else .ok {
    adj := Function.update graph.adj edge.parentNaturalId
      (graph.adj edge.parentNaturalId ++ [edge.childNaturalId])
    inDegree := Function.update graph.inDegree edge.childNaturalId
      (graph.inDegree edge.childNaturalId + 1) }

/-- `Validate`. -/
def validate (ord : MapOrder) (req : SubmitDagRequest) : Except ValidateError Unit := do
  if "" ∈ req.naturalIds then throw (.message "task missing natural_id")
  let graph ← req.edges.foldlM (addEdge req.naturalIds) ⟨fun _ => [], fun _ => 0⟩
  let queue := (ord.order req.naturalIds.dedup).filter fun id => graph.inDegree id = 0
  match Kahn.run graph.adj req.tasks.length queue graph.inDegree 0 with
  | none => throw .outOfFuel
  | some processedCount =>
    if processedCount ≠ req.tasks.length then
      throw (.message ("cycle detected or disconnected graph: processed " ++
        toString processedCount ++ "/" ++ toString req.tasks.length ++ " tasks"))

/-! ## What it accepts -/

section Validate

variable {ord : MapOrder} {req : SubmitDagRequest} {ids : List String}

/-- The loop over the edges ends only if all of them run between listed tasks,
and then the adjacency lists hold listed tasks only. -/
theorem addEdges_ok {edges : List TaskEdge} {graph graph' : KahnGraph}
    (hadj : ∀ u, ∀ v ∈ graph.adj u, v ∈ ids)
    (h : edges.foldlM (addEdge ids) graph = .ok graph') :
    (∀ edge ∈ edges, edge.parentNaturalId ∈ ids ∧ edge.childNaturalId ∈ ids) ∧
      ∀ u, ∀ v ∈ graph'.adj u, v ∈ ids := by
  induction edges generalizing graph with
  | nil =>
    obtain rfl := Except.ok.inj h
    exact ⟨by simp, hadj⟩
  | cons edge rest ih =>
    obtain ⟨next, hedge, hrest⟩ := Fallible.foldlM_cons_eq_ok.mp h
    unfold addEdge at hedge
    split at hedge
    · exact nomatch hedge
    · next hparent =>
      split at hedge
      · exact nomatch hedge
      · next hchild =>
        obtain rfl := Except.ok.inj hedge
        rw [not_not] at hparent hchild
        have hnext : ∀ u, ∀ v ∈ Function.update graph.adj edge.parentNaturalId
            (graph.adj edge.parentNaturalId ++ [edge.childNaturalId]) u, v ∈ ids := by
          intro u v hv
          by_cases hu : u = edge.parentNaturalId
          · subst hu
            rw [Function.update_self] at hv
            rcases List.mem_append.mp hv with hv | hv
            · exact hadj _ v hv
            · exact List.mem_singleton.mp hv ▸ hchild
          · rw [Function.update_of_ne hu] at hv
            exact hadj u v hv
        obtain ⟨hall, hadj'⟩ := ih hnext hrest
        exact ⟨List.forall_mem_cons.mpr ⟨⟨hparent, hchild⟩, hall⟩, hadj'⟩

/-- The tasks without parents are queued once each: they are keys of a map. -/
theorem once_queue (ord : MapOrder) (req : SubmitDagRequest) (graph : KahnGraph) :
    Kahn.Once req.naturalIds.toFinset
      ([] ++ (ord.order req.naturalIds.dedup).filter fun id => graph.inDegree id = 0)
      graph.inDegree := by
  have hperm := ord.perm req.naturalIds.dedup
  refine ⟨(hperm.nodup_iff.mpr (List.nodup_dedup _)).filter _, fun id hid => ?_, fun id hid => ?_⟩
  · rw [List.mem_toFinset, ← List.mem_dedup]
    exact hperm.mem_iff.mp (List.mem_filter.mp hid).1
  · have hzero := of_decide_eq_true (List.mem_filter.mp hid).2
    omega

/-- The loop over the queue ends, and counts distinct tasks. -/
theorem kahn_count (ord : MapOrder) (req : SubmitDagRequest) {graph : KahnGraph}
    (hadj : ∀ u, ∀ v ∈ graph.adj u, v ∈ req.naturalIds) :
    ∃ all : List String, all.Nodup ∧ (∀ id ∈ all, id ∈ req.naturalIds) ∧
      Kahn.run graph.adj req.tasks.length
        ((ord.order req.naturalIds.dedup).filter fun id => graph.inDegree id = 0)
        graph.inDegree 0 = some all.length := by
  have hcard : req.naturalIds.toFinset.card ≤ ([] : List String).length + req.tasks.length := by
    refine (List.toFinset_card_le req.naturalIds).trans ?_
    simp [SubmitDagRequest.naturalIds]
  obtain ⟨all, hnodup, hmem, hrun⟩ := Kahn.run_total
    (fun u v hv => List.mem_toFinset.mpr (hadj u v hv)) (once_queue ord req graph) hcard
  exact ⟨all, hnodup, fun id hid => List.mem_toFinset.mp (hmem id hid), hrun⟩

/-- The loop over the edges stops with a message only. -/
theorem addEdges_error {edges : List TaskEdge} {graph : KahnGraph}
    (h : edges.foldlM (addEdge ids) graph = .error .outOfFuel) : False := by
  induction edges generalizing graph with
  | nil => exact nomatch h
  | cons edge rest ih =>
    rw [List.foldlM_cons] at h
    cases hedge : addEdge ids graph edge with
    | ok next =>
      rw [hedge] at h
      exact ih h
    | error e =>
      rw [hedge] at h
      obtain rfl : e = .outOfFuel := Except.error.inj h
      unfold addEdge at hedge
      split at hedge
      · exact nomatch hedge
      · split at hedge <;> exact nomatch hedge

/-- `Validate` terminates. -/
theorem validate_ends (ord : MapOrder) (req : SubmitDagRequest) :
    validate ord req ≠ .error .outOfFuel := by
  intro h
  unfold validate at h
  by_cases hempty : "" ∈ req.naturalIds
  · rw [if_pos hempty] at h
    cases h
  · rw [if_neg hempty] at h
    cases hedges : req.edges.foldlM (addEdge req.naturalIds) ⟨fun _ => [], fun _ => 0⟩ with
    | error e =>
      rw [hedges] at h
      obtain rfl : e = .outOfFuel := Except.error.inj h
      exact addEdges_error hedges
    | ok graph =>
      obtain ⟨-, hadj⟩ := addEdges_ok (fun _ _ hv => absurd hv List.not_mem_nil) hedges
      obtain ⟨all, -, -, hrun⟩ := kahn_count ord req hadj
      rw [hedges] at h
      simp only [bind, Except.bind, pure, Except.pure, hrun] at h
      split at h <;> cases h

/-- **An accepted request** names its tasks, names them differently, and its
edges run between them. -/
theorem validate_ok (h : validate ord req = .ok ()) :
    "" ∉ req.naturalIds ∧ req.naturalIds.Nodup ∧
      ∀ edge ∈ req.edges,
        edge.parentNaturalId ∈ req.naturalIds ∧ edge.childNaturalId ∈ req.naturalIds := by
  unfold validate at h
  by_cases hempty : "" ∈ req.naturalIds
  · rw [if_pos hempty] at h
    cases h
  · rw [if_neg hempty] at h
    obtain ⟨graph, hedges, h⟩ := Fallible.bind_eq_ok.mp h
    obtain ⟨hlisted, hadj⟩ := addEdges_ok (fun _ _ hv => absurd hv List.not_mem_nil) hedges
    obtain ⟨all, hnodup, hmem, hrun⟩ := kahn_count ord req hadj
    simp only [hrun] at h
    refine ⟨hempty, ?_, hlisted⟩
    -- as many distinct ids as tasks: no id is used twice
    have hcount : all.length = req.naturalIds.length := by
      by_contra hne
      have hlength : req.naturalIds.length = req.tasks.length := by
        simp [SubmitDagRequest.naturalIds]
      rw [if_pos (by omega)] at h
      cases h
    have hsubset : all.toFinset ⊆ req.naturalIds.toFinset :=
      fun id hid => List.mem_toFinset.mpr (hmem id (List.mem_toFinset.mp hid))
    have hcard := Finset.card_le_card hsubset
    rw [List.toFinset_card_of_nodup hnodup, hcount, List.card_toFinset] at hcard
    have heq := (List.dedup_sublist req.naturalIds).eq_of_length_le hcard
    exact List.dedup_eq_self.mp heq

end Validate

end DistTaskSystem
