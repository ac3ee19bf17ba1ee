import DistTaskSystem.Cli.Validator
import DistTaskSystem.Client.DagBuilder
import Mathlib.Algebra.BigOperators.Group.Finset.Piecewise

/-!
# DTS — the two cycle checks

The C++ client looks for a cycle with a three-colour search before it builds a
request, the command line tool with Kahn's algorithm before it sends one. Both are
exact: what they refuse has a directed cycle, and what they accept has none.

## Results

* `validateCycle_exact` — the search, after any calls of the builder.
* `addEdges_built`      — the maps that `Validate` builds.
* `validate_exact`      — Kahn's algorithm, for any request and order of the maps.
-/

namespace DistTaskSystem

open Relation

-- ---------------------------------------------------------------------------
-- The builder
-- ---------------------------------------------------------------------------

/-- What a program does with a builder. -/
inductive BuilderCall where
  | addTask (naturalId funcName : String) (funcParams : Json)
  /-- an assignment through a reference that `AddTask` returned -/
  | editTask (naturalId : String) (edit : Task → Task)
  | addDependency (parentNaturalId childNaturalId : String)

def BuilderCall.apply (b : DagBuilder) : BuilderCall → Except BuilderError DagBuilder
  | .addTask naturalId funcName funcParams => b.addTask naturalId funcName funcParams
  | .editTask naturalId edit => .ok (b.editTask naturalId edit)
  | .addDependency parentNaturalId childNaturalId => b.addDependency parentNaturalId childNaturalId

/-- The dependencies that a list of calls adds. -/
def BuilderCall.edges (calls : List BuilderCall) : List TaskEdge :=
  calls.filterMap fun call =>
    match call with
    | .addDependency parentNaturalId childNaturalId => some ⟨parentNaturalId, childNaturalId⟩
    | _ => none

namespace DagBuilder

variable {b b' : DagBuilder}

theorem new_taskEdges {key : String} (h : DagBuilder.new key = .ok b) : b.taskEdges = [] := by
  unfold DagBuilder.new at h
  split at h
  · exact nomatch h
  · obtain rfl := Except.ok.inj h
    rfl

theorem addTask_taskEdges {naturalId funcName : String} {funcParams : Json}
    (h : b.addTask naturalId funcName funcParams = .ok b') : b'.taskEdges = b.taskEdges := by
  unfold DagBuilder.addTask at h
  split at h
  · exact nomatch h
  · obtain rfl := Except.ok.inj h
    rfl

theorem addDependency_taskEdges {parentNaturalId childNaturalId : String}
    (h : b.addDependency parentNaturalId childNaturalId = .ok b') :
    b'.taskEdges = b.taskEdges ++ [⟨parentNaturalId, childNaturalId⟩] := by
  unfold DagBuilder.addDependency at h
  split at h
  · exact nomatch h
  · split at h
    · split at h
      · obtain rfl := Except.ok.inj h
        rfl
      · exact nomatch h
    · exact nomatch h

/-- A builder has the dependencies of the calls, in order. -/
theorem calls_taskEdges {calls : List BuilderCall}
    (h : calls.foldlM BuilderCall.apply b = .ok b') :
    b'.taskEdges = b.taskEdges ++ BuilderCall.edges calls := by
  induction calls generalizing b with
  | nil =>
    obtain rfl := Except.ok.inj h
    exact (List.append_nil _).symm
  | cons call rest ih =>
    obtain ⟨next, hcall, hrest⟩ := Fallible.foldlM_cons_eq_ok.mp h
    rw [ih hrest]
    cases call with
    | addTask naturalId funcName funcParams =>
      rw [addTask_taskEdges hcall]
      rfl
    | editTask naturalId edit =>
      obtain rfl := Except.ok.inj hcall
      rfl
    | addDependency parentNaturalId childNaturalId =>
      rw [addDependency_taskEdges hcall, List.append_assoc]
      rfl

/-- An answer that is neither acceptance nor the end of the fuel is an exception. -/
theorem validateCycle_throws_iff (b : DagBuilder) :
    (∃ msg, b.validateCycle = .error (.runtimeError msg)) ↔ b.validateCycle ≠ .ok () := by
  have hends := validateCycle_ends b
  rw [validateCycle] at hends ⊢
  cases hres : Dfs.search b.adj b.tasksMap.length b.keys fun _ => .white with
  | none =>
    rw [hres] at hends
    exact absurd rfl hends
  | some answer =>
    cases answer with
    | none =>
      refine iff_of_false ?_ fun h => h rfl
      rintro ⟨_, h⟩
      cases h
    | some startNode =>
      refine iff_of_true ⟨_, rfl⟩ fun h => ?_
      cases h

/-- **The search is exact.** After any calls of a builder that succeeded,
`ValidateCycle` ends, and it throws exactly if the dependencies contain a directed
cycle. -/
theorem validateCycle_exact {key : String} {b₀ b : DagBuilder} {calls : List BuilderCall}
    (hnew : DagBuilder.new key = .ok b₀) (hcalls : calls.foldlM BuilderCall.apply b₀ = .ok b) :
    b.validateCycle ≠ .error .outOfFuel ∧
      ((∃ msg, b.validateCycle = .error (.runtimeError msg)) ↔
        ∃ x, TransGen (fun p c => (⟨p, c⟩ : TaskEdge) ∈ BuilderCall.edges calls) x x) := by
  refine ⟨validateCycle_ends b, ?_⟩
  have hedges : b.taskEdges = BuilderCall.edges calls := by
    rw [calls_taskEdges hcalls, new_taskEdges hnew, List.nil_append]
  have hrel : Dfs.Edge b.adj = fun p c => (⟨p, c⟩ : TaskEdge) ∈ BuilderCall.edges calls := by
    funext p c
    rw [← hedges]
    exact propext mem_adj
  rw [validateCycle_throws_iff, Ne, validateCycle_ok_iff, hrel]
  exact not_forall_not

/-- A cycle of three tasks that `AddDependency` does not see. -/
def triangleCalls : List BuilderCall :=
  [.addTask "A" "func" .null, .addTask "B" "func" .null, .addTask "C" "func" .null,
    .addDependency "A" "B", .addDependency "B" "C", .addDependency "C" "A"]

theorem validateCycle_exact_triangle :
    ∃ b₀ b, DagBuilder.new "key_cycle_2" = .ok b₀ ∧
      triangleCalls.foldlM BuilderCall.apply b₀ = .ok b ∧
      ∃ msg, b.validateCycle = .error (.runtimeError msg) := by
  obtain ⟨b₀, hnew⟩ : ∃ b₀, DagBuilder.new "key_cycle_2" = .ok b₀ := ⟨_, rfl⟩
  obtain ⟨b, hcalls⟩ : ∃ b, triangleCalls.foldlM BuilderCall.apply b₀ = .ok b := by
    obtain rfl := Except.ok.inj hnew
    exact ⟨_, rfl⟩
  refine ⟨b₀, b, hnew, hcalls, ((validateCycle_exact hnew hcalls).2).mpr ⟨"A", ?_⟩⟩
  refine .head (b := "B") (by decide) (.head (b := "C") (by decide) (.single (by decide)))

end DagBuilder

-- ---------------------------------------------------------------------------
-- The maps of Validate
-- ---------------------------------------------------------------------------

section Validate

variable {ids : List String} {edges : List TaskEdge}

/-- The maps after the loop over the edges. -/
structure KahnGraph.Built (ids : List String) (edges : List TaskEdge) (graph : KahnGraph) :
    Prop where
  adj : ∀ p c, c ∈ graph.adj p ↔ (⟨p, c⟩ : TaskEdge) ∈ edges
  inDegree : ∀ c, graph.inDegree c = Kahn.openEdges graph.adj ids.toFinset [] c

theorem KahnGraph.built_nil (ids : List String) : KahnGraph.Built ids [] ⟨fun _ => [], fun _ => 0⟩ where
  adj p c := by simp
  inDegree c := by simp [Kahn.openEdges]

/-- **One edge.** -/
theorem KahnGraph.Built.addEdge {graph graph' : KahnGraph} {edge : TaskEdge}
    (h : graph.Built ids edges) (hedge : addEdge ids graph edge = .ok graph') :
    graph'.Built ids (edges ++ [edge]) := by
  unfold DistTaskSystem.addEdge at hedge
  split at hedge
  · exact nomatch hedge
  · next hparent =>
    split at hedge
    · exact nomatch hedge
    · obtain rfl := Except.ok.inj hedge
      rw [not_not] at hparent
      refine ⟨fun p c => ?_, fun c => ?_⟩
      · show c ∈ Function.update graph.adj edge.parentNaturalId _ p ↔ _
        rw [List.mem_append, List.mem_singleton, ← h.adj p c]
        by_cases hp : p = edge.parentNaturalId
        · subst hp
          rw [Function.update_self, List.mem_append, List.mem_singleton]
          refine or_congr_right ⟨fun hc => hc ▸ rfl, fun hc => hc ▸ rfl⟩
        · rw [Function.update_of_ne hp]
          exact (or_iff_left fun hc => hp (congrArg TaskEdge.parentNaturalId hc)).symm
      · show Function.update graph.inDegree edge.childNaturalId _ c =
          (Kahn.openEdges (Function.update graph.adj edge.parentNaturalId _) _ _ _ : Nat)
        rw [Kahn.openEdges_addEdge graph.adj (List.mem_toFinset.mpr hparent) List.not_mem_nil]
        push_cast
        rw [← h.inDegree c]
        by_cases hc : c = edge.childNaturalId
        · subst hc
          rw [Function.update_self, List.count_singleton_self]
          rfl
        · rw [Function.update_of_ne hc, List.count_singleton, if_neg]
          · exact (add_zero _).symm
          · simpa using Ne.symm hc

/-- The loop over the edges ends if all of them run between listed tasks. -/
theorem addEdges_total {graph : KahnGraph} (hlisted : ∀ edge ∈ edges,
      edge.parentNaturalId ∈ ids ∧ edge.childNaturalId ∈ ids) :
    ∃ graph', edges.foldlM (addEdge ids) graph = .ok graph' := by
  induction edges generalizing graph with
  | nil => exact ⟨graph, rfl⟩
  | cons edge rest ih =>
    obtain ⟨⟨hparent, hchild⟩, hrest⟩ := List.forall_mem_cons.mp hlisted
    obtain ⟨next, hedge⟩ : ∃ next, addEdge ids graph edge = .ok next := by
      unfold addEdge
      rw [if_neg (not_not.mpr hparent), if_neg (not_not.mpr hchild)]
      exact ⟨_, rfl⟩
    obtain ⟨graph', hgraph'⟩ : ∃ graph', rest.foldlM (addEdge ids) next = .ok graph' := ih hrest
    exact ⟨graph', Fallible.foldlM_cons_eq_ok.mpr ⟨next, hedge, hgraph'⟩⟩

/-- The loop over the edges, from any maps. -/
theorem addEdges_built {more : List TaskEdge} {graph graph' : KahnGraph}
    (h : graph.Built ids edges) (hmore : more.foldlM (addEdge ids) graph = .ok graph') :
    graph'.Built ids (edges ++ more) := by
  induction more generalizing graph edges with
  | nil =>
    obtain rfl := Except.ok.inj hmore
    rwa [List.append_nil]
  | cons edge rest ih =>
    obtain ⟨next, hedge, hrest⟩ := Fallible.foldlM_cons_eq_ok.mp hmore
    have hnext := ih (h.addEdge hedge) hrest
    rwa [List.append_assoc] at hnext

/-- An edge of a request. -/
def SubmitDagRequest.Edge (req : SubmitDagRequest) (p c : String) : Prop :=
  (⟨p, c⟩ : TaskEdge) ∈ req.edges

variable {req : SubmitDagRequest} {graph : KahnGraph}

/-- The queue and the counters before the first pop. -/
theorem exact_queue (ord : MapOrder) (hbuilt : graph.Built req.naturalIds req.edges)
    (hlisted : ∀ edge ∈ req.edges, edge.parentNaturalId ∈ req.naturalIds) :
    Kahn.Exact graph.adj req.naturalIds.toFinset []
      ((ord.order req.naturalIds.dedup).filter fun id => graph.inDegree id = 0)
      graph.inDegree := by
  refine ⟨once_queue ord req graph, hbuilt.inDegree, fun v hv hzero => ?_, fun v hv => ?_⟩
  · have hdegree := hbuilt.inDegree v
    rw [List.nil_append, List.mem_filter, (ord.perm _).mem_iff, List.mem_dedup]
    exact ⟨List.mem_toFinset.mp hv, decide_eq_true (by omega)⟩
  · -- a task of the queue has no parent at all
    have hdegree := hbuilt.inDegree v
    have hzero := of_decide_eq_true (List.mem_filter.mp hv).2
    refine Acc.intro v fun u hu => absurd ?_ (List.not_mem_nil (a := u))
    have hparent := hlisted _ ((hbuilt.adj u v).mp hu)
    exact Kahn.mem_of_openEdges (by omega) hu (List.mem_toFinset.mpr hparent)

/-- **What the loop over the queue decides**, once the maps are built. -/
theorem validate_ok_iff_count (ord : MapOrder) (hempty : "" ∉ req.naturalIds)
    (hedges : req.edges.foldlM (addEdge req.naturalIds) ⟨fun _ => [], fun _ => 0⟩ = .ok graph) :
    ∃ all : List String, all.Nodup ∧ (∀ v, v ∈ all ↔ v ∈ req.naturalIds ∧ Acc req.Edge v) ∧
      (validate ord req = .ok () ↔ all.length = req.naturalIds.length) := by
  obtain ⟨hlisted, -⟩ := addEdges_ok (fun _ _ hv => absurd hv List.not_mem_nil) hedges
  have hbuilt := addEdges_built (KahnGraph.built_nil req.naturalIds) hedges
  rw [List.nil_append] at hbuilt
  have hrel : (fun u v => v ∈ graph.adj u) = req.Edge := by
    funext u v
    exact propext (hbuilt.adj u v)
  have hcard : req.naturalIds.toFinset.card ≤ req.tasks.length := by
    refine (List.toFinset_card_le req.naturalIds).trans ?_
    simp [SubmitDagRequest.naturalIds]
  obtain ⟨all, hnodup, hmem, hrun⟩ := Kahn.run_exact
    (fun u v hv => by
      have hedge := hlisted _ ((hbuilt.adj u v).mp hv)
      exact ⟨List.mem_toFinset.mpr hedge.2, List.mem_toFinset.mpr hedge.1⟩)
    (exact_queue ord hbuilt fun edge hedge => (hlisted edge hedge).1) hcard
  refine ⟨all, hnodup, fun v => ?_, ?_⟩
  · rw [hmem v, List.mem_toFinset, hrel]
  · have hlength : req.naturalIds.length = req.tasks.length := by
      simp [SubmitDagRequest.naturalIds]
    unfold validate
    rw [if_neg hempty]
    simp only [hedges, bind, Except.bind, pure, Except.pure, hrun]
    by_cases hcount : all.length = req.tasks.length
    · rw [if_neg (not_not.mpr hcount)]
      exact iff_of_true rfl (hcount.trans hlength.symm)
    · rw [if_pos hcount]
      refine iff_of_false (fun h => ?_) fun h => hcount (h.trans hlength)
      cases h

/-- Distinct nodes are as many as the list is long exactly if they are all of it. -/
theorem length_eq_iff {α : Type} {all l : List α} (hall : all.Nodup) (hsub : all ⊆ l) :
    all.length = l.length ↔ l.Nodup ∧ ∀ x ∈ l, x ∈ all := by
  constructor
  · intro hlength
    have hperm := (hall.subperm hsub).perm_of_length_le hlength.ge
    exact ⟨hperm.nodup_iff.mp hall, fun x hx => hperm.mem_iff.mpr hx⟩
  · rintro ⟨hl, hcover⟩
    exact ((List.perm_ext_iff_of_nodup hall hl).mpr fun x => ⟨fun hx => hsub hx, hcover x⟩).length_eq

/-- Between listed tasks, no infinite path leads to a task exactly if no path is closed. -/
theorem SubmitDagRequest.acc_iff_acyclic
    (hlisted : ∀ edge ∈ req.edges,
      edge.parentNaturalId ∈ req.naturalIds ∧ edge.childNaturalId ∈ req.naturalIds) :
    (∀ v ∈ req.naturalIds, Acc req.Edge v) ↔ ∀ x, ¬ TransGen req.Edge x x := by
  have hfin : {x | ∃ y, req.Edge x y ∨ req.Edge y x}.Finite := by
    refine (List.finite_toSet req.naturalIds).subset ?_
    rintro x ⟨y, hxy | hyx⟩
    · exact (hlisted _ hxy).1
    · exact (hlisted _ hyx).2
  rw [← Dfs.wellFounded_iff_acyclic hfin]
  refine ⟨fun h => ⟨fun v => ?_⟩, fun hwf v _ => hwf.apply v⟩
  by_cases hv : v ∈ req.naturalIds
  · exact h v hv
  · exact Acc.intro v fun u hu => absurd (hlisted _ hu).2 hv

/-- **Kahn's algorithm is exact.** For every request and every order in which Go
iterates over its maps, `Validate` ends, and it returns nil exactly if the natural ids
are distinct and not empty, the edges join listed tasks, and no path along them is
closed. -/
theorem validate_exact (ord : MapOrder) (req : SubmitDagRequest) :
    validate ord req ≠ .error .outOfFuel ∧
      (validate ord req = .ok () ↔
        (∀ id ∈ req.naturalIds, id ≠ "") ∧ req.naturalIds.Nodup ∧
        (∀ edge ∈ req.edges,
          edge.parentNaturalId ∈ req.naturalIds ∧ edge.childNaturalId ∈ req.naturalIds) ∧
        ∀ x, ¬ TransGen (fun p c => (⟨p, c⟩ : TaskEdge) ∈ req.edges) x x) := by
  refine ⟨validate_ends ord req, fun hvalid => ?_, ?_⟩
  · obtain ⟨hempty, hnodup, hlisted⟩ := validate_ok hvalid
    refine ⟨fun id hid heq => hempty (heq ▸ hid), hnodup, hlisted, ?_⟩
    obtain ⟨graph, hedges⟩ := addEdges_total hlisted
    obtain ⟨all, hall, hmem, hcount⟩ := validate_ok_iff_count ord hempty hedges
    have hcover := ((length_eq_iff hall fun v hv => ((hmem v).mp hv).1).mp (hcount.mp hvalid)).2
    exact (SubmitDagRequest.acc_iff_acyclic hlisted).mp fun v hv => ((hmem v).mp (hcover v hv)).2
  · rintro ⟨hnames, hnodup, hlisted, hacyclic⟩
    have hempty : "" ∉ req.naturalIds := fun hmem => hnames "" hmem rfl
    obtain ⟨graph, hedges⟩ := addEdges_total hlisted
    obtain ⟨all, hall, hmem, hcount⟩ := validate_ok_iff_count ord hempty hedges
    have hacc := (SubmitDagRequest.acc_iff_acyclic hlisted).mpr hacyclic
    exact hcount.mpr ((length_eq_iff hall fun v hv => ((hmem v).mp hv).1).mpr
      ⟨hnodup, fun v hv => (hmem v).mpr ⟨hv, hacc v hv⟩⟩)

end Validate

end DistTaskSystem
