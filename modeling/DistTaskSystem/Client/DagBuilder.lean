import DistTaskSystem.Common.Task
import DistTaskSystem.Library.Dfs
import Mathlib.Data.String.Basic

/-!
# DTS — the client-side DAG builder

`DagBuilder` collects tasks and edges and refuses a graph with a cycle when
the request is built. The map of tasks is a list sorted by key, as
`std::map` iterates; every edge joins two different keys.

`AddTask` returns a reference, through which the caller may still assign any
field of the task, its natural id included: `editTask`.
-/

namespace DistTaskSystem

/-- What a method throws. -/
inductive BuilderError where
  | invalidArgument (msg : String)
  | runtimeError (msg : String)
  /-- the protobuf library gives up on a repeated field beyond `INT_MAX` -/
  | aborted
  /-- the search ran out of fuel; see `validateCycle_ends` -/
  | outOfFuel
deriving DecidableEq, Repr

/-- `DagBuilder`. -/
structure DagBuilder where
  idempotencyKey : String
  tasksMap : List (String × Task)
  taskEdges : List TaskEdge
  keyNonempty : idempotencyKey ≠ ""
  sorted : (tasksMap.map Prod.fst).Pairwise (· < ·)
  parentListed : ∀ edge ∈ taskEdges, edge.parentNaturalId ∈ tasksMap.map Prod.fst
  childListed : ∀ edge ∈ taskEdges, edge.childNaturalId ∈ tasksMap.map Prod.fst
  noLoop : ∀ edge ∈ taskEdges, edge.parentNaturalId ≠ edge.childNaturalId

/-- `emplace` of a new key. -/
def mapEmplace (key : String) (task : Task) : List (String × Task) → List (String × Task)
  | [] => [(key, task)]
  | entry :: rest =>
    if key < entry.1 then (key, task) :: entry :: rest else entry :: mapEmplace key task rest

theorem mem_mapEmplace {key k : String} {task : Task} {l : List (String × Task)} :
    k ∈ (mapEmplace key task l).map Prod.fst ↔ k = key ∨ k ∈ l.map Prod.fst := by
  induction l with
  | nil => simp [mapEmplace]
  | cons entry rest ih =>
    rw [mapEmplace]
    split
    · simp
    · simp only [List.map_cons, List.mem_cons, ih]
      exact or_left_comm

theorem mapEmplace_sorted {key : String} {task : Task} {l : List (String × Task)}
    (hl : (l.map Prod.fst).Pairwise (· < ·)) (hkey : key ∉ l.map Prod.fst) :
    ((mapEmplace key task l).map Prod.fst).Pairwise (· < ·) := by
  induction l with
  | nil => simp [mapEmplace]
  | cons entry rest ih =>
    simp only [List.map_cons, List.pairwise_cons, List.mem_cons, not_or] at hl hkey
    rw [mapEmplace]
    split
    · next hlt =>
      simp only [List.map_cons, List.pairwise_cons, List.mem_cons]
      exact ⟨fun k hk => hk.elim (fun h => h ▸ hlt) fun h => hlt.trans (hl.1 k h), hl⟩
    · next hlt =>
      simp only [List.map_cons, List.pairwise_cons]
      refine ⟨fun k hk => ?_, ih hl.2 hkey.2⟩
      rcases mem_mapEmplace.mp hk with rfl | hk
      · exact lt_of_le_of_ne (not_lt.mp hlt) (Ne.symm hkey.1)
      · exact hl.1 k hk

namespace DagBuilder

/-- The natural ids the tasks were added under, in map order. -/
def keys (b : DagBuilder) : List String := b.tasksMap.map Prod.fst

/-- The constructor. -/
def new (idempotencyKey : String) : Except BuilderError DagBuilder :=
  if h : idempotencyKey = "" then .error (.invalidArgument "idempotency_key 不能为空")
  else .ok {
    idempotencyKey := idempotencyKey
    tasksMap := []
    taskEdges := []
    keyNonempty := h
    sorted := List.Pairwise.nil
    parentListed := by simp
    childListed := by simp
    noLoop := by simp }

/-- `AddTask`. -/
def addTask (b : DagBuilder) (naturalId funcName : String) (funcParams : Json) :
    Except BuilderError DagBuilder :=
  if h : naturalId ∈ b.tasksMap.map Prod.fst then
    .error (.runtimeError ("任务 natural_id 重复: " ++ naturalId))
  else .ok { b with
    tasksMap := mapEmplace naturalId
      { naturalId := naturalId, funcName := funcName, funcParams := funcParams } b.tasksMap
    sorted := mapEmplace_sorted b.sorted h
    parentListed := fun edge hedge => mem_mapEmplace.mpr (.inr (b.parentListed edge hedge))
    childListed := fun edge hedge => mem_mapEmplace.mpr (.inr (b.childListed edge hedge)) }

/-- An assignment through the reference `AddTask` returned. -/
def editTask (b : DagBuilder) (naturalId : String) (edit : Task → Task) : DagBuilder :=
  have hkeys : (b.tasksMap.map fun entry =>
      if entry.1 = naturalId then (entry.1, edit entry.2) else entry).map Prod.fst =
      b.tasksMap.map Prod.fst := by
    rw [List.map_map]
    refine List.map_congr_left fun entry _ => ?_
    show (if entry.1 = naturalId then (entry.1, edit entry.2) else entry).1 = entry.1
    split <;> rfl
  { b with
    tasksMap := b.tasksMap.map fun entry =>
      if entry.1 = naturalId then (entry.1, edit entry.2) else entry
    sorted := by rw [hkeys]; exact b.sorted
    parentListed := by rw [hkeys]; exact b.parentListed
    childListed := by rw [hkeys]; exact b.childListed }

/-- `AddDependency`. -/
def addDependency (b : DagBuilder) (parentNaturalId childNaturalId : String) :
    Except BuilderError DagBuilder :=
  if hloop : parentNaturalId = childNaturalId then
    .error (.runtimeError ("不能添加自依赖: " ++ parentNaturalId))
  else if hparent : parentNaturalId ∈ b.tasksMap.map Prod.fst then
    if hchild : childNaturalId ∈ b.tasksMap.map Prod.fst then
      .ok { b with
        taskEdges := b.taskEdges ++ [⟨parentNaturalId, childNaturalId⟩]
        parentListed := fun edge hedge => by
          rcases List.mem_append.mp hedge with hedge | hedge
          · exact b.parentListed edge hedge
          · rwa [List.mem_singleton.mp hedge]
        childListed := fun edge hedge => by
          rcases List.mem_append.mp hedge with hedge | hedge
          · exact b.childListed edge hedge
          · rwa [List.mem_singleton.mp hedge]
        noLoop := fun edge hedge => by
          rcases List.mem_append.mp hedge with hedge | hedge
          · exact b.noLoop edge hedge
          · rwa [List.mem_singleton.mp hedge] }
    else .error (.runtimeError ("子节点不存在: " ++ childNaturalId))
  else .error (.runtimeError ("父节点不存在: " ++ parentNaturalId))

/-! ## Cycle detection -/

/-- The adjacency lists `ValidateCycle` builds. -/
def adj (b : DagBuilder) (naturalId : String) : List String :=
  (b.taskEdges.filter fun edge => edge.parentNaturalId = naturalId).map TaskEdge.childNaturalId

/-- `HasCycleDFS`: 0, 1 and 2 are white, grey and black. -/
abbrev hasCycleDFS (adj : String → List String) (fuel : ℕ) (u : String)
    (visited : String → Dfs.Color) : Option (Bool × (String → Dfs.Color)) :=
  Dfs.visit adj fuel u visited

/-- `ValidateCycle`: `HasCycleDFS` from every task not visited yet. -/
def validateCycle (b : DagBuilder) : Except BuilderError Unit :=
  match Dfs.search b.adj b.tasksMap.length b.keys fun _ => .white with
  | some none => .ok ()
  | some (some startNode) => .error (.runtimeError
      ("DAG Validation Failed: Cycle detected involving task '" ++ startNode ++ "'"))
  | none => .error .outOfFuel

/-- `BuildProto`. -/
def buildProto (dump : Json → String) (b : DagBuilder) : Except BuilderError SubmitDagRequest := do
  b.validateCycle
  if hsize : b.taskEdges.length < 2 ^ 31 then
    return {
      idempotencyKey := b.idempotencyKey
      tasks := b.tasksMap.map fun entry => taskToProto dump entry.2
      edges := b.taskEdges
      edgesSize := hsize }
  else throw .aborted

/-! ## What the search decides -/

theorem mem_adj {b : DagBuilder} {p c : String} :
    c ∈ b.adj p ↔ (⟨p, c⟩ : TaskEdge) ∈ b.taskEdges := by
  constructor
  · intro h
    obtain ⟨edge, hedge, rfl⟩ := List.mem_map.mp h
    rw [List.mem_filter, decide_eq_true_eq] at hedge
    obtain ⟨hmem, rfl⟩ := hedge
    exact hmem
  · intro h
    exact List.mem_map.mpr ⟨_, List.mem_filter.mpr ⟨h, by simp⟩, rfl⟩

/-- `ValidateCycle` terminates: the recursion is never deeper than there are
tasks. -/
theorem validateCycle_ends (b : DagBuilder) : b.validateCycle ≠ .error .outOfFuel := by
  have hsearch : Dfs.search b.adj b.tasksMap.length b.keys (fun _ => .white) ≠ none := by
    refine Dfs.search_total (V := b.keys.toFinset) (fun u _ v hv => ?_) ?_
      (fun u hu => List.mem_toFinset.mpr hu) _
    · exact List.mem_toFinset.mpr (b.childListed _ (mem_adj.mp hv))
    · exact (List.toFinset_card_le b.keys).trans (by simp [keys])
  rw [validateCycle]
  split
  · simp
  · simp
  · next hnone => exact absurd hnone hsearch

/-- **It accepts exactly the graphs without a directed cycle.** -/
theorem validateCycle_ok_iff (b : DagBuilder) :
    b.validateCycle = .ok () ↔ ∀ x, ¬ Relation.TransGen (Dfs.Edge b.adj) x x := by
  have hspec := @Dfs.search_spec _ _ b.adj b.tasksMap.length b.keys (fun _ => .white) (by simp)
    (fun x hx => by cases hx) (fun x _ hx => by cases hx)
  have hends := validateCycle_ends b
  rw [validateCycle] at hends ⊢
  cases hres : Dfs.search b.adj b.tasksMap.length b.keys fun _ => .white with
  | none => simp [hres] at hends
  | some answer =>
    rw [hres] at hspec
    cases answer with
    | none =>
      refine iff_of_true rfl (Dfs.acyclic_of_acc fun p c hpc => hspec p ?_)
      exact b.parentListed _ (mem_adj.mp hpc)
    | some startNode =>
      obtain ⟨-, x, hx⟩ := hspec
      exact iff_of_false (by simp) fun h => h x hx

/-- A request that was built has the tasks and edges of the builder. -/
theorem buildProto_ok {dump : Json → String} {b : DagBuilder} {req : SubmitDagRequest}
    (h : b.buildProto dump = .ok req) :
    b.validateCycle = .ok () ∧ req.idempotencyKey = b.idempotencyKey ∧
      req.tasks = b.tasksMap.map (fun entry => taskToProto dump entry.2) ∧
      req.edges = b.taskEdges := by
  rw [buildProto] at h
  cases hvalid : b.validateCycle with
  | error e => simp [hvalid, bind, Except.bind] at h
  | ok _ =>
    simp only [hvalid, bind, Except.bind] at h
    split at h
    · obtain rfl := Except.ok.inj h
      exact ⟨rfl, rfl, rfl, rfl⟩
    · cases h

/-- The edges of a request that was built go nowhere in circles, seen from
above as well. -/
theorem buildProto_wellFounded {dump : Json → String} {b : DagBuilder} {req : SubmitDagRequest}
    (h : b.buildProto dump = .ok req) :
    WellFounded fun p c => (⟨p, c⟩ : TaskEdge) ∈ req.edges := by
  obtain ⟨hvalid, -, -, hedges⟩ := buildProto_ok h
  have hloop := (validateCycle_ok_iff b).mp hvalid
  have hfin : {x | ∃ y, Dfs.Edge b.adj x y ∨ Dfs.Edge b.adj y x}.Finite := by
    refine (List.finite_toSet b.keys).subset ?_
    rintro x ⟨y, hxy | hyx⟩
    · exact b.parentListed _ (mem_adj.mp hxy)
    · exact b.childListed _ (mem_adj.mp hyx)
  refine Subrelation.wf (fun {p c} hpc => ?_) (Dfs.wellFounded_of_acyclic hfin hloop)
  rw [hedges] at hpc
  exact mem_adj.mpr hpc

end DagBuilder

end DistTaskSystem
