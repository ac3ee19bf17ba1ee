import DistTaskSystem.ApiServer.DagGraph

/-!
# DTS — accepting a submission

`SubmitDagAsync` accepts any request: it generates a job id and one id for
every listed task and queues the two together (`batch_item.hpp`). The
generated ids are arguments here; that they are fresh is stated as the
distinctness of explicit lists wherever it matters.
-/

namespace DistTaskSystem

/-- `natural_to_uuid[task.natural_id()] = uuid`. -/
def assignId (assigned : String → Option String) (pair : PbTask × Uuid) :
    String → Option String :=
  Function.update assigned pair.1.naturalId (some pair.2.text)

/-- The loop that fills `natural_to_uuid`: a later task with the same natural
id overwrites an earlier one. -/
def assignIds (tasks : List PbTask) (uuids : List Uuid) : String → Option String :=
  (tasks.zip uuids).foldl assignId fun _ => none

/-- The context `SubmitDagAsync` fills in for a request. -/
def commitContext (req : SubmitDagRequest) (jobId : Uuid) (uuids : List Uuid) :
    DagCommitContext where
  jobId := jobId.text
  naturalToUuid := assignIds req.tasks uuids

/-- `BatchItem`. -/
structure BatchItem where
  req : SubmitDagRequest
  ctx : DagCommitContext

section Assign

variable {n x : String}

private theorem foldl_assign {pairs : List (PbTask × Uuid)} {init : String → Option String}
    (h : pairs.foldl assignId init n = some x) :
    init n = some x ∨ ∃ pair ∈ pairs, pair.1.naturalId = n ∧ pair.2.text = x := by
  induction pairs generalizing init with
  | nil => exact .inl h
  | cons pair rest ih =>
    rcases ih h with hinit | ⟨pair', hmem, heq⟩
    · by_cases hn : n = pair.1.naturalId
      · subst hn
        rw [assignId, Function.update_self, Option.some.injEq] at hinit
        exact .inr ⟨pair, List.mem_cons_self, rfl, hinit⟩
      · rw [assignId, Function.update_of_ne hn] at hinit
        exact .inl hinit
    · exact .inr ⟨pair', List.mem_cons_of_mem _ hmem, heq⟩

private theorem foldl_assign_isSome {pairs : List (PbTask × Uuid)}
    {init : String → Option String}
    (h : (init n).isSome ∨ n ∈ pairs.map fun pair => pair.1.naturalId) :
    (pairs.foldl assignId init n).isSome := by
  induction pairs generalizing init with
  | nil => simpa using h
  | cons pair rest ih =>
    refine ih ?_
    by_cases hn : n = pair.1.naturalId
    · subst hn
      exact .inl (by rw [assignId, Function.update_self, Option.isSome_some])
    · rw [assignId, Function.update_of_ne hn]
      exact h.imp id fun hmem => (List.mem_cons.mp hmem).resolve_left hn

/-- Every assigned id was generated for a task of that natural id. -/
theorem assignIds_some {tasks : List PbTask} {uuids : List Uuid}
    (h : assignIds tasks uuids n = some x) :
    ∃ pair ∈ tasks.zip uuids, pair.1.naturalId = n ∧ pair.2.text = x :=
  (foldl_assign h).resolve_left (by simp)

/-- Exactly the listed natural ids are assigned. -/
theorem assignIds_isSome {tasks : List PbTask} {uuids : List Uuid}
    (hlen : uuids.length = tasks.length) :
    (assignIds tasks uuids n).isSome ↔ n ∈ tasks.map PbTask.naturalId := by
  have hfst : (tasks.zip uuids).map (fun pair => pair.1.naturalId) =
      tasks.map PbTask.naturalId := by
    have hzip : (tasks.zip uuids).map Prod.fst = tasks := List.map_fst_zip (by omega)
    rw [← hzip, List.map_map, hzip]
    rfl
  constructor
  · intro h
    obtain ⟨y, hy⟩ := Option.isSome_iff_exists.mp h
    obtain ⟨pair, hmem, heq, -⟩ := assignIds_some hy
    rw [← hfst]
    exact List.mem_map.mpr ⟨pair, hmem, heq⟩
  · intro h
    rw [← hfst] at h
    exact foldl_assign_isSome (.inr h)

/-- An id generated once belongs to one task. -/
private theorem zip_inj {tasks : List PbTask} {uuids : List Uuid} (hnodup : uuids.Nodup)
    {t t' : PbTask} {u : Uuid} (h : (t, u) ∈ tasks.zip uuids) (h' : (t', u) ∈ tasks.zip uuids) :
    t = t' := by
  obtain ⟨i, hi, hget⟩ := List.mem_iff_getElem.mp h
  obtain ⟨j, hj, hget'⟩ := List.mem_iff_getElem.mp h'
  simp only [List.getElem_zip, Prod.mk.injEq] at hget hget'
  have hij : i = j := by
    have := hget.2.trans hget'.2.symm
    exact (List.Nodup.getElem_inj_iff hnodup).mp this
  subst hij
  exact hget.1.symm.trans hget'.1

/-- **The generated context assigns every listed task its own id.** -/
theorem commitContext_assigns {req : SubmitDagRequest} (jobId : Uuid) {uuids : List Uuid}
    (hlen : uuids.length = req.tasks.length) (hnodup : uuids.Nodup) :
    Assigns (commitContext req jobId uuids) req where
  job := ⟨jobId, rfl⟩
  task n hn := by
    obtain ⟨y, hy⟩ := Option.isSome_iff_exists.mp ((assignIds_isSome hlen).mpr hn)
    obtain ⟨pair, -, -, rfl⟩ := assignIds_some hy
    exact ⟨pair.2, hy⟩
  inj n hn m hm heq := by
    obtain ⟨y, hy⟩ := Option.isSome_iff_exists.mp ((assignIds_isSome hlen).mpr hn)
    obtain ⟨⟨t, u⟩, hmem, rfl, htext⟩ := assignIds_some hy
    obtain ⟨⟨t', u'⟩, hmem', rfl, htext'⟩ := assignIds_some ((heq.symm.trans hy : _))
    have hu : u' = u := Uuid.text_inj.mp (htext'.trans htext.symm)
    subst hu
    rw [zip_inj hnodup hmem hmem']

end Assign

/-! ## Submissions -/

/-- A request that was accepted, with the ids generated for it. -/
structure Submission where
  req : SubmitDagRequest
  jobId : Uuid
  uuids : List Uuid
  oneEach : uuids.length = req.tasks.length

namespace Submission

/-- The item `SubmitDagAsync` queues. -/
def item (sub : Submission) : BatchItem where
  req := sub.req
  ctx := commitContext sub.req sub.jobId sub.uuids

/-- Looking up a listed task finds an id that was generated for it. -/
theorem naturalToUuid (sub : Submission) {n : String} (hn : n ∈ sub.req.naturalIds) :
    ∃ u ∈ sub.uuids, sub.item.ctx.naturalToUuid n = some u.text := by
  obtain ⟨x, hx⟩ := Option.isSome_iff_exists.mp ((assignIds_isSome sub.oneEach).mpr hn)
  obtain ⟨⟨task, u⟩, hmem, -, rfl⟩ := assignIds_some hx
  exact ⟨u, (List.of_mem_zip hmem).2, hx⟩

theorem uuidOf_mem (sub : Submission) {n : String} (hn : n ∈ sub.req.naturalIds) :
    ∃ u ∈ sub.uuids, sub.item.ctx.uuidOf n = u.text := by
  obtain ⟨u, hu, hlookup⟩ := sub.naturalToUuid hn
  exact ⟨u, hu, DagCommitContext.uuidOf_eq _ hlookup⟩

end Submission

end DistTaskSystem
