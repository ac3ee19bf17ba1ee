import DistTaskSystem.Client.DagBuilder
import DistTaskSystem.Cli.Validator
import DistTaskSystem.Guarantees.Submission

/-!
# DTS — what the clients accept and the tables hold

Both validators look at the shape of the graph: an accepted request names its
tasks differently and connects listed tasks, so every lookup of an id succeeds
and no key of `task` is violated. Neither looks at repeated edges or at the
values of the tasks; `accepted_storable_iff` says exactly what is missing.
-/

namespace DistTaskSystem

/-! ## Accepted requests -/

/-- The builders a program can reach that adds tasks and dependencies and
assigns fields of a returned task, such as `priority`, `max_retry` and
`timeout_ms`: any field but the natural id. -/
inductive Built : DagBuilder → Prop where
  | new {key : String} {b : DagBuilder} : DagBuilder.new key = .ok b → Built b
  | addTask {b b' : DagBuilder} {naturalId funcName : String} {funcParams : Json} :
    Built b → b.addTask naturalId funcName funcParams = .ok b' → Built b'
  | assign {b : DagBuilder} (naturalId : String) {edit : Task → Task} :
    Built b → (∀ task, (edit task).naturalId = task.naturalId) → Built (b.editTask naturalId edit)
  | addDependency {b b' : DagBuilder} {parentNaturalId childNaturalId : String} :
    Built b → b.addDependency parentNaturalId childNaturalId = .ok b' → Built b'

/-- The request passed one of the two validators. -/
def Accepted (dump : Json → String) (req : SubmitDagRequest) : Prop :=
  (∃ b, Built b ∧ b.buildProto dump = .ok req) ∨ ∃ ord, validate ord req = .ok ()

/-- What the validators leave open: no edge is repeated, and the columns can
hold the key and the values of the tasks. -/
structure Fits (jsonbIn : String → Option String) (req : SubmitDagRequest) : Prop where
  key : nulFree req.idempotencyKey = true
  edges : req.edges.Nodup
  tasks : ∀ task ∈ req.tasks, task.Storable jsonbIn

/-! ## The graph of an accepted request -/

section Accepted

variable {b : DagBuilder} {dump : Json → String} {req : SubmitDagRequest}

theorem mem_mapEmplace_entry {key : String} {task : Task} {l : List (String × Task)}
    {entry : String × Task} (h : entry ∈ mapEmplace key task l) :
    entry = (key, task) ∨ entry ∈ l := by
  induction l with
  | nil => exact .inl (List.mem_singleton.mp h)
  | cons first rest ih =>
    rw [mapEmplace] at h
    split at h
    · exact List.mem_cons.mp h
    · rcases List.mem_cons.mp h with rfl | h
      · exact .inr List.mem_cons_self
      · exact (ih h).imp id (List.mem_cons_of_mem first)

/-- A task keeps the natural id it was added under. -/
theorem Built.naturalId_eq (h : Built b) : ∀ entry ∈ b.tasksMap, entry.2.naturalId = entry.1 := by
  induction h with
  | new hnew =>
    unfold DagBuilder.new at hnew
    split at hnew
    · exact nomatch hnew
    · obtain rfl := Except.ok.inj hnew
      exact fun entry hentry => absurd hentry List.not_mem_nil
  | addTask _ hadd ih =>
    unfold DagBuilder.addTask at hadd
    split at hadd
    · exact nomatch hadd
    · obtain rfl := Except.ok.inj hadd
      intro entry hentry
      rcases mem_mapEmplace_entry hentry with rfl | hold
      · rfl
      · exact ih entry hold
  | assign naturalId _ hedit ih =>
    intro entry hentry
    obtain ⟨old, hold, rfl⟩ := List.mem_map.mp hentry
    split
    · exact (hedit old.2).trans (ih old hold)
    · exact ih old hold
  | addDependency _ hadd ih =>
    unfold DagBuilder.addDependency at hadd
    split at hadd
    · exact nomatch hadd
    · split at hadd
      · split at hadd
        · obtain rfl := Except.ok.inj hadd
          exact ih
        · exact nomatch hadd
      · exact nomatch hadd

/-- A builder's request names its tasks as the builder does. -/
theorem Built.naturalIds_eq (h : Built b) (hreq : b.buildProto dump = .ok req) :
    req.naturalIds = b.keys := by
  obtain ⟨-, -, htasks, -⟩ := DagBuilder.buildProto_ok hreq
  rw [SubmitDagRequest.naturalIds, htasks, List.map_map]
  exact List.map_congr_left fun entry hentry => h.naturalId_eq entry hentry

/-- **Both validators make sure of the graph**: distinct natural ids, and edges
between listed tasks. -/
theorem Accepted.graph (h : Accepted dump req) :
    req.naturalIds.Nodup ∧ ∀ edge ∈ req.edges,
      edge.parentNaturalId ∈ req.naturalIds ∧ edge.childNaturalId ∈ req.naturalIds := by
  rcases h with ⟨b, hbuilt, hreq⟩ | ⟨ord, hvalid⟩
  · obtain ⟨-, -, -, hedges⟩ := DagBuilder.buildProto_ok hreq
    rw [hbuilt.naturalIds_eq hreq, hedges]
    refine ⟨b.sorted.imp fun hlt => ne_of_lt hlt, fun edge hedge => ?_⟩
    exact ⟨b.parentListed edge hedge, b.childListed edge hedge⟩
  · obtain ⟨-, hnodup, hlisted⟩ := validate_ok hvalid
    exact ⟨hnodup, hlisted⟩

/-- What is missing for the tables to hold an accepted request. -/
theorem Accepted.storable_iff {jsonbIn : String → Option String} (h : Accepted dump req) :
    req.Storable jsonbIn ↔ Fits jsonbIn req := by
  obtain ⟨hdistinct, hlisted⟩ := h.graph
  constructor
  · exact fun hs => ⟨hs.key, hs.listed.nodup, hs.tasks⟩
  · intro hf
    exact ⟨hf.key, hdistinct, ⟨fun edge hedge => (hlisted edge hedge).1,
      fun edge hedge => (hlisted edge hedge).2, hf.edges⟩, hf.tasks⟩

/-- **What the store can hold of what the clients accept.** An accepted request
under a fresh key is written if and only if it repeats no edge, its texts hold
no NUL, `priority` and `max_retry` are below 2^15, `timeout_ms` is below 2^31,
and the server can read every `func_params`. -/
theorem accepted_storable_iff {jsonbIn : String → Option String} (nowTs : Int) {sub : Submission}
    {db : Db} (hacc : Accepted dump sub.req) (hfresh : FreshIds [sub] db)
    (hkey : sub.req.idempotencyKey ∉ db.jobs.map JobRow.idempotencyKey) :
    (∃ batch db', flushDBBatch jsonbIn nowTs [sub.item] db = .ok (batch, db')) ↔
      Fits jsonbIn sub.req := by
  have hflush : (∃ batch db', flushDBBatch jsonbIn nowTs [sub.item] db = .ok (batch, db')) ↔
      (∀ other ∈ [sub], other.req.Storable jsonbIn) ∧ KeysFree [sub] db :=
    flush_ok_iff nowTs hfresh
  have hfree : KeysFree [sub] db := by
    refine keysFree_of_new (List.nodup_singleton _) fun other hother => ?_
    obtain rfl := List.mem_singleton.mp hother
    exact hkey
  rw [hflush, ← hacc.storable_iff]
  constructor
  · exact fun ⟨hvalid, _⟩ => hvalid sub (List.mem_singleton_self sub)
  · intro hs
    refine ⟨fun other hother => ?_, hfree⟩
    obtain rfl := List.mem_singleton.mp hother
    exact hs

/-- The request of the benchmark (`buildMockRequest`): no parameters are set. -/
def mockRequest : SubmitDagRequest where
  idempotencyKey := "key-0-0-0"
  tasks := [{ naturalId := "bench-0-0", funcName := "echo", priority := 1 }]
  edges := []
  clientId := "bench-tool"
  edgesSize := SubmitDagRequest.edgesSize_nil

def mock : Submission where
  req := mockRequest
  jobId := jobX
  uuids := [taskA]
  oneEach := rfl

theorem validate_mock : validate .insertion mockRequest = .ok () := by decide

theorem validate_lone : validate .insertion (loneRequest "k") = .ok () := by decide

/-- An accepted request that can be stored. -/
theorem accepted_storable_iff_lone :
    ∃ batch db',
      flushDBBatch jsonbOne 0 [(lone "k" jobX taskA).item] .empty = .ok (batch, db') := by
  have hacc : Accepted (fun _ => "") (lone "k" jobX taskA).req :=
    .inr ⟨.insertion, validate_lone⟩
  refine (accepted_storable_iff 0 hacc (freshIds_empty (by decide) (by decide))
    List.not_mem_nil).mpr ?_
  exact hacc.storable_iff.mp (loneRequest_storable (by decide))

/-- **An accepted request the store refuses**: the benchmark's own request has
empty parameters, which no `jsonb` column takes. -/
theorem empty_params_refused :
    Accepted (fun _ => "") mock.req ∧
    ¬ ∃ batch db', flushDBBatch jsonbOne 0 [mock.item] .empty = .ok (batch, db') := by
  refine ⟨.inr ⟨.insertion, validate_mock⟩, ?_⟩
  rintro ⟨batch, db', hflush⟩
  have hfresh : FreshIds [mock] .empty := freshIds_empty (by decide) (by decide)
  have hall := ((flush_ok_iff 0 hfresh).mp ⟨batch, db', hflush⟩).1
  have hvalid := hall mock (List.mem_singleton_self _)
  exact absurd (hvalid.tasks _ List.mem_cons_self).funcParams (by decide)

end Accepted

end DistTaskSystem
