import DistTaskSystem.ApiServer.ProcessBatch
import DistTaskSystem.Guarantees.DagEngine

/-!
# DTS — a batch in two stores

`ProcessBatch` commits a batch in PostgreSQL and then publishes it in Redis,
without a common transaction. `batch_atomic_iff` says for which failures every
job of the batch is in both stores or in neither; `batch_all_or_nothing` says
what one request that cannot be stored does to the others.
-/

namespace DistTaskSystem

/-! ## One submission in two stores -/

/-- Nothing in Redis belongs to the submissions, and the task stream is one. -/
structure FreshKeys (subs : List Submission) (r : Redis) : Prop where
  absent : ∀ sub ∈ subs, NotInRedis sub r
  tasks : r.IsStream kTasks

/-- The submission is completely in both stores, or in neither. -/
def InBothOrNeither (jsonbIn : String → Option String) (serialize : PbTask → List UInt8)
    (sub : Submission) (db : Db) (r : Redis) : Prop :=
  Committed jsonbIn sub db ∧ Published serialize sub r ∨ NotInDb sub db ∧ NotInRedis sub r

section Batch

variable {jsonbIn : String → Option String} {serialize : PbTask → List UInt8}
  {subs : List Submission} {db db' : Db} {r : Redis} {batch : List BatchItem}
  {cmds done : List PipeCmd} {nowTs : Int}

/-- A submission whose key is taken has no tasks, so no command concerns it. -/
theorem PartOf.notInRedis (hpart : PartOf serialize subs db r done) {sub : Submission}
    (hsub : sub ∈ subs) (htasks : sub.req.tasks = []) :
    NotInRedis sub (execPipeline done r) := by
  refine (hpart.absent sub hsub).frame hpart.fits fun cmd hcmd => ?_
  by_cases hexpire : cmd.isExpire = true
  · exact .inl hexpire
  · refine .inr ?_
    have hmem := hpart.mem hcmd (by simpa using hexpire)
    refine (batch_elsewhere hpart.fresh hpart.listed hsub hmem).resolve_right fun hown => ?_
    -- a command of the submission would be about one of its tasks
    obtain ⟨t, ht, -⟩ := task?_dagCommands (hpart.listed sub hsub) hown
    rw [dagIds, htasks] at ht
    exact List.not_mem_nil ht

/-- **What a written batch leaves in both stores**, if the server kept it and
executed `done`: every submission is in both stores or in neither exactly if
all commands of the batch were executed. -/
theorem written_atomic_iff (hpart : PartOf serialize subs db r done)
    (hflush : flushDBBatch jsonbIn nowTs (subs.map Submission.item) db = .ok (batch, db')) :
    (∀ sub ∈ subs, InBothOrNeither jsonbIn serialize sub db' (execPipeline done r)) ↔
      ∀ cmd ∈ batchCommands serialize subs, cmd ∈ done := by
  have hfresh := hpart.fresh
  constructor
  · intro h cmd hcmd
    obtain ⟨sub, hsub, hown⟩ := List.mem_flatMap.mp hcmd
    obtain ⟨before, after, hsubs⟩ := List.append_of_mem hsub
    obtain ⟨hnew, hold⟩ := flush_committed hfresh hflush hsubs
    -- the submission has a command, hence a task, hence a new key
    have hcommitted : Committed jsonbIn sub db' := by
      refine hnew (by_contra fun hnot => ?_)
      obtain ⟨t, ht, -⟩ := task?_dagCommands (hpart.listed sub hsub) hown
      rw [dagIds, (hold hnot).1] at ht
      exact List.not_mem_nil ht
    rcases h sub hsub with ⟨-, hpub⟩ | ⟨hnotInDb, -⟩
    · exact (published_iff hpart hsub).mp hpub cmd hown
    · exact absurd hnotInDb hcommitted.not_notInDb
  · intro hall sub hsub
    obtain ⟨before, after, hsubs⟩ := List.append_of_mem hsub
    obtain ⟨hnew, hold⟩ := flush_committed hfresh hflush hsubs
    by_cases hkey : sub.KeyNew before db
    · refine .inl ⟨hnew hkey, (published_iff hpart hsub).mpr fun cmd hcmd => ?_⟩
      exact hall cmd (List.mem_flatMap.mpr ⟨sub, hsub, hcmd⟩)
    · obtain ⟨htasks, hnotInDb⟩ := hold hkey
      exact .inr ⟨hnotInDb, hpart.notInRedis hsub htasks⟩

theorem partOf_executed (hfresh : FreshIds subs db) (hkeys : FreshKeys subs r)
    (hvalid : ∀ sub ∈ subs, sub.req.Storable jsonbIn)
    (hfilter : (cmds.filter fun cmd => !cmd.isExpire) = batchCommands serialize subs)
    (faults : BatchFaults) : PartOf serialize subs db r (faults.executedOf cmds) where
  fresh := hfresh
  distinct sub hsub := (hvalid sub hsub).distinct
  listed sub hsub := (hvalid sub hsub).listed
  absent := hkeys.absent
  tasks := hkeys.tasks
  batch := by
    rw [← hfilter]
    refine List.Sublist.filter _ ?_
    unfold BatchFaults.executedOf
    split
    · exact List.take_sublist _ _
    · exact List.nil_sublist _

/-- What is fresh is in neither store. -/
theorem inNeither (hfresh : FreshIds subs db) (hkeys : FreshKeys subs r) {sub : Submission}
    (hsub : sub ∈ subs) : InBothOrNeither jsonbIn serialize sub db r :=
  .inr ⟨hfresh.notInDb hsub, hkeys.absent sub hsub⟩

end Batch

/-- Distinct new keys are free. -/
theorem keysFree_of_new {subs : List Submission} {db : Db}
    (hdistinct : (subs.map fun sub => sub.req.idempotencyKey).Nodup)
    (hnew : ∀ sub ∈ subs, sub.req.idempotencyKey ∉ db.jobs.map JobRow.idempotencyKey) :
    KeysFree subs db := by
  rintro before sub after rfl -
  refine ⟨hnew sub (List.mem_append_right _ List.mem_cons_self), fun hmem => ?_⟩
  rw [List.map_append, List.map_cons, List.nodup_append] at hdistinct
  exact hdistinct.2.2 _ hmem _ List.mem_cons_self rfl

/-! ## Dual-write atomicity -/

section Atomicity

variable {jsonbIn : String → Option String} {serialize : PbTask → List UInt8}
  {subs : List Submission} {db : Db} {r : Redis}

/-- **Both stores or neither.** A batch of storable requests leaves every job
in both stores or in neither if and only if

* the server did not keep the transaction, or
* a request with tasks repeats a key, which makes the transaction fail, or
* no exception left the transaction and all commands up to the last one that
  is no EXPIRE were executed (or there are none). -/
theorem batch_atomic_iff (nowTs : Int) (hfresh : FreshIds subs db) (hkeys : FreshKeys subs r)
    (hvalid : ∀ sub ∈ subs, sub.req.Storable jsonbIn) (faults : BatchFaults) :
    (∀ sub ∈ subs, InBothOrNeither jsonbIn serialize sub
      (processBatch jsonbIn serialize faults nowTs (subs.map Submission.item) db r).1
      (processBatch jsonbIn serialize faults nowTs (subs.map Submission.item) db r).2) ↔
    faults.tx.kept = false ∨ ¬ KeysFree subs db ∨ faults.Enough (neededCommands subs) := by
  by_cases hfree : KeysFree subs db
  · -- all statements succeed
    obtain ⟨batch, db', hflush⟩ := (flush_ok_iff nowTs hfresh).mpr ⟨hvalid, hfree⟩
    obtain ⟨cmds, hfilter, hneeds, hresult⟩ :=
      processBatch_written serialize faults r hfresh hflush
    have hpart := partOf_executed hfresh hkeys hvalid hfilter faults
    rw [hresult]
    by_cases hkept : faults.tx.kept = true
    · have hnodup : (batchCommands serialize subs).Nodup :=
        batchCommands_nodup hfresh hpart.listed hpart.distinct
      rw [if_pos hkept, written_atomic_iff hpart hflush,
        hneeds.executedOf_iff hfilter hnodup faults]
      simp [hkept, hfree]
    · -- nothing was kept, and nothing was published
      have hrolledBack : faults.executedOf cmds = [] := by
        unfold BatchFaults.executedOf
        rw [if_neg]
        intro hcommitted
        rw [hcommitted] at hkept
        exact hkept rfl
      rw [if_neg hkept, hrolledBack]
      refine iff_of_true (fun sub hsub => inNeither hfresh hkeys hsub) (.inl ?_)
      simpa using hkept
  · -- the foreign key of a repeated key's tasks stops the transaction
    have hrefused : ∀ batch db',
        flushDBBatch jsonbIn nowTs (subs.map Submission.item) db ≠ .ok (batch, db') := by
      intro batch db' hflush
      exact hfree ((flush_ok_iff nowTs hfresh).mp ⟨batch, db', hflush⟩).2
    rw [processBatch_refused hrefused]
    exact iff_of_true (fun sub hsub => inNeither hfresh hkeys hsub) (.inr (.inl hfree))

/-- A request with one task. -/
def loneRequest (key : String) : SubmitDagRequest where
  idempotencyKey := key
  tasks := [{ naturalId := "a", funcName := "add", funcParams := "1" }]
  edges := []
  edgesSize := SubmitDagRequest.edgesSize_nil

/-- Its submission under a job id and a task id. -/
def lone (key : String) (jobId taskId : Uuid) : Submission where
  req := loneRequest key
  jobId := jobId
  uuids := [taskId]
  oneEach := rfl

def jobY : Uuid := ⟨"11111111-1111-1111-1111-111111111111", by decide⟩

/-- A `jsonb` that knows the numeral 1. -/
def jsonbOne (text : String) : Option String := if text = "1" then some "1" else none

theorem loneRequest_storable {key : String} (hkey : nulFree key = true) :
    (loneRequest key).Storable jsonbOne where
  key := hkey
  distinct := List.nodup_singleton _
  listed := ⟨nofun, nofun, List.nodup_nil⟩
  tasks task htask := by
    obtain rfl := List.mem_singleton.mp htask
    exact ⟨by decide, by decide, by decide, by decide, by decide, by decide, by decide⟩

/-- On empty stores all ids are fresh, if they are distinct. -/
theorem freshIds_empty (hjobs : (subs.map Submission.jobId).Nodup)
    (huuids : (subs.flatMap Submission.uuids).Nodup) : FreshIds subs .empty :=
  ⟨hjobs, huuids, fun _ _ => List.not_mem_nil, fun _ _ _ _ => List.not_mem_nil⟩

theorem freshKeys_empty (subs : List Submission) : FreshKeys subs .empty where
  absent _ _ := ⟨fun _ _ => rfl, fun _ _ => rfl, rfl, fun _ _ => rfl⟩
  tasks := Redis.isStream_of_none rfl

/-- The condition at work: one task needs two commands, and both ran. -/
theorem batch_atomic_iff_lone :
    InBothOrNeither jsonbOne (fun _ => []) (lone "k" jobX taskA)
      (processBatch jsonbOne (fun _ => []) ⟨.committed, some 2⟩ 0
        ([lone "k" jobX taskA].map Submission.item) .empty .empty).1
      (processBatch jsonbOne (fun _ => []) ⟨.committed, some 2⟩ 0
        ([lone "k" jobX taskA].map Submission.item) .empty .empty).2 := by
  have hvalid : ∀ sub ∈ [lone "k" jobX taskA], sub.req.Storable jsonbOne := by
    intro sub hsub
    obtain rfl := List.mem_singleton.mp hsub
    exact loneRequest_storable (by decide)
  refine (batch_atomic_iff 0 (freshIds_empty (by decide) (by decide)) (freshKeys_empty _) hvalid
    ⟨.committed, some 2⟩).mpr (.inr (.inr (.inr ⟨rfl, ?_⟩))) _ List.mem_cons_self
  rintro k ⟨rfl⟩
  decide

/-- **A job in one store only**: the transaction commits, and the connection to
Redis is lost before the first command. -/
theorem pipeline_failure_splits_job :
    (∀ sub ∈ [lone "k" jobX taskA], sub.req.Storable jsonbOne) ∧
    ¬ ∀ sub ∈ [lone "k" jobX taskA], InBothOrNeither jsonbOne (fun _ => []) sub
      (processBatch jsonbOne (fun _ => []) ⟨.committed, some 0⟩ 0
        ([lone "k" jobX taskA].map Submission.item) .empty .empty).1
      (processBatch jsonbOne (fun _ => []) ⟨.committed, some 0⟩ 0
        ([lone "k" jobX taskA].map Submission.item) .empty .empty).2 := by
  have hfresh : FreshIds [lone "k" jobX taskA] .empty := freshIds_empty (by decide) (by decide)
  have hvalid : ∀ sub ∈ [lone "k" jobX taskA], sub.req.Storable jsonbOne := by
    intro sub hsub
    obtain rfl := List.mem_singleton.mp hsub
    exact loneRequest_storable (by decide)
  have hkeys : KeysFree [lone "k" jobX taskA] .empty :=
    keysFree_of_new (by decide) fun _ _ => List.not_mem_nil
  obtain ⟨batch, db', hflush⟩ := (flush_ok_iff 0 hfresh).mpr ⟨hvalid, hkeys⟩
  obtain ⟨cmds, hfilter, -, hresult⟩ :=
    processBatch_written (fun _ => []) ⟨.committed, some 0⟩ .empty hfresh hflush
  have hpart := partOf_executed hfresh (freshKeys_empty _) hvalid hfilter ⟨.committed, some 0⟩
  have hkept : (BatchFaults.mk .committed (some 0)).tx.kept = true := rfl
  refine ⟨hvalid, ?_⟩
  rw [hresult, if_pos hkept, written_atomic_iff hpart hflush]
  intro hall
  have hmem : ∃ cmd, cmd ∈ batchCommands (fun _ => []) [lone "k" jobX taskA] :=
    ⟨_, List.mem_flatMap.mpr ⟨_, List.mem_cons_self, mem_dagCommands.mpr
      (.inr ⟨_, List.mem_cons_self, .inl rfl⟩)⟩⟩
  obtain ⟨cmd, hcmd⟩ := hmem
  exact List.not_mem_nil (hall cmd hcmd)

end Atomicity

/-! ## Isolation between the items of a batch -/

section Isolation

variable {jsonbIn : String → Option String} {serialize : PbTask → List UInt8}
  {subs : List Submission} {db : Db} {r : Redis}

/-- The outcome of a batch without failures: refused, or written and published. -/
theorem processBatch_cases (nowTs : Int) (hfresh : FreshIds subs db) (hkeys : FreshKeys subs r)
    (hvalid : ∀ sub ∈ subs, sub.req.Storable jsonbIn) :
    (¬ KeysFree subs db ∧
      processBatch jsonbIn serialize {} nowTs (subs.map Submission.item) db r = (db, r)) ∨
    ∃ batch db' cmds, KeysFree subs db ∧
      flushDBBatch jsonbIn nowTs (subs.map Submission.item) db = .ok (batch, db') ∧
      PartOf serialize subs db r cmds ∧ (∀ cmd ∈ batchCommands serialize subs, cmd ∈ cmds) ∧
      processBatch jsonbIn serialize {} nowTs (subs.map Submission.item) db r =
        (db', execPipeline cmds r) := by
  by_cases hfree : KeysFree subs db
  · obtain ⟨batch, db', hflush⟩ := (flush_ok_iff nowTs hfresh).mpr ⟨hvalid, hfree⟩
    obtain ⟨cmds, hfilter, hneeds, hresult⟩ := processBatch_written serialize {} r hfresh hflush
    have hpart := partOf_executed hfresh hkeys hvalid hfilter {}
    have hall := (hneeds.executedOf_iff hfilter
      (batchCommands_nodup hfresh hpart.listed hpart.distinct) {}).mpr (.inr ⟨rfl, nofun⟩)
    have hkept : ({} : BatchFaults).tx.kept = true := rfl
    rw [if_pos hkept] at hresult
    exact .inr ⟨batch, db', _, hfree, hflush, hpart, hall, hresult⟩
  · refine .inl ⟨hfree, processBatch_refused fun batch db' hflush => ?_⟩
    exact hfree ((flush_ok_iff nowTs hfresh).mp ⟨batch, db', hflush⟩).2

/-- **All of a batch or nothing of it.** Without failures and with distinct new
keys, all items are committed and published if every request can be stored,
and otherwise nothing changes in either store. -/
theorem batch_all_or_nothing (nowTs : Int) (hfresh : FreshIds subs db) (hkeys : FreshKeys subs r)
    (hdistinct : (subs.map fun sub => sub.req.idempotencyKey).Nodup)
    (hnew : ∀ sub ∈ subs, sub.req.idempotencyKey ∉ db.jobs.map JobRow.idempotencyKey) :
    ((∀ sub ∈ subs, sub.req.Storable jsonbIn) → ∀ sub ∈ subs,
      Committed jsonbIn sub
        (processBatch jsonbIn serialize {} nowTs (subs.map Submission.item) db r).1 ∧
      Published serialize sub
        (processBatch jsonbIn serialize {} nowTs (subs.map Submission.item) db r).2) ∧
    (¬ (∀ sub ∈ subs, sub.req.Storable jsonbIn) →
      processBatch jsonbIn serialize {} nowTs (subs.map Submission.item) db r = (db, r) ∧
        ∀ sub ∈ subs, NotInDb sub db ∧ NotInRedis sub r) := by
  have hfree : KeysFree subs db := keysFree_of_new hdistinct hnew
  constructor
  · intro hvalid sub hsub
    rcases processBatch_cases nowTs hfresh hkeys hvalid with
      ⟨hnot, -⟩ | ⟨batch, db', cmds, -, hflush, hpart, hall, hresult⟩
    · exact absurd hfree hnot
    · rw [hresult]
      obtain ⟨before, after, hsubs⟩ := List.append_of_mem hsub
      refine ⟨(flush_committed hfresh hflush hsubs).1 ⟨hnew sub hsub, fun hmem => ?_⟩,
        (published_iff hpart hsub).mpr fun cmd hcmd => ?_⟩
      · -- the keys of the batch are distinct
        rw [hsubs, List.map_append, List.map_cons, List.nodup_append] at hdistinct
        exact hdistinct.2.2 _ hmem _ List.mem_cons_self rfl
      · exact hall cmd (List.mem_flatMap.mpr ⟨sub, hsub, hcmd⟩)
  · intro hbad
    refine ⟨processBatch_refused fun batch db' hflush => ?_, fun sub hsub =>
      ⟨hfresh.notInDb hsub, hkeys.absent sub hsub⟩⟩
    exact hbad ((flush_ok_iff nowTs hfresh).mp ⟨batch, db', hflush⟩).1

/-- Two requests that can be stored: the second one is, and is published. -/
theorem batch_all_or_nothing_two :
    Committed jsonbOne (lone "l" jobY taskB) (processBatch jsonbOne (fun _ => []) {} 0
        ([lone "k" jobX taskA, lone "l" jobY taskB].map Submission.item) .empty .empty).1 ∧
      Published (fun _ => []) (lone "l" jobY taskB) (processBatch jsonbOne (fun _ => []) {} 0
        ([lone "k" jobX taskA, lone "l" jobY taskB].map Submission.item) .empty .empty).2 := by
  refine (batch_all_or_nothing 0 (freshIds_empty (by decide) (by decide)) (freshKeys_empty _)
    (by decide) fun _ _ => List.not_mem_nil).1 ?_ _ (by simp)
  intro sub hsub
  rcases List.mem_pair.mp hsub with rfl | rfl
  · exact loneRequest_storable (by decide)
  · exact loneRequest_storable (by decide)

/-- A request whose edge names an unknown task. -/
def danglingRequest : SubmitDagRequest where
  idempotencyKey := "l"
  tasks := [{ naturalId := "b", funcName := "add", funcParams := "1" }]
  edges := [⟨"b", "c"⟩]
  edgesSize := by decide

def dangling : Submission where
  req := danglingRequest
  jobId := jobY
  uuids := [taskB]
  oneEach := rfl

/-- **A neighbour's dangling edge**: the lookup throws, the transaction is
rolled back, and the job of the other request is nowhere. -/
theorem neighbour_drops_job :
    (lone "k" jobX taskA).req.Storable jsonbOne ∧
    ¬ (Committed jsonbOne (lone "k" jobX taskA) (processBatch jsonbOne (fun _ => []) {} 0
        ([lone "k" jobX taskA, dangling].map Submission.item) .empty .empty).1 ∧
      Published (fun _ => []) (lone "k" jobX taskA) (processBatch jsonbOne (fun _ => []) {} 0
        ([lone "k" jobX taskA, dangling].map Submission.item) .empty .empty).2) := by
  have hfresh : FreshIds [lone "k" jobX taskA, dangling] .empty :=
    freshIds_empty (by decide) (by decide)
  refine ⟨loneRequest_storable (by decide), ?_⟩
  rw [processBatch_refused]
  · rintro ⟨hcommitted, -⟩
    exact hcommitted.not_notInDb (hfresh.notInDb List.mem_cons_self)
  · intro batch db' hflush
    have hvalid := ((flush_ok_iff 0 hfresh).mp ⟨batch, db', hflush⟩).1
    have hlisted := (hvalid dangling (by simp)).listed.child ⟨"b", "c"⟩ (by decide)
    exact absurd hlisted (by decide)

end Isolation

end DistTaskSystem
