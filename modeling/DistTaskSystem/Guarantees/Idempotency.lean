import DistTaskSystem.Guarantees.Submission

/-!
# DTS — repeated keys

The job row of a repeated idempotency key is dropped (`ON CONFLICT DO
NOTHING`), while the tasks of the repetition are copied under the new job id:
the foreign key to the missing job row then rolls the whole batch back.
`idempotent_iff` says which sequences of batches nevertheless leave exactly one
stored and published submission for every key.
-/

namespace DistTaskSystem

/-! ## Runs of batches -/

/-- One call of `ProcessBatch`: its clock and its items. -/
structure Flush where
  nowTs : Int
  subs : List Submission

section Run

variable (jsonbIn : String → Option String) (serialize : PbTask → List UInt8)

/-- The stores after a sequence of batches, without any failure. -/
def runBatches (batches : List Flush) (s : Db × Redis) : Db × Redis :=
  batches.foldl (fun s flush => processBatch jsonbIn serialize {} flush.nowTs
    (flush.subs.map Submission.item) s.1 s.2) s

/-- All submissions of a sequence of batches. -/
def submitted (batches : List Flush) : List Submission := batches.flatMap Flush.subs

/-- The submission is stored and published. -/
def Served (sub : Submission) (s : Db × Redis) : Prop :=
  Committed jsonbIn sub s.1 ∧ Published serialize sub s.2

/-- Every submitted key has exactly one submission that is stored and published. -/
def OnePerKey (subs : List Submission) (s : Db × Redis) : Prop :=
  ∀ sub ∈ subs, ∃! served, served ∈ subs ∧
    served.req.idempotencyKey = sub.req.idempotencyKey ∧ Served jsonbIn serialize served s

end Run

/-- The submissions have keys among those of others. -/
def keysOf (subs : List Submission) : List String := subs.map fun sub => sub.req.idempotencyKey

/-- The batch is safe after the submissions `earlier`: none of its requests
with tasks repeats a key, or it brings no new key at all. -/
def SafeAfter (earlier : List Submission) (subs : List Submission) : Prop :=
  (∀ before sub after, subs = before ++ sub :: after → sub.req.tasks ≠ [] →
    sub.req.idempotencyKey ∉ keysOf earlier ∧ sub.req.idempotencyKey ∉ keysOf before) ∨
  keysOf subs ⊆ keysOf earlier

/-! ## One batch -/

section Step

variable {jsonbIn : String → Option String} {serialize : PbTask → List UInt8}
  {subs rest : List Submission} {db : Db} {r : Redis} {nowTs : Int}

/-- Ids that are fresh for two groups stay fresh for the second one. -/
theorem FreshIds.after (hfresh : FreshIds (subs ++ rest) db)
    {batch : List BatchItem} {db' : Db}
    (hflush : flushDBBatch jsonbIn nowTs (subs.map Submission.item) db = .ok (batch, db')) :
    FreshIds rest db' := by
  obtain ⟨hjobRows, htaskRows⟩ := flush_rows hflush
  have hjobs := hfresh.jobs
  have huuids := hfresh.uuids
  rw [List.map_append, List.nodup_append] at hjobs
  rw [List.flatMap_append, List.nodup_append] at huuids
  refine ⟨hjobs.2.1, huuids.2.1, fun sub hsub hmem => ?_, fun sub hsub u hu hmem => ?_⟩
  · obtain ⟨row, hrow, hid⟩ := List.mem_map.mp hmem
    rcases hjobRows row hrow with hold | ⟨other, hother, hstored⟩
    · exact hfresh.newJobs sub (List.mem_append_right _ hsub) (List.mem_map.mpr ⟨row, hold, hid⟩)
    · exact hjobs.2.2 _ (List.mem_map_of_mem hother) _ (List.mem_map_of_mem hsub)
        (hstored.jobId.symm.trans hid)
  · obtain ⟨row, hrow, rfl⟩ := List.mem_map.mp hmem
    rcases htaskRows row hrow with hold | ⟨other, hother, hmem'⟩
    · exact hfresh.newTasks sub (List.mem_append_right _ hsub) _ hu (List.mem_map_of_mem hold)
    · exact huuids.2.2 _ (List.mem_flatMap.mpr ⟨other, hother, hmem'⟩) _
        (List.mem_flatMap.mpr ⟨sub, hsub, hu⟩) rfl

theorem FreshIds.left (hfresh : FreshIds (subs ++ rest) db) : FreshIds subs db where
  jobs := (List.nodup_append.mp (List.map_append ▸ hfresh.jobs)).1
  uuids := (List.nodup_append.mp (List.flatMap_append ▸ hfresh.uuids)).1
  newJobs sub hsub := hfresh.newJobs sub (List.mem_append_left _ hsub)
  newTasks sub hsub := hfresh.newTasks sub (List.mem_append_left _ hsub)

/-- The commands of a batch concern no submission outside it. -/
theorem PartOf.elsewhere {done : List PipeCmd} (hpart : PartOf serialize subs db r done)
    {sub : Submission}
    (hother : ∀ other ∈ subs, other.jobId ≠ sub.jobId ∧ List.Disjoint other.uuids sub.uuids) :
    AllElsewhere sub done := by
  intro cmd hcmd
  by_cases hexpire : cmd.isExpire = true
  · exact .inl hexpire
  · obtain ⟨other, hmem, hown⟩ := List.mem_flatMap.mp (hpart.mem hcmd (by simpa using hexpire))
    obtain ⟨hjob, huuids⟩ := hother other hmem
    exact .inr (elsewhere_of_ne (hpart.listed other hmem) hjob huuids hown)

/-- Two groups of a run have nothing in common. -/
theorem FreshIds.apart (hfresh : FreshIds (subs ++ rest) db) {sub other : Submission}
    (hsub : sub ∈ subs) (hother : other ∈ rest) :
    other.jobId ≠ sub.jobId ∧ List.Disjoint other.uuids sub.uuids := by
  have hjobs := hfresh.jobs
  rw [List.map_append, List.nodup_append] at hjobs
  have hne : other ≠ sub := by
    rintro rfl
    exact hjobs.2.2 _ (List.mem_map_of_mem hsub) _ (List.mem_map_of_mem hother) rfl
  exact hfresh.disjoint (List.mem_append_left _ hsub) (List.mem_append_right _ hother) hne

/-- What a batch does to the stores, as far as later batches depend on it. -/
structure FlushEffect (subs rest : List Submission) (s s' : Db × Redis) : Prop where
  fresh : FreshIds rest s'.1
  keys : FreshKeys rest s'.2
  rows : ∀ row ∈ s'.1.jobs, row ∈ s.1.jobs ∨ ∃ sub ∈ subs, JobStored sub row

/-- **The step**: ids that are fresh for a batch and the rest of the run are
still fresh for the rest, whether the batch was written or not. -/
theorem processBatch_effect (serialize : PbTask → List UInt8) (nowTs : Int)
    (hfresh : FreshIds (subs ++ rest) db) (hkeys : FreshKeys (subs ++ rest) r)
    (hvalid : ∀ sub ∈ subs, sub.req.Storable jsonbIn) :
    FlushEffect subs rest (db, r)
      (processBatch jsonbIn serialize {} nowTs (subs.map Submission.item) db r) := by
  have hkeysLeft : FreshKeys subs r :=
    ⟨fun sub hsub => hkeys.absent sub (List.mem_append_left _ hsub), hkeys.tasks⟩
  rcases processBatch_cases nowTs hfresh.left hkeysLeft hvalid with
    ⟨-, hresult⟩ | ⟨batch, db', cmds, -, hflush, hpart, -, hresult⟩
  · -- refused: the stores are as before
    rw [hresult]
    have hjobs := hfresh.jobs
    have huuids := hfresh.uuids
    rw [List.map_append, List.nodup_append] at hjobs
    rw [List.flatMap_append, List.nodup_append] at huuids
    exact ⟨⟨hjobs.2.1, huuids.2.1,
      fun sub hsub => hfresh.newJobs sub (List.mem_append_right _ hsub),
      fun sub hsub => hfresh.newTasks sub (List.mem_append_right _ hsub)⟩,
      ⟨fun sub hsub => hkeys.absent sub (List.mem_append_right _ hsub), hkeys.tasks⟩,
      fun row hrow => .inl hrow⟩
  · rw [hresult]
    refine ⟨hfresh.after hflush, ⟨fun sub hsub => ?_, ?_⟩, (flush_rows hflush).1⟩
    · refine (hkeys.absent sub (List.mem_append_right _ hsub)).frame hpart.fits (hpart.elsewhere ?_)
      intro other hother
      obtain ⟨hjob, huuids⟩ := hfresh.apart hother hsub
      exact ⟨fun heq => hjob heq.symm, huuids.symm⟩
    · exact execPipeline_typed (k := .tasks) hpart.fits hkeys.tasks

/-- A served submission stays served when a batch without it is processed. -/
theorem Served.step (nowTs : Int) {sub : Submission}
    (hserved : Served jsonbIn serialize sub (db, r))
    (hfresh : FreshIds subs db) (hkeys : FreshKeys subs r)
    (hvalid : ∀ sub ∈ subs, sub.req.Storable jsonbIn)
    (hother : ∀ other ∈ subs, other.jobId ≠ sub.jobId ∧ List.Disjoint other.uuids sub.uuids) :
    Served jsonbIn serialize sub
      (processBatch jsonbIn serialize {} nowTs (subs.map Submission.item) db r) := by
  rcases processBatch_cases nowTs hfresh hkeys hvalid with
    ⟨-, hresult⟩ | ⟨batch, db', cmds, -, hflush, hpart, -, hresult⟩
  · rw [hresult]
    exact hserved
  · rw [hresult]
    obtain ⟨hj, ht, he⟩ := flush_grows hflush
    exact ⟨hserved.1.mono hj ht he, hserved.2.frame hpart.fits (hpart.elsewhere hother)⟩

/-- A key has one job row, and a job id one submission. -/
theorem committed_unique {all : List Submission} (hjobs : (all.map Submission.jobId).Nodup)
    {a b : Submission} (ha : a ∈ all) (hb : b ∈ all)
    (hkey : a.req.idempotencyKey = b.req.idempotencyKey) (hca : Committed jsonbIn a db)
    (hcb : Committed jsonbIn b db) : a = b := by
  obtain ⟨row, hrow, hstored⟩ := hca.job
  obtain ⟨row', hrow', hstored'⟩ := hcb.job
  have hsame : row = row' := by
    refine List.inj_on_of_nodup_map db.jobIdempotencyKey hrow hrow' ?_
    rw [hstored.key, hstored'.key, hkey]
  subst hsame
  exact List.inj_on_of_nodup_map hjobs ha hb (hstored.jobId.symm.trans hstored'.jobId)

/-- The first submission of a key in a batch. -/
theorem first_of_key {sub : Submission} (hsub : sub ∈ subs) :
    ∃ front first back, subs = front ++ first :: back ∧
      first.req.idempotencyKey = sub.req.idempotencyKey ∧
      sub.req.idempotencyKey ∉ front.map fun s => s.req.idempotencyKey := by
  induction subs with
  | nil => exact absurd hsub List.not_mem_nil
  | cons head tail ih =>
    by_cases hkey : head.req.idempotencyKey = sub.req.idempotencyKey
    · exact ⟨[], head, tail, rfl, hkey, List.not_mem_nil⟩
    · have htail : sub ∈ tail := by
        rcases List.mem_cons.mp hsub with rfl | hmem
        · exact absurd rfl hkey
        · exact hmem
      obtain ⟨front, first, back, rfl, hsame, hnew⟩ := ih htail
      refine ⟨head :: front, first, back, rfl, hsame, ?_⟩
      rw [List.map_cons, List.mem_cons, not_or]
      exact ⟨fun heq => hkey heq.symm, hnew⟩

end Step

/-! ## Runs -/

section Run

variable {jsonbIn : String → Option String} {serialize : PbTask → List UInt8}
  {batches before after : List Flush} {flush : Flush} {db : Db} {r : Redis}

/-- A run of storable requests with new keys, under fresh ids. -/
structure CleanRun (jsonbIn : String → Option String) (batches : List Flush) (db : Db) (r : Redis) :
    Prop where
  fresh : FreshIds (submitted batches) db
  keys : FreshKeys (submitted batches) r
  valid : ∀ sub ∈ submitted batches, sub.req.Storable jsonbIn
  newKeys : ∀ sub ∈ submitted batches,
    sub.req.idempotencyKey ∉ db.jobs.map JobRow.idempotencyKey

theorem submitted_append (before after : List Flush) :
    submitted (before ++ after) = submitted before ++ submitted after :=
  List.flatMap_append

theorem submitted_cons (flush : Flush) (after : List Flush) :
    submitted (flush :: after) = flush.subs ++ submitted after :=
  List.flatMap_cons

theorem runBatches_snoc (s : Db × Redis) :
    runBatches jsonbIn serialize (before ++ [flush]) s =
      processBatch jsonbIn serialize {} flush.nowTs (flush.subs.map Submission.item)
        (runBatches jsonbIn serialize before s).1 (runBatches jsonbIn serialize before s).2 := by
  unfold runBatches
  rw [List.foldl_append]
  rfl

/-- **The run**: at every point the ids of what is still to come are fresh, and
every job row is an old one or belongs to a submission processed so far. -/
theorem runBatches_effect (serialize : PbTask → List UInt8)
    (hfresh : FreshIds (submitted (before ++ after)) db)
    (hkeys : FreshKeys (submitted (before ++ after)) r)
    (hvalid : ∀ sub ∈ submitted (before ++ after), sub.req.Storable jsonbIn) :
    FlushEffect (submitted before) (submitted after) (db, r)
      (runBatches jsonbIn serialize before (db, r)) := by
  induction before generalizing db r with
  | nil => exact ⟨hfresh, hkeys, fun row hrow => .inl hrow⟩
  | cons flush rest ih =>
    rw [List.cons_append, submitted_cons] at hfresh hkeys hvalid
    have hstep := processBatch_effect serialize flush.nowTs hfresh hkeys
      fun sub hsub => hvalid sub (List.mem_append_left _ hsub)
    have hrest := ih hstep.fresh hstep.keys fun sub hsub =>
      hvalid sub (List.mem_append_right _ hsub)
    refine ⟨hrest.fresh, hrest.keys, fun row hrow => ?_⟩
    rw [submitted_cons]
    rcases hrest.rows row hrow with hold | ⟨sub, hsub, hstored⟩
    · rcases hstep.rows row hold with hold | ⟨sub, hsub, hstored⟩
      · exact .inl hold
      · exact .inr ⟨sub, List.mem_append_left _ hsub, hstored⟩
    · exact .inr ⟨sub, List.mem_append_right _ hsub, hstored⟩

/-- What holds of a clean run just before a batch. -/
theorem CleanRun.sofar (serialize : PbTask → List UInt8)
    (h : CleanRun jsonbIn (before ++ flush :: after) db r) :
    FlushEffect (submitted before) (flush.subs ++ submitted after) (db, r)
      (runBatches jsonbIn serialize before (db, r)) := by
  have heffect := runBatches_effect serialize h.fresh h.keys h.valid
  rwa [submitted_cons] at heffect

/-- As long as every key was served, the stored keys are the submitted ones. -/
theorem CleanRun.key_stored (h : CleanRun jsonbIn (before ++ flush :: after) db r)
    (hserved : OnePerKey jsonbIn serialize (submitted before)
      (runBatches jsonbIn serialize before (db, r)))
    {sub : Submission} (hsub : sub ∈ submitted (before ++ flush :: after)) :
    sub.req.idempotencyKey ∈
        (runBatches jsonbIn serialize before (db, r)).1.jobs.map JobRow.idempotencyKey ↔
      sub.req.idempotencyKey ∈ keysOf (submitted before) := by
  constructor
  · intro hmem
    obtain ⟨row, hrow, hkey⟩ := List.mem_map.mp hmem
    rcases (h.sofar serialize).rows row hrow with hold | ⟨other, hother, hstored⟩
    · exact absurd (hkey ▸ List.mem_map_of_mem hold) (h.newKeys sub hsub)
    · rw [← hkey, hstored.key]
      exact List.mem_map_of_mem hother
  · intro hmem
    obtain ⟨other, hother, hkey⟩ := List.mem_map.mp hmem
    obtain ⟨served, ⟨-, hservedKey, hcommitted, -⟩, -⟩ := hserved other hother
    obtain ⟨row, hrow, hstored⟩ := hcommitted.job
    refine List.mem_map.mpr ⟨row, hrow, ?_⟩
    rw [hstored.key, hservedKey, hkey]

/-- Then a batch is written exactly if its requests with tasks repeat no key. -/
theorem CleanRun.keysFree_iff (h : CleanRun jsonbIn (before ++ flush :: after) db r)
    (hserved : OnePerKey jsonbIn serialize (submitted before)
      (runBatches jsonbIn serialize before (db, r))) :
    KeysFree flush.subs (runBatches jsonbIn serialize before (db, r)).1 ↔
      ∀ front sub back, flush.subs = front ++ sub :: back → sub.req.tasks ≠ [] →
        sub.req.idempotencyKey ∉ keysOf (submitted before) ∧
          sub.req.idempotencyKey ∉ keysOf front := by
  unfold KeysFree Submission.KeyNew
  refine forall_congr' fun front => forall_congr' fun sub => forall_congr' fun back =>
    forall_congr' fun hsubs => forall_congr' fun _ => and_congr_left' (not_congr ?_)
  refine h.key_stored hserved ?_
  rw [submitted_append, submitted_cons, hsubs]
  simp

/-! What one more batch can rely on. -/

theorem CleanRun.mem_run (h : CleanRun jsonbIn (before ++ flush :: after) db r)
    {sub : Submission} (hsub : sub ∈ flush.subs) :
    sub ∈ submitted (before ++ flush :: after) ∧ sub.req.Storable jsonbIn := by
  have hmem : sub ∈ submitted (before ++ flush :: after) := by
    rw [submitted_append, submitted_cons]
    exact List.mem_append_right _ (List.mem_append_left _ hsub)
  exact ⟨hmem, h.valid sub hmem⟩

/-- The keys of the batch are free when it is processed. -/
theorem CleanRun.freshKeys (serialize : PbTask → List UInt8)
    (h : CleanRun jsonbIn (before ++ flush :: after) db r) :
    FreshKeys flush.subs (runBatches jsonbIn serialize before (db, r)).2 :=
  have hkeys := (h.sofar serialize).keys
  ⟨fun sub hsub => hkeys.absent sub (List.mem_append_left _ hsub), hkeys.tasks⟩

/-- All submissions of the run up to the batch have their own ids. -/
theorem CleanRun.ids (h : CleanRun jsonbIn (before ++ flush :: after) db r) :
    FreshIds (submitted before ++ flush.subs) db := by
  have hfresh := h.fresh
  rw [submitted_append, submitted_cons, ← List.append_assoc] at hfresh
  exact hfresh.left

/-- What was served before the batch still is after it. -/
theorem CleanRun.kept (h : CleanRun jsonbIn (before ++ flush :: after) db r)
    {sub : Submission} (hsub : sub ∈ submitted before)
    (hs : Served jsonbIn serialize sub (runBatches jsonbIn serialize before (db, r))) :
    Served jsonbIn serialize sub (runBatches jsonbIn serialize (before ++ [flush]) (db, r)) := by
  rw [runBatches_snoc]
  exact hs.step flush.nowTs (h.sofar serialize).fresh.left (h.freshKeys serialize)
    (fun sub hsub => (h.mem_run hsub).2) fun other hother => h.ids.apart hsub hother

/-- A key that was served before the batch still is after it. -/
theorem CleanRun.kept_key (h : CleanRun jsonbIn (before ++ flush :: after) db r)
    (hserved : OnePerKey jsonbIn serialize (submitted before)
      (runBatches jsonbIn serialize before (db, r)))
    {sub : Submission} (hkey : sub.req.idempotencyKey ∈ keysOf (submitted before)) :
    ∃ served ∈ submitted before ++ flush.subs,
      served.req.idempotencyKey = sub.req.idempotencyKey ∧ Served jsonbIn serialize served
        (runBatches jsonbIn serialize (before ++ [flush]) (db, r)) := by
  obtain ⟨first, hfirst, hsame⟩ := List.mem_map.mp hkey
  obtain ⟨served, ⟨hmem, hservedKey, hs⟩, -⟩ := hserved first hfirst
  exact ⟨served, List.mem_append_left _ hmem, hservedKey.trans hsame, h.kept hmem hs⟩

/-- At most one submission of a key is served, so it is enough to find one. -/
theorem onePerKey_iff {subs : List Submission} {s : Db × Redis}
    (hjobs : (subs.map Submission.jobId).Nodup) :
    OnePerKey jsonbIn serialize subs s ↔
      ∀ sub ∈ subs, ∃ served ∈ subs,
        served.req.idempotencyKey = sub.req.idempotencyKey ∧
          Served jsonbIn serialize served s := by
  refine forall₂_congr fun sub hsub => ⟨?_, ?_⟩
  · rintro ⟨served, ⟨hmem, hkey, hs⟩, -⟩
    exact ⟨served, hmem, hkey, hs⟩
  · rintro ⟨served, hmem, hkey, hs⟩
    refine ⟨served, ⟨hmem, hkey, hs⟩, ?_⟩
    rintro other ⟨hmem', hkey', hs'⟩
    exact committed_unique hjobs hmem' hmem (hkey'.trans hkey.symm) hs'.1 hs.1

/-- **One batch**: if every key has been served so far, then after the batch
every key is served if and only if the batch is safe. -/
theorem CleanRun.step_iff (h : CleanRun jsonbIn (before ++ flush :: after) db r)
    (hserved : OnePerKey jsonbIn serialize (submitted before)
      (runBatches jsonbIn serialize before (db, r))) :
    OnePerKey jsonbIn serialize (submitted (before ++ [flush]))
        (runBatches jsonbIn serialize (before ++ [flush]) (db, r)) ↔
      SafeAfter (submitted before) flush.subs := by
  have hfresh := (h.sofar serialize).fresh.left
  have hsubmitted : submitted (before ++ [flush]) = submitted before ++ flush.subs := by
    rw [submitted_append, submitted_cons]
    simp [submitted]
  rw [hsubmitted, onePerKey_iff h.ids.jobs]
  unfold SafeAfter
  rw [← h.keysFree_iff hserved]
  rcases processBatch_cases flush.nowTs hfresh (h.freshKeys serialize)
      (fun sub hsub => (h.mem_run hsub).2) with
    ⟨hnot, hresult⟩ | ⟨batch, db', cmds, hfree, hflush, hpart, hall, hresult⟩
  · -- the batch was refused: the stores are as before
    rw [or_iff_right hnot]
    constructor
    · intro hone key hkey
      obtain ⟨sub, hsub, rfl⟩ := List.mem_map.mp hkey
      obtain ⟨served, hmem, hsame, hs⟩ := hone sub (List.mem_append_right _ hsub)
      rw [runBatches_snoc, hresult] at hs
      obtain ⟨row, hrow, hstored⟩ := hs.1.job
      refine (h.key_stored hserved (h.mem_run hsub).1).mp (List.mem_map.mpr ⟨row, hrow, ?_⟩)
      rw [hstored.key, hsame]
    · intro hsubset sub hsub
      refine h.kept_key hserved ?_
      rcases List.mem_append.mp hsub with hsub | hsub
      · exact List.mem_map_of_mem hsub
      · exact hsubset (List.mem_map_of_mem hsub)
  · -- the batch was written: the first submission of a new key is served
    refine iff_of_true (fun sub hsub => ?_) (.inl hfree)
    by_cases hkey : sub.req.idempotencyKey ∈ keysOf (submitted before)
    · exact h.kept_key hserved hkey
    · have hsubFlush : sub ∈ flush.subs :=
        (List.mem_append.mp hsub).resolve_left fun hmem => hkey (List.mem_map_of_mem hmem)
      obtain ⟨front, first, back, hsplit, hsame, hnew⟩ := first_of_key hsubFlush
      have hfirst : first ∈ flush.subs := hsplit ▸ List.mem_append_right _ List.mem_cons_self
      refine ⟨first, List.mem_append_right _ hfirst, hsame, ?_⟩
      rw [runBatches_snoc, hresult]
      refine ⟨(flush_committed hfresh hflush hsplit).1 ⟨fun hmem => hkey ?_, hsame ▸ hnew⟩,
        (published_iff hpart hfirst).mpr fun cmd hcmd =>
          hall cmd (List.mem_flatMap.mpr ⟨first, hfirst, hcmd⟩)⟩
      rw [← hsame]
      exact (h.key_stored hserved (h.mem_run hfirst).1).mp hmem

/-- **Idempotent submission.** In a run of storable requests with new keys,
every submitted key has at every point exactly one submission that is stored
and published, if and only if every batch is safe after the ones before it. -/
theorem idempotent_iff (h : CleanRun jsonbIn batches db r) :
    (∀ before after, batches = before ++ after →
      OnePerKey jsonbIn serialize (submitted before)
        (runBatches jsonbIn serialize before (db, r))) ↔
    ∀ before flush after, batches = before ++ flush :: after →
      SafeAfter (submitted before) flush.subs := by
  constructor
  · intro hall before flush after hbatches
    subst hbatches
    exact (h.step_iff (hall before (flush :: after) rfl)).mp
      (hall (before ++ [flush]) after (by simp))
  · intro hsafe before
    -- induction on the batches processed so far
    induction before using List.reverseRecOn with
    | nil => exact fun _ _ sub hsub => absurd hsub List.not_mem_nil
    | append_singleton before flush ih =>
      intro after hbatches
      rw [List.append_assoc, List.singleton_append] at hbatches
      have hserved := ih (flush :: after) hbatches
      subst hbatches
      exact (h.step_iff hserved).mpr (hsafe before flush after rfl)

def jobZ : Uuid := ⟨"22222222-2222-2222-2222-222222222222", by decide⟩

/-- A request with one task, on its own. -/
def loneFlush (key : String) (jobId taskId : Uuid) : Flush := ⟨0, [lone key jobId taskId]⟩

/-- The key `k` again, together with a request of another client. -/
def repeatedFlush : Flush := ⟨1, [lone "k" jobY taskB, lone "l" jobZ taskC]⟩

theorem cleanRun_of_lone {batches : List Flush}
    (hlone : ∀ sub ∈ submitted batches, ∃ key jobId taskId, nulFree key = true ∧
      sub = lone key jobId taskId)
    (hjobs : ((submitted batches).map Submission.jobId).Nodup)
    (huuids : ((submitted batches).flatMap Submission.uuids).Nodup) :
    CleanRun jsonbOne batches .empty .empty where
  fresh := freshIds_empty hjobs huuids
  keys := freshKeys_empty _
  valid sub hsub := by
    obtain ⟨key, jobId, taskId, hkey, rfl⟩ := hlone sub hsub
    exact loneRequest_storable hkey
  newKeys _ _ := List.not_mem_nil

/-- Two requests with different keys, and then the first key again. -/
def repeatingRun : List Flush :=
  [loneFlush "k" jobX taskA, loneFlush "l" jobY taskB, loneFlush "k" jobZ taskC]

theorem repeatingRun_clean : CleanRun jsonbOne repeatingRun .empty .empty := by
  refine cleanRun_of_lone (fun sub hsub => ?_) (by decide) (by decide)
  have hcases : sub = lone "k" jobX taskA ∨ sub = lone "l" jobY taskB ∨
      sub = lone "k" jobZ taskC := by
    simpa [repeatingRun, submitted, loneFlush] using hsub
  rcases hcases with rfl | rfl | rfl
  · exact ⟨"k", jobX, taskA, by decide, rfl⟩
  · exact ⟨"l", jobY, taskB, by decide, rfl⟩
  · exact ⟨"k", jobZ, taskC, by decide, rfl⟩

/-- A batch of a single request is safe when its key is new. -/
theorem safeAfter_lone {earlier : List Submission} {key : String} {jobId taskId : Uuid}
    (hkey : key ∉ keysOf earlier) : SafeAfter earlier (loneFlush key jobId taskId).subs := by
  refine .inl fun front sub back hsubs _ => ?_
  obtain ⟨rfl, rfl⟩ : front = [] ∧ sub = lone key jobId taskId := by
    cases front with
    | nil => exact ⟨rfl, (List.cons.inj hsubs).1.symm⟩
    | cons head tail => simp [loneFlush] at hsubs
  exact ⟨hkey, List.not_mem_nil⟩

/-- The third batch only repeats a key that was served: each key still has one submission,
though `k` was submitted twice. -/
theorem idempotent_iff_repeated :
    OnePerKey jsonbOne (fun _ => []) (submitted repeatingRun)
      (runBatches jsonbOne (fun _ => []) repeatingRun (.empty, .empty)) ∧
    (keysOf (submitted repeatingRun)).count "k" = 2 := by
  refine ⟨(idempotent_iff repeatingRun_clean).mpr (fun before flush after hbatches => ?_) _ []
    (List.append_nil _).symm, by decide⟩
  unfold repeatingRun at hbatches
  rcases before with _ | ⟨first, _ | ⟨second, _ | ⟨third, rest⟩⟩⟩
  · cases hbatches
    exact safeAfter_lone List.not_mem_nil
  · cases hbatches
    exact safeAfter_lone (by decide)
  · cases hbatches
    refine .inr fun key hkey => ?_
    obtain rfl := List.mem_singleton.mp hkey
    decide
  · simp at hbatches

/-- **A repeated key takes its neighbour along**: the second batch is rolled
back, and the request with the new key is neither stored nor published. -/
theorem repeated_key_drops_neighbour :
    CleanRun jsonbOne [loneFlush "k" jobX taskA, repeatedFlush] .empty .empty ∧
    ¬ OnePerKey jsonbOne (fun _ => [])
      (submitted [loneFlush "k" jobX taskA, repeatedFlush])
      (runBatches jsonbOne (fun _ => []) [loneFlush "k" jobX taskA, repeatedFlush]
        (.empty, .empty)) := by
  have hclean : CleanRun jsonbOne [loneFlush "k" jobX taskA, repeatedFlush] .empty .empty := by
    refine cleanRun_of_lone (fun sub hsub => ?_) (by decide) (by decide)
    rcases List.mem_cons.mp hsub with rfl | hsub
    · exact ⟨"k", jobX, taskA, by decide, rfl⟩
    · rcases List.mem_pair.mp hsub with rfl | rfl
      · exact ⟨"k", jobY, taskB, by decide, rfl⟩
      · exact ⟨"l", jobZ, taskC, by decide, rfl⟩
  refine ⟨hclean, fun hone => ?_⟩
  -- the first batch is served
  have hstart : OnePerKey jsonbOne (fun _ => [])
        (submitted ([] ++ [loneFlush "k" jobX taskA]))
        (runBatches jsonbOne (fun _ => []) ([] ++ [loneFlush "k" jobX taskA]) (.empty, .empty)) ↔
      SafeAfter (submitted []) (loneFlush "k" jobX taskA).subs :=
    hclean.step_iff fun sub hsub => absurd hsub List.not_mem_nil
  have hfirst := hstart.mpr (.inl fun front sub back hsubs _ => by
    cases front with
    | nil => exact ⟨List.not_mem_nil, List.not_mem_nil⟩
    | cons head tail => simp [loneFlush] at hsubs)
  -- the second one repeats its key and brings a new one
  have hnext : OnePerKey jsonbOne (fun _ => [])
        (submitted ([loneFlush "k" jobX taskA] ++ [repeatedFlush]))
        (runBatches jsonbOne (fun _ => []) ([loneFlush "k" jobX taskA] ++ [repeatedFlush])
          (.empty, .empty)) ↔
      SafeAfter (submitted [loneFlush "k" jobX taskA]) repeatedFlush.subs :=
    hclean.step_iff hfirst
  have hsafe := hnext.mp hone
  rcases hsafe with hfree | hold
  · have hkey := (hfree [] (lone "k" jobY taskB) _ rfl (by decide)).1
    exact absurd hkey (by decide)
  · exact absurd (hold (show "l" ∈ keysOf repeatedFlush.subs by decide)) (by decide)

end Run

end DistTaskSystem
