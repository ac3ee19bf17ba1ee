import DistTaskSystem.Guarantees.Reports
import DistTaskSystem.Guarantees.WriteBehind
import DistTaskSystem.Scheduler.Reporting

/-!
# DTS — flush timing

Two runs of `Reporting` with the same reports and different flushes. The retry
counts and the entries pushed for retries are the same in both, because a flush
writes no column `HandleTaskFailure` or `GetTaskById` reads. The state of a row
is not: a flush overwrites it, so a failure report that comes after the SUCCESS
report of its task finds either outcome, depending on a timer.

## Results

* `tracks_schedule`   — what a schedule shares with the run without flushes.
* `flush_timing_iff`  — the outcome depends on the reports alone exactly if no
  failure report follows the SUCCESS report of its task.
-/

namespace DistTaskSystem

namespace Reporting

open Runs

variable {svc : SchedulerService} {jsonbIn : String → Option String} {redis : Redis} {db : Db}
  {s t u : Reporting} {reports reports' : List StatusReport} {id : Uuid}

-- ---------------------------------------------------------------------------
-- Schedules
-- ---------------------------------------------------------------------------

/-- Every flush commits its batch. -/
def FlushCommits (jsonbIn : String → Option String) (s : Reporting) : Action → Prop
  | .batcher (.flush env) => env.Commits jsonbIn s.batcher.batch
  | _ => True

/-- `t` is reached from `s` by the reports in their order, with successful
flushes anywhere between them. -/
def Schedule (svc : SchedulerService) (jsonbIn : String → Option String) (s : Reporting)
    (reports : List StatusReport) (t : Reporting) : Prop :=
  ∃ actions, run (step svc jsonbIn) s actions = some t ∧ reportsOf actions = reports ∧
    Along (step svc jsonbIn) (FlushCommits jsonbIn) s actions

/-- Nothing is left to flush. -/
def Drained (s : Reporting) : Prop := s.batcher.queue = [] ∧ s.batcher.batch = []

/-- The state and retry count of every row agree, and so do the entries pushed
for retries. -/
def SameOutcome (s s' : Reporting) : Prop :=
  (∀ id, (s.batcher.db.task? id).map (fun row => (row.run.state, row.run.retryCount)) =
    (s'.batcher.db.task? id).map (fun row => (row.run.state, row.run.retryCount))) ∧
  s.readded.Perm s'.readded

theorem Schedule.refl (s : Reporting) : Schedule svc jsonbIn s [] s := ⟨[], rfl, rfl, trivial⟩

theorem Schedule.trans (h : Schedule svc jsonbIn s reports t)
    (h' : Schedule svc jsonbIn t reports' u) : Schedule svc jsonbIn s (reports ++ reports') u := by
  obtain ⟨actions, hrun, hreports, hflush⟩ := h
  obtain ⟨actions', hrun', hreports', hflush'⟩ := h'
  refine ⟨actions ++ actions', run_append.mpr ⟨t, hrun, hrun'⟩, ?_,
    (along_append hrun).mpr ⟨hflush, hflush'⟩⟩
  rw [reportsOf, List.filterMap_append, ← reportsOf, ← reportsOf, hreports, hreports']

/-- The state after the reports, if the thread does nothing. -/
def reportAll (svc : SchedulerService) (s : Reporting) (reports : List StatusReport) : Reporting :=
  reports.foldl (fun s r => s.report svc r) s

theorem schedule_reportAll (svc : SchedulerService) (jsonbIn : String → Option String)
    (s : Reporting) (reports : List StatusReport) :
    Schedule svc jsonbIn s reports (s.reportAll svc reports) := by
  induction reports generalizing s with
  | nil => exact Schedule.refl s
  | cons r reports ih =>
    have hone : Schedule svc jsonbIn s [r] (s.report svc r) :=
      ⟨[.report r], rfl, rfl, trivial, fun _ _ => trivial⟩
    exact hone.trans (ih (s.report svc r))

-- ---------------------------------------------------------------------------
-- What a step does to the table and to the updates held
-- ---------------------------------------------------------------------------

/-- The updates that are not written yet. -/
def held (s : Reporting) : List TaskUpdateOp := s.batcher.batch ++ s.batcher.queue

theorem held_report (svc : SchedulerService) (r : StatusReport) (s : Reporting) :
    (s.report svc r).held = s.held ++ if r.Queues svc then [r.update] else [] := by
  rw [held, held, report_batch, report_queue, List.append_assoc]

/-- **Inversion.** A step is a report, leaves the table and the updates alone,
or writes the batch. -/
theorem step_cases {a : Action} (hstep : s.step svc jsonbIn a = some t)
    (hflush : FlushCommits jsonbIn s a) :
    (∃ r, a = .report r ∧ t = s.report svc r) ∨
    (reportsOf [a] = [] ∧ Similar t s ∧ t.batcher.db = s.batcher.db ∧ t.held = s.held) ∨
    (reportsOf [a] = [] ∧ Similar t s ∧ t.held = s.batcher.queue ∧
      ∃ env : FlushEnv, env.Commits jsonbIn s.batcher.batch ∧
        t.batcher.db = flushBatch jsonbIn env s.batcher.batch s.batcher.db) := by
  cases a with
  | report r => exact Or.inl ⟨r, rfl, (Option.some.inj hstep).symm⟩
  | batcher a =>
    right
    obtain ⟨hadd, b, hb, rfl⟩ := step_batcher hstep
    have hsame : ∀ db', Alike db' s.batcher.db →
        Similar { s with batcher := { b with db := db' } } s :=
      fun db' hdb => ⟨rfl, rfl, rfl, hdb⟩
    cases DbBatcher.step_moves hb with
    | add op => exact absurd rfl (hadd op)
    | fill timedOut hpoint hqueue =>
      refine Or.inl ⟨rfl, hsame _ (Alike.refl _), rfl, ?_⟩
      show s.batcher.batch ++ s.batcher.queue.take _ ++ s.batcher.queue.drop _ = s.held
      rw [List.append_assoc, List.take_append_drop]
      rfl
    | flush env hpoint hbatch =>
      refine Or.inr ⟨rfl, hsame _ (flushBatch_alike _ _ _ _), rfl, env, hflush, rfl⟩
    | _ => exact Or.inl ⟨rfl, hsame _ (Alike.refl _), rfl, rfl⟩

-- ---------------------------------------------------------------------------
-- What a schedule shares with the run without flushes
-- ---------------------------------------------------------------------------

/-- An update of the task is not written yet. -/
def Pending (s : Reporting) (id : Uuid) : Prop :=
  ∃ op ∈ s.held, uuidIn (paramText op.taskId) = some id

theorem Drained.not_pending (h : s.Drained) : ¬ s.Pending id := by
  rintro ⟨op, hop, -⟩
  rw [held, h.1, h.2] at hop
  exact absurd hop List.not_mem_nil

/-- What holds after the reports, wherever the flushes were. -/
structure Tracks (svc : SchedulerService) (jsonbIn : String → Option String) (ref : Reporting)
    (reports : List StatusReport) (s : Reporting) : Prop where
  similar : Similar s ref
  queued : ∀ op ∈ s.held, ∃ r ∈ reports, r.Queues svc ∧ op = r.update
  passed : ∀ r ∈ reports, r.Queues svc → r.update ∈ s.held ∨ r.update.Valid jsonbIn

theorem Tracks.report (h : Tracks svc jsonbIn u reports s) (r : StatusReport) :
    Tracks svc jsonbIn (u.report svc r) (reports ++ [r]) (s.report svc r) := by
  refine ⟨h.similar.report r, fun op hop => ?_, fun r' hr' hqueues => ?_⟩
  · rw [held_report, List.mem_append] at hop
    rcases hop with hop | hop
    · obtain ⟨r', hr', hq, heq⟩ := h.queued op hop
      exact ⟨r', List.mem_append_left _ hr', hq, heq⟩
    · split at hop
      · next hq => exact ⟨r, by simp, hq, List.mem_singleton.mp hop⟩
      · exact absurd hop List.not_mem_nil
  · rw [held_report, List.mem_append]
    rcases List.mem_append.mp hr' with hold | hnew
    · rcases h.passed r' hold hqueues with hmem | hvalid
      · exact Or.inl (Or.inl hmem)
      · exact Or.inr hvalid
    · obtain rfl := List.mem_singleton.mp hnew
      rw [if_pos hqueues]
      exact Or.inl (Or.inr List.mem_cons_self)

/-- A batch that commits holds valid updates only. -/
theorem Tracks.flush (h : Tracks svc jsonbIn u reports s) (hsimilar : Similar t s)
    (hheld : t.held = s.batcher.queue) {env : FlushEnv}
    (hcommit : env.Commits jsonbIn s.batcher.batch) : Tracks svc jsonbIn u reports t := by
  refine ⟨hsimilar.trans h.similar, fun op hop => ?_, fun r hr hqueues => ?_⟩
  · rw [hheld] at hop
    exact h.queued op (List.mem_append_right _ hop)
  · rw [hheld]
    rcases h.passed r hr hqueues with hmem | hvalid
    · rcases List.mem_append.mp hmem with hbatch | hqueue
      · exact Or.inr (hcommit.2 _ hbatch)
      · exact Or.inl hqueue
    · exact Or.inr hvalid

theorem Tracks.idle (h : Tracks svc jsonbIn u reports s) (hsimilar : Similar t s)
    (hheld : t.held = s.held) : Tracks svc jsonbIn u reports t := by
  refine ⟨hsimilar.trans h.similar, ?_, ?_⟩
  · rw [hheld]
    exact h.queued
  · rw [hheld]
    exact h.passed

/-- The state a row has once nothing of its task is held: success if the task was
reported, else what the failures made of it. -/
def Settled (svc : SchedulerService) (ref : Reporting) (reports : List StatusReport)
    (s : Reporting) : Prop :=
  ∀ id row, s.batcher.db.task? id = some row →
    s.Pending id ∨
    ((∃ r ∈ reports, r.Finishes svc id) ∧ row.run.state = stateSuccess) ∨
    ((∀ r ∈ reports, ¬ r.Finishes svc id) ∧
      ∀ row', ref.batcher.db.task? id = some row' → row.run.state = row'.run.state)

/-- No failure of the task is kept after its SUCCESS report. -/
def NotReopened (svc : SchedulerService) (reports : List StatusReport) (id : Uuid) : Prop :=
  reports.Pairwise fun r r' => ¬ (r.Finishes svc id ∧ r'.FailsTask svc id)

theorem Settled.report (h : Tracks svc jsonbIn u reports s) (hs : Settled svc u reports s)
    (r : StatusReport)
    (hquiet : ∀ id, (s.batcher.db.task? id).isSome → NotReopened svc (reports ++ [r]) id) :
    Settled svc (u.report svc r) (reports ++ [r]) (s.report svc r) := by
  intro id row hrow
  rw [report_task?] at hrow
  obtain ⟨row₀, hrow₀, hrowEq⟩ := Option.map_eq_some_iff.mp hrow
  by_cases hfinish : r.Finishes svc id
  · -- the report's own update is held now
    refine Or.inl ⟨r.update, ?_, hfinish.2⟩
    rw [held_report, if_pos hfinish.1]
    exact List.mem_append_right _ List.mem_cons_self
  · rcases hs id row₀ hrow₀ with ⟨op, hop, hid⟩ | ⟨hreported, hstate⟩ | ⟨hnone, hstate⟩
    · refine Or.inl ⟨op, ?_, hid⟩
      rw [held_report]
      exact List.mem_append_left _ hop
    · -- the task is finished, so the report is no failure of it
      obtain ⟨r₀, hr₀, hfin⟩ := hreported
      have hnot : ¬ r.FailsTask svc id := by
        intro hfails
        have hpair := hquiet id (by rw [hrow₀]; rfl)
        exact (List.pairwise_append.mp hpair).2.2 r₀ hr₀ r List.mem_cons_self ⟨hfin, hfails⟩
      rw [if_neg hnot] at hrowEq
      refine Or.inr (Or.inl ⟨⟨r₀, List.mem_append_left _ hr₀, hfin⟩, ?_⟩)
      rw [← hrowEq]
      exact hstate
    · refine Or.inr (Or.inr ⟨fun r' hr' => ?_, fun row' hrow' => ?_⟩)
      · rcases List.mem_append.mp hr' with hold | hnew
        · exact hnone r' hold
        · rw [List.mem_singleton.mp hnew]
          exact hfinish
      · rw [report_task?] at hrow'
        obtain ⟨row₀', hrow₀', hrowEq'⟩ := Option.map_eq_some_iff.mp hrow'
        rcases h.similar.db.cases id with ⟨hcontra, -⟩ | ⟨x, x', hx, hx', heq, hretry⟩
        · exact nomatch hcontra.symm.trans hrow₀
        · obtain rfl := Option.some.inj (hx.symm.trans hrow₀)
          obtain rfl := Option.some.inj (hx'.symm.trans hrow₀')
          rw [← hrowEq, ← hrowEq']
          by_cases hfails : r.FailsTask svc id
          · rw [if_pos hfails, if_pos hfails]
            exact (afterFailure_core heq hretry r.now r.request.errorMsg).2.symm
          · rw [if_neg hfails, if_neg hfails]
            exact hstate x' hx'

/-- An update to success writes the state success. -/
theorem cast_success {op : TaskUpdateOp} {state : SmallInt} (hop : op.state = .success)
    (hcast : castSmallInt op.state.toInt = .ok state) : state = stateSuccess := by
  rw [hop] at hcast
  exact (Except.ok.inj hcast).symm

theorem Settled.flush (h : Tracks svc jsonbIn u reports s) (hs : Settled svc u reports s)
    (hheld : t.held = s.batcher.queue) {env : FlushEnv}
    (hcommit : env.Commits jsonbIn s.batcher.batch)
    (hdb : t.batcher.db = flushBatch jsonbIn env s.batcher.batch s.batcher.db) :
    Settled svc u reports t := by
  intro id row hrow
  rw [hdb] at hrow
  rcases flushBatch_row_cases hcommit hrow with ⟨op, hop, hid, hcast⟩ | ⟨hother, hrow₀⟩
  · -- the batch writes the row
    obtain ⟨r, hr, hq, rfl⟩ := h.queued op (List.mem_append_left _ hop)
    exact Or.inr (Or.inl ⟨⟨r, hr, hq, hid⟩, cast_success hq.2.1 hcast⟩)
  · rcases hs id row hrow₀ with ⟨op, hop, hid⟩ | hrest
    · refine Or.inl ⟨op, ?_, hid⟩
      rw [hheld]
      exact (List.mem_append.mp hop).resolve_left fun hbatch => hother op hbatch hid
    · exact Or.inr hrest

theorem Settled.idle (hs : Settled svc u reports s) (hdb : t.batcher.db = s.batcher.db)
    (hheld : t.held = s.held) : Settled svc u reports t := by
  intro id row hrow
  rw [hdb] at hrow
  rcases hs id row hrow with hpending | hrest
  · refine Or.inl ?_
    rw [Pending, hheld]
    exact hpending
  · exact Or.inr hrest

/-- No step adds or removes a row. -/
theorem step_isSome {a : Action} (hstep : s.step svc jsonbIn a = some t)
    (hflush : FlushCommits jsonbIn s a) (id : Uuid) :
    (t.batcher.db.task? id).isSome = (s.batcher.db.task? id).isSome := by
  rcases step_cases hstep hflush with ⟨r, -, rfl⟩ | ⟨-, -, hdb, -⟩ | ⟨-, hsimilar, -⟩
  · rw [report_task?, Option.isSome_map]
  · rw [hdb]
  · rcases hsimilar.db.cases id with ⟨ht, hs⟩ | ⟨_, _, ht, hs, -⟩
    · rw [ht, hs]
    · rw [ht, hs]
      rfl

/-- **Run lemma.** A schedule tracks the run of its reports without flushes; if
no finished task is reopened, the rows settle as well. -/
theorem tracks_schedule {ref : Reporting} {actions : List Action}
    (hrun : run (step svc jsonbIn) s actions = some t)
    (hflush : Along (step svc jsonbIn) (FlushCommits jsonbIn) s actions)
    (h : Tracks svc jsonbIn ref reports s) :
    Tracks svc jsonbIn (ref.reportAll svc (reportsOf actions)) (reports ++ reportsOf actions) t ∧
      (Settled svc ref reports s →
        (∀ id, (s.batcher.db.task? id).isSome → NotReopened svc (reports ++ reportsOf actions) id) →
        Settled svc (ref.reportAll svc (reportsOf actions)) (reports ++ reportsOf actions) t) := by
  induction actions generalizing s ref reports with
  | nil =>
    obtain rfl := Option.some.inj hrun
    rw [show reportsOf [] = [] from rfl, List.append_nil]
    exact ⟨h, fun hs _ => hs⟩
  | cons a actions ih =>
    obtain ⟨m, hm, hrest⟩ := run_cons.mp hrun
    obtain ⟨hok, hflush⟩ := (along_cons hm).mp hflush
    have hsplit : reportsOf (a :: actions) = reportsOf [a] ++ reportsOf actions :=
      List.filterMap_append (l := [a])
    rw [hsplit]
    have hsome := step_isSome hm hok
    rcases step_cases hm hok with ⟨r, rfl, rfl⟩ | ⟨hnone, hsimilar, hdb, hheld⟩ |
      ⟨hnone, hsimilar, hheld, env, hcommit, hdb⟩
    · obtain ⟨htracks, hsettled⟩ := ih hrest hflush (h.report r)
      rw [show reportsOf [.report r] = [r] from rfl, ← List.append_assoc]
      refine ⟨htracks, fun hs hquiet => ?_⟩
      refine hsettled (Settled.report h hs r fun id hid => ?_) fun id hid => ?_
      · exact (List.pairwise_append.mp (hquiet id hid)).1
      · exact hquiet id (by rw [← hsome]; exact hid)
    · rw [hnone, List.nil_append]
      obtain ⟨htracks, hsettled⟩ := ih hrest hflush (h.idle hsimilar hheld)
      refine ⟨htracks, fun hs hquiet => hsettled (hs.idle hdb hheld) fun id hid => ?_⟩
      exact hquiet id (by rw [← hsome]; exact hid)
    · rw [hnone, List.nil_append]
      obtain ⟨htracks, hsettled⟩ := ih hrest hflush (h.flush hsimilar hheld hcommit)
      refine ⟨htracks, fun hs hquiet => hsettled (hs.flush h hheld hcommit hdb) fun id hid => ?_⟩
      exact hquiet id (by rw [← hsome]; exact hid)

theorem tracks_started (svc : SchedulerService) (jsonbIn : String → Option String)
    (redis : Redis) (db : Db) :
    Tracks svc jsonbIn (started redis db) [] (started redis db) ∧
      Settled svc (started redis db) [] (started redis db) := by
  refine ⟨⟨⟨rfl, rfl, rfl, Alike.refl _⟩, ?_, ?_⟩, fun id row hrow => ?_⟩
  · exact fun op hop => absurd hop List.not_mem_nil
  · exact fun r hr => absurd hr List.not_mem_nil
  · refine Or.inr (Or.inr ⟨fun r hr => absurd hr List.not_mem_nil, fun row' hrow' => ?_⟩)
    rw [Option.some.inj (hrow.symm.trans hrow')]

/-- If no finished task is reopened, every drained schedule of the reports has
the same outcome. -/
theorem sameOutcome_of_notReopened
    (hquiet : ∀ id, (db.task? id).isSome → NotReopened svc reports id)
    (h : Schedule svc jsonbIn (started redis db) reports s) (hdrained : s.Drained)
    (h' : Schedule svc jsonbIn (started redis db) reports t) (hdrained' : t.Drained) :
    SameOutcome s t := by
  obtain ⟨actions, hrun, rfl, hflush⟩ := h
  obtain ⟨actions', hrun', hreports, hflush'⟩ := h'
  obtain ⟨hstart, hsettled⟩ := tracks_started svc jsonbIn redis db
  obtain ⟨htracks, hs⟩ := tracks_schedule hrun hflush hstart
  obtain ⟨htracks', hs'⟩ := tracks_schedule hrun' hflush' hstart
  rw [hreports] at htracks' hs'
  have hs := hs hsettled hquiet
  have hs' := hs' hsettled hquiet
  have halike : Alike s.batcher.db t.batcher.db :=
    htracks.similar.db.trans htracks'.similar.db.symm
  refine ⟨fun id => ?_, ?_⟩
  · rcases halike.cases id with ⟨hrow, hrow'⟩ | ⟨row, row', hrow, hrow', -, hretry⟩
    · rw [hrow, hrow']
    · have hstate : row.run.state = row'.run.state := by
        rcases (hs id row hrow).resolve_left hdrained.not_pending with
          ⟨⟨r, hr, hfin⟩, hstate⟩ | ⟨hno, hstate⟩
        · rcases (hs' id row' hrow').resolve_left hdrained'.not_pending with
            ⟨-, hstate'⟩ | ⟨hno', -⟩
          · rw [hstate, hstate']
          · exact absurd hfin (hno' r hr)
        · rcases (hs' id row' hrow').resolve_left hdrained'.not_pending with
            ⟨⟨r, hr, hfin⟩, -⟩ | ⟨-, hstate'⟩
          · exact absurd hfin (hno r hr)
          · -- both rows are the one of the run without flushes
            rcases htracks.similar.db.cases id with ⟨hcontra, -⟩ | ⟨x, x', hx, hx', -⟩
            · exact nomatch hcontra.symm.trans hrow
            · rw [hstate x' hx', hstate' x' hx']
      rw [hrow, hrow', Option.map_some, Option.map_some, hstate, hretry]
  · rw [htracks.similar.readded, htracks'.similar.readded]

-- ---------------------------------------------------------------------------
-- Two schedules of a late failure
-- ---------------------------------------------------------------------------

/-- The thread is about to test the loop condition with nothing in its hands. -/
structure Parked (s : Reporting) : Prop where
  point : s.batcher.point = .testStop
  stopFlag : s.batcher.stopFlag = false
  batch : s.batcher.batch = []

theorem Parked.reportAll (h : Parked s) (svc : SchedulerService) (reports : List StatusReport) :
    Parked (s.reportAll svc reports) := by
  induction reports generalizing s with
  | nil => exact h
  | cons r reports ih => exact ih (s := s.report svc r) ⟨h.point, h.stopFlag, h.batch⟩

/-- One round of the thread: it wakes by its timeout and flushes. -/
theorem Parked.round (svc : SchedulerService) (h : Parked s) (hqueue : s.batcher.queue ≠ [])
    (hvalid : ∀ op ∈ s.batcher.queue, op.Valid jsonbIn) :
    ∃ m, Schedule svc jsonbIn s [] m ∧ Parked m ∧
      m.batcher.queue = s.batcher.queue.drop kBatchSize := by
  let waiting : Reporting := { s with batcher := { s.batcher with point := .waiting } }
  let batch := s.batcher.batch ++ s.batcher.queue.take (kBatchSize - s.batcher.batch.length)
  let filled : Reporting := { s with batcher := { s.batcher with
    batch := batch
    queue := s.batcher.queue.drop (kBatchSize - s.batcher.batch.length)
    point := .flushing } }
  have htest : s.step svc jsonbIn (.batcher .test) = some waiting := by
    simp [step, DbBatcher.step, h.point, h.stopFlag, waiting]
  have hwake : waiting.step svc jsonbIn (.batcher (.wake true)) = some filled := by
    simp [step, DbBatcher.step, DbBatcher.collect, waiting, filled, hqueue, fillBatch_eq, batch]
  have hbatch : batch ≠ [] := by
    have hpos := List.length_pos_iff.mpr hqueue
    rw [← List.length_pos_iff, List.length_append, List.length_take, h.batch, kBatchSize,
      List.length_nil]
    omega
  have hcommit : FlushEnv.Commits jsonbIn {} batch := by
    refine ⟨rfl, fun op hop => hvalid op ?_⟩
    rw [show batch = s.batcher.batch ++ _ from rfl, h.batch, List.nil_append] at hop
    exact List.mem_of_mem_take hop
  obtain ⟨m, hflush⟩ : ∃ m, filled.step svc jsonbIn (.batcher (.flush {})) = some m := ⟨_, rfl⟩
  refine ⟨m, ⟨[.batcher .test, .batcher (.wake true), .batcher (.flush {})], ?_, rfl, ?_⟩, ?_, ?_⟩
  · exact run_cons.mpr ⟨_, htest, run_cons.mpr ⟨_, hwake, run_cons.mpr ⟨_, hflush, rfl⟩⟩⟩
  · exact (along_cons htest).mpr ⟨trivial, (along_cons hwake).mpr ⟨trivial,
      (along_cons hflush).mpr ⟨hcommit, trivial⟩⟩⟩
  · rw [← Option.some.inj hflush]
    simp only [DbBatcher.flushOnce, filled, if_neg hbatch]
    exact ⟨rfl, h.stopFlag, rfl⟩
  · rw [← Option.some.inj hflush]
    simp only [DbBatcher.flushOnce, filled, if_neg hbatch]
    rw [h.batch]
    rfl

/-- The thread can flush everything before the next report. -/
theorem Parked.drain (h : Parked s) (hvalid : ∀ op ∈ s.batcher.queue, op.Valid jsonbIn) :
    ∃ m, Schedule svc jsonbIn s [] m ∧ Parked m ∧ m.Drained := by
  generalize hn : s.batcher.queue.length = n
  induction n using Nat.strong_induction_on generalizing s with
  | _ n ih =>
    by_cases hqueue : s.batcher.queue = []
    · exact ⟨s, Schedule.refl s, h, hqueue, h.batch⟩
    · obtain ⟨m, hm, hparked, hrest⟩ := h.round svc hqueue hvalid
      have hpos := List.length_pos_iff.mpr hqueue
      have hlt : m.batcher.queue.length < n := by
        rw [hrest, List.length_drop, kBatchSize]
        omega
      have hvalid' : ∀ op ∈ m.batcher.queue, op.Valid jsonbIn := by
        rw [hrest]
        exact fun op hop => hvalid op (List.mem_of_mem_drop hop)
      obtain ⟨m', hm', hparked', hdrained⟩ := ih _ hlt hparked hvalid' rfl
      exact ⟨m', hm.trans hm', hparked', hdrained⟩

/-- A row of the task has the state success or its update is still held; the
thread keeps this. -/
def Finishing (id : Uuid) (s : Reporting) : Prop :=
  (∀ op ∈ s.held, op.state = .success) ∧
    (s.Pending id ∨ ∀ row, s.batcher.db.task? id = some row → row.run.state = stateSuccess)

/-- The task is not held and its row is not a success. -/
def Open (id : Uuid) (s : Reporting) : Prop :=
  ¬ s.Pending id ∧ ∀ row, s.batcher.db.task? id = some row → row.run.state ≠ stateSuccess

/-- **Invariant rule for schedules**: one case for each thing a step can do. -/
theorem Schedule.invariant {P : Reporting → Prop} (h : Schedule svc jsonbIn s reports t)
    (hreport : ∀ s, ∀ r ∈ reports, P s → P (s.report svc r))
    (hidle : ∀ s t : Reporting, t.batcher.db = s.batcher.db → t.held = s.held → P s → P t)
    (hflush : ∀ (s t : Reporting) (env : FlushEnv), t.held = s.batcher.queue →
      env.Commits jsonbIn s.batcher.batch →
      t.batcher.db = flushBatch jsonbIn env s.batcher.batch s.batcher.db → P s → P t)
    (hs : P s) : P t := by
  obtain ⟨actions, hrun, rfl, halong⟩ := h
  induction actions generalizing s with
  | nil =>
    obtain rfl := Option.some.inj hrun
    exact hs
  | cons a actions ih =>
    obtain ⟨m, hm, hrest⟩ := run_cons.mp hrun
    obtain ⟨hok, halong⟩ := (along_cons hm).mp halong
    have hsplit : reportsOf (a :: actions) = reportsOf [a] ++ reportsOf actions :=
      List.filterMap_append (l := [a])
    rw [hsplit] at hreport
    refine ih ?_ hrest halong fun s r hr => hreport s r (List.mem_append_right _ hr)
    rcases step_cases hm hok with
      ⟨r, rfl, rfl⟩ | ⟨-, -, hdb, hheld⟩ | ⟨-, -, hheld, env, hcommit, hdb⟩
    · exact hreport s r (List.mem_append_left _ List.mem_cons_self) hs
    · exact hidle s m hdb hheld hs
    · exact hflush s m env hheld hcommit hdb hs

/-- A drained run without further reports leaves a held update's row at success. -/
theorem Finishing.schedule (h : Finishing id s) (hrun : Schedule svc jsonbIn s [] t) :
    Finishing id t := by
  refine hrun.invariant (fun s r hr => absurd hr List.not_mem_nil) ?_ ?_ h
  · rintro s t hdb hheld ⟨hstate, hrow⟩
    refine ⟨by rw [hheld]; exact hstate, ?_⟩
    rw [hdb, Pending, hheld]
    exact hrow
  · rintro s t env hheld hcommit hdb ⟨hstate, hrow⟩
    have hqueue : ∀ op ∈ s.batcher.queue, op ∈ s.held := fun op hop =>
      List.mem_append_right _ hop
    refine ⟨fun op hop => hstate op (hqueue op (hheld ▸ hop)), ?_⟩
    by_cases hbatch : ∃ op ∈ s.batcher.batch, uuidIn (paramText op.taskId) = some id
    · -- the batch writes the row, with the state of one of its updates
      refine Or.inr fun row hafter => ?_
      rw [hdb] at hafter
      rcases flushBatch_row_cases hcommit hafter with ⟨op, hop, -, hcast⟩ | ⟨hother, -⟩
      · exact cast_success (hstate op (List.mem_append_left _ hop)) hcast
      · obtain ⟨op, hop, hid⟩ := hbatch
        exact absurd hid (hother op hop)
    · rcases hrow with ⟨op, hop, hid⟩ | hrow
      · refine Or.inl ⟨op, ?_, hid⟩
        rw [hheld]
        exact (List.mem_append.mp hop).resolve_left fun hop => hbatch ⟨op, hop, hid⟩
      · refine Or.inr fun row hafter => ?_
        rw [hdb] at hafter
        rcases flushBatch_row_cases hcommit hafter with ⟨op, hop, hid, -⟩ | ⟨-, hrow₀⟩
        · exact absurd ⟨op, hop, hid⟩ hbatch
        · exact hrow row hrow₀

theorem afterFailure_ne_success (row : TaskRow) (now : Int) (errorMsg : String) :
    (row.afterFailure now errorMsg).state ≠ stateSuccess := by
  by_cases hleft : row.run.retryCount.val < row.maxRetry.val
  · rw [(TaskRow.afterFailure_retried hleft now errorMsg).1]
    decide
  · rw [TaskRow.afterFailure_failed hleft now errorMsg]
    decide

/-- A report that does not finish the task adds no update of it. -/
theorem not_pending_report {r : StatusReport} (hr : ¬ r.Finishes svc id) (h : ¬ s.Pending id) :
    ¬ (s.report svc r).Pending id := by
  rintro ⟨op, hop, hid⟩
  rw [held_report] at hop
  rcases List.mem_append.mp hop with hold | hnew
  · exact h ⟨op, hold, hid⟩
  · split at hnew
    · next hq =>
      rw [List.mem_singleton.mp hnew] at hid
      exact hr ⟨hq, hid⟩
    · exact absurd hnew List.not_mem_nil

/-- Flushes of other tasks and further failures keep a row open. -/
theorem Open.schedule (h : Open id s) (hrun : Schedule svc jsonbIn s reports t)
    (hother : ∀ r ∈ reports, ¬ r.Finishes svc id) : Open id t := by
  refine hrun.invariant ?_ ?_ ?_ h
  · rintro s r hr ⟨hpending, hrow⟩
    refine ⟨not_pending_report (hother r hr) hpending, fun row hafter => ?_⟩
    rw [report_task?] at hafter
    obtain ⟨row₀, hrow₀, rfl⟩ := Option.map_eq_some_iff.mp hafter
    split
    · exact afterFailure_ne_success row₀ r.now r.request.errorMsg
    · exact hrow row₀ hrow₀
  · rintro s t hdb hheld ⟨hpending, hrow⟩
    refine ⟨?_, by rw [hdb]; exact hrow⟩
    rw [Pending, hheld]
    exact hpending
  · rintro s t env hheld hcommit hdb ⟨hpending, hrow⟩
    refine ⟨?_, fun row hafter => ?_⟩
    · rintro ⟨op, hop, hid⟩
      rw [hheld] at hop
      exact hpending ⟨op, List.mem_append_right _ hop, hid⟩
    · rw [hdb] at hafter
      rcases flushBatch_row_cases hcommit hafter with ⟨op, hop, hid, -⟩ | ⟨-, hrow₀⟩
      · exact absurd ⟨op, List.mem_append_left _ hop, hid⟩ hpending
      · exact hrow row hrow₀

-- ---------------------------------------------------------------------------
-- The condition is exact
-- ---------------------------------------------------------------------------

/-- The report is a SUCCESS report of the task. -/
def Succeeds (r : StatusReport) (id : Uuid) : Prop :=
  r.request.finalState = .success ∧ addresses r.request.taskId id

theorem queue_valid (hvalid : ∀ r ∈ reports, r.Queues svc → r.update.Valid jsonbIn)
    (h : Schedule svc jsonbIn (started redis db) reports s) :
    ∀ op ∈ s.batcher.queue, op.Valid jsonbIn := by
  obtain ⟨actions, hrun, rfl, hflush⟩ := h
  obtain ⟨htracks, -⟩ := tracks_schedule hrun hflush (tracks_started svc jsonbIn redis db).1
  intro op hop
  obtain ⟨r, hr, hq, rfl⟩ := htracks.queued op (List.mem_append_right _ hop)
  exact hvalid r hr hq

theorem schedule_isSome (h : Schedule svc jsonbIn s reports t) (id : Uuid) :
    (t.batcher.db.task? id).isSome = (s.batcher.db.task? id).isSome := by
  obtain ⟨actions, hrun, -, hflush⟩ := h
  refine along_invariant
    (P := fun u => (u.batcher.db.task? id).isSome = (s.batcher.db.task? id).isSome)
    (fun u a v hu hok hstep => ?_) hrun hflush rfl
  rw [step_isSome hstep hok, hu]

theorem queue_reportAll (svc : SchedulerService) (s : Reporting) (reports : List StatusReport) :
    (s.reportAll svc reports).batcher.queue =
      s.batcher.queue ++ (reports.filter fun r => r.Queues svc).map StatusReport.update := by
  induction reports generalizing s with
  | nil => exact (List.append_nil _).symm
  | cons r reports ih =>
    show ((s.report svc r).reportAll svc reports).batcher.queue = _
    rw [ih, report_queue, List.append_assoc, List.filter_cons]
    by_cases hq : r.Queues svc
    · simp [hq]
    · simp [hq]

theorem not_pending_reportAll (h : ¬ s.Pending id) (hother : ∀ r ∈ reports, ¬ r.Finishes svc id) :
    ¬ (s.reportAll svc reports).Pending id := by
  induction reports generalizing s with
  | nil => exact h
  | cons r reports ih =>
    obtain ⟨hr, hrest⟩ := List.forall_mem_cons.mp hother
    exact ih (not_pending_report hr h) hrest

/-- The thread comes only after the last report: the row of a finished task ends
as a success. -/
theorem late_flush (redis : Redis) (db : Db)
    (hvalid : ∀ r ∈ reports, r.Queues svc → r.update.Valid jsonbIn)
    {r : StatusReport} (hr : r ∈ reports) (hfin : r.Finishes svc id) :
    ∃ s, Schedule svc jsonbIn (started redis db) reports s ∧ s.Drained ∧
      ∀ row, s.batcher.db.task? id = some row → row.run.state = stateSuccess := by
  have hstart : Parked (started redis db) := ⟨rfl, rfl, rfl⟩
  have hreports := schedule_reportAll svc jsonbIn (started redis db) reports
  have hqueued := queue_valid hvalid hreports
  obtain ⟨s, hdrain, -, hdrained⟩ := (hstart.reportAll svc reports).drain hqueued
  have hqueue := queue_reportAll svc (started redis db) reports
  have hbatch := (hstart.reportAll svc reports).batch
  have hfinishing : Finishing id ((started redis db).reportAll svc reports) := by
    refine ⟨fun op hop => ?_, Or.inl ⟨r.update, ?_, hfin.2⟩⟩
    · rw [held, hbatch, hqueue] at hop
      obtain ⟨r', hr', rfl⟩ := List.mem_map.mp (show op ∈ List.map _ _ from hop)
      exact (of_decide_eq_true (List.mem_filter.mp hr').2).2.1
    · rw [held, hbatch, hqueue]
      exact List.mem_map.mpr ⟨r, List.mem_filter.mpr ⟨hr, decide_eq_true hfin.1⟩, rfl⟩
  refine ⟨s, ?_, hdrained, ?_⟩
  · have hall := hreports.trans hdrain
    rwa [List.append_nil] at hall
  · exact (hfinishing.schedule hdrain).2.resolve_left hdrained.not_pending

/-- The thread flushes between the two reports: the failure comes last. -/
theorem early_flush (redis : Redis) (db : Db) {before after : List StatusReport}
    (hvalid : ∀ r ∈ before ++ after, r.Queues svc → r.update.Valid jsonbIn)
    (hother : ∀ r ∈ after, ¬ r.Finishes svc id) {r : StatusReport} (hr : r ∈ after)
    (hfails : r.FailsTask svc id) :
    ∃ s, Schedule svc jsonbIn (started redis db) (before ++ after) s ∧ s.Drained ∧
      ∀ row, s.batcher.db.task? id = some row → row.run.state ≠ stateSuccess := by
  obtain ⟨mid, rest, rfl⟩ := List.append_of_mem hr
  have hstart : Parked (started redis db) := ⟨rfl, rfl, rfl⟩
  have hbefore := schedule_reportAll svc jsonbIn (started redis db) before
  obtain ⟨s₁, hdrain₁, hparked₁, hdrained₁⟩ := (hstart.reportAll svc before).drain
    (queue_valid (fun r hr => hvalid r (List.mem_append_left _ hr)) hbefore)
  have hmid := schedule_reportAll svc jsonbIn s₁ (mid ++ [r])
  have hrest := schedule_reportAll svc jsonbIn
    (s₁.reportAll svc (mid ++ [r])) rest
  have hall : Schedule svc jsonbIn (started redis db) (before ++ (mid ++ r :: rest))
      ((s₁.reportAll svc (mid ++ [r])).reportAll svc rest) := by
    have htrans := ((hbefore.trans hdrain₁).trans hmid).trans hrest
    simpa using htrans
  obtain ⟨s₂, hdrain₂, -, hdrained₂⟩ :=
    ((hparked₁.reportAll svc (mid ++ [r])).reportAll svc rest).drain (queue_valid hvalid hall)
  -- the failure report leaves the row open
  have hopen : Open id (s₁.reportAll svc (mid ++ [r])) := by
    have hmidOther : ∀ r' ∈ mid, ¬ r'.Finishes svc id := fun r' hr' =>
      hother r' (List.mem_append_left _ hr')
    have hlast : s₁.reportAll svc (mid ++ [r]) = (s₁.reportAll svc mid).report svc r :=
      List.foldl_concat ..
    rw [hlast]
    refine ⟨not_pending_report (hother r hr)
      (not_pending_reportAll hdrained₁.not_pending hmidOther), fun row hrow => ?_⟩
    rw [report_task?] at hrow
    obtain ⟨row₀, -, rfl⟩ := Option.map_eq_some_iff.mp hrow
    rw [if_pos hfails]
    exact afterFailure_ne_success row₀ r.now r.request.errorMsg
  refine ⟨s₂, ?_, hdrained₂, ?_⟩
  · have htrans := hall.trans hdrain₂
    rwa [List.append_nil] at htrans
  · refine (hopen.schedule (hrest.trans hdrain₂) fun r' hr' => ?_).2
    rw [List.append_nil] at hr'
    exact hother r' (List.mem_append_right _ (List.mem_cons_of_mem _ hr'))

/-- **Flush timing.** With at most one SUCCESS report for each task, the outcome
of every drained schedule with successful flushes is the same exactly if there
is no such schedule, because an update is invalid, or no failure report of a
stored task is kept after its SUCCESS report. -/
theorem flush_timing_iff (svc : SchedulerService) (jsonbIn : String → Option String)
    (redis : Redis) (db : Db) (reports : List StatusReport)
    (hone : reports.Pairwise fun r r' => ∀ id, ¬ (Succeeds r id ∧ Succeeds r' id)) :
    (∀ s t, Schedule svc jsonbIn (started redis db) reports s → s.Drained →
      Schedule svc jsonbIn (started redis db) reports t → t.Drained → SameOutcome s t) ↔
    (∃ r ∈ reports, r.Queues svc ∧ ¬ r.update.Valid jsonbIn) ∨
      ∀ id, (db.task? id).isSome → NotReopened svc reports id := by
  constructor
  · intro hsame
    by_contra hnot
    rw [not_or] at hnot
    obtain ⟨hinvalid, hreopened⟩ := hnot
    have hvalid : ∀ r ∈ reports, r.Queues svc → r.update.Valid jsonbIn := fun r hr hq =>
      by_contra fun hbad => hinvalid ⟨r, hr, hq, hbad⟩
    obtain ⟨id, hid⟩ := not_forall.mp hreopened
    obtain ⟨hsome, hpair⟩ := Classical.not_imp.mp hid
    rw [NotReopened, List.pairwise_iff_forall_sublist] at hpair
    -- the two reports, and where the list is cut between them
    obtain ⟨r, r', hsub, hfin, hfails⟩ : ∃ r r', [r, r'].Sublist reports ∧
        r.Finishes svc id ∧ r'.FailsTask svc id := by
      by_contra hno
      exact hpair fun {r r'} hsub hboth => hno ⟨r, r', hsub, hboth.1, hboth.2⟩
    obtain ⟨before, after, rfl, hr, hafter⟩ := List.cons_sublist_iff.mp hsub
    have hr' : r' ∈ after := List.singleton_sublist.mp hafter
    have hother : ∀ r'' ∈ after, ¬ r''.Finishes svc id := by
      intro r'' hr'' hfin'
      exact (List.pairwise_append.mp hone).2.2 r hr r'' hr'' id
        ⟨⟨hfin.1.2.1, hfin.2⟩, ⟨hfin'.1.2.1, hfin'.2⟩⟩
    obtain ⟨s, hs, hdrained, hsuccess⟩ := late_flush redis db hvalid
      (List.mem_append_left _ hr) hfin
    obtain ⟨t, ht, hdrained', hopen⟩ := early_flush redis db hvalid hother hr'
      hfails
    have hstate := (hsame s t hs hdrained ht hdrained').1 id
    obtain ⟨row, hrow⟩ := Option.isSome_iff_exists.mp ((schedule_isSome hs id).trans hsome)
    obtain ⟨row', hrow'⟩ := Option.isSome_iff_exists.mp ((schedule_isSome ht id).trans hsome)
    rw [hrow, hrow', Option.map_some, Option.map_some] at hstate
    have heq : row.run.state = row'.run.state := (Prod.mk.inj (Option.some.inj hstate)).1
    exact hopen row' hrow' (heq ▸ hsuccess row hrow)
  · rintro (⟨r, hr, hq, hbad⟩ | hquiet) s t hs hdrained ht hdrained'
    · -- the invalid update would have been flushed
      obtain ⟨actions, hrun, rfl, hflush⟩ := hs
      obtain ⟨htracks, -⟩ := tracks_schedule hrun hflush (tracks_started svc jsonbIn redis db).1
      rcases htracks.passed r hr hq with hmem | hvalid
      · rw [held, hdrained.1, hdrained.2] at hmem
        exact absurd hmem List.not_mem_nil
      · exact absurd hvalid hbad
    · exact sameOutcome_of_notReopened hquiet hs hdrained ht hdrained'

/-- The two reports of a task that was executed twice. -/
def successReport : StatusReport where
  request := { taskId := taskA.text, finalState := .success, workerId := "worker" }

def failureReport : StatusReport where
  request := failureA

theorem successReport_finishes : successReport.Finishes fullService taskA := by
  refine ⟨⟨rfl, rfl, ?_⟩, addresses_text taskA⟩
  exact addresses_ne_empty (addresses_text taskA)

theorem failureReport_fails : failureReport.FailsTask fullService taskA :=
  ⟨by decide, rfl, addresses_text taskA, rfl⟩

theorem success_valid (reports : List StatusReport)
    (h : ∀ r ∈ reports, r = successReport ∨ r = failureReport) :
    ∀ r ∈ reports, r.Queues fullService → r.update.Valid DbBatcher.jsonbEmpty := by
  intro r hr hq
  rcases h r hr with rfl | rfl
  · exact DbBatcher.doneUpdate_valid taskA
  · exact absurd hq.2.1 (by decide)

/-- The failure first: every schedule ends alike. -/
theorem flush_timing_iff_failureFirst :
    (∃ s, Schedule fullService DbBatcher.jsonbEmpty
        (started .empty (dbA stateRunning (some "w"))) [failureReport, successReport] s ∧
      s.Drained) ∧
    ∀ s t, Schedule fullService DbBatcher.jsonbEmpty
        (started .empty (dbA stateRunning (some "w"))) [failureReport, successReport] s →
      s.Drained → Schedule fullService DbBatcher.jsonbEmpty
        (started .empty (dbA stateRunning (some "w"))) [failureReport, successReport] t →
      t.Drained → SameOutcome s t := by
  have hvalid := success_valid [failureReport, successReport] (by simp)
  constructor
  · obtain ⟨s, hs, hdrained, -⟩ := late_flush .empty (dbA stateRunning (some "w"))
      hvalid (by simp) successReport_finishes
    exact ⟨s, hs, hdrained⟩
  · refine (flush_timing_iff fullService DbBatcher.jsonbEmpty .empty
      (dbA stateRunning (some "w")) [failureReport, successReport] ?_).mpr (Or.inr fun id _ => ?_)
    · refine List.pairwise_pair.mpr fun id h => ?_
      exact absurd h.1.1 (by decide)
    · refine List.pairwise_pair.mpr fun h => ?_
      exact absurd h.1.1.2.1 (by decide)

/-- **A timer decides the outcome**: the row of a task that succeeded and then
failed once more ends as a success or as pending. -/
theorem flush_timing_changes_outcome :
    ([successReport, failureReport].Pairwise fun r r' =>
      ∀ id, ¬ (Succeeds r id ∧ Succeeds r' id)) ∧
    ∃ s t, Schedule fullService DbBatcher.jsonbEmpty
        (started .empty (dbA stateRunning (some "w"))) [successReport, failureReport] s ∧
      s.Drained ∧ Schedule fullService DbBatcher.jsonbEmpty
        (started .empty (dbA stateRunning (some "w"))) [successReport, failureReport] t ∧
      t.Drained ∧ ¬ SameOutcome s t := by
  have hvalid := success_valid [successReport, failureReport] (by simp)
  have hvalid' := success_valid ([successReport] ++ [failureReport]) (by simp)
  have hother : ∀ r ∈ [failureReport], ¬ r.Finishes fullService taskA := by
    intro r hr hfin
    obtain rfl := List.mem_singleton.mp hr
    exact absurd hfin.1.2.1 (by decide)
  constructor
  · refine List.pairwise_pair.mpr fun id h => ?_
    exact absurd h.2.1 (by decide)
  · obtain ⟨s, hs, hdrained, hsuccess⟩ := late_flush .empty (dbA stateRunning (some "w"))
      hvalid List.mem_cons_self successReport_finishes
    obtain ⟨t, ht, hdrained', hopen⟩ := early_flush .empty (dbA stateRunning (some "w"))
      hvalid' hother List.mem_cons_self failureReport_fails
    refine ⟨s, t, hs, hdrained, ht, hdrained', fun hsame => ?_⟩
    have hsome : ((started .empty (dbA stateRunning (some "w"))).batcher.db.task? taskA).isSome :=
      rfl
    obtain ⟨row, hrow⟩ := Option.isSome_iff_exists.mp ((schedule_isSome hs taskA).trans hsome)
    obtain ⟨row', hrow'⟩ := Option.isSome_iff_exists.mp ((schedule_isSome ht taskA).trans hsome)
    have hstate := hsame.1 taskA
    rw [hrow, hrow', Option.map_some, Option.map_some] at hstate
    have heq : row.run.state = row'.run.state := (Prod.mk.inj (Option.some.inj hstate)).1
    exact hopen row' hrow' (heq ▸ hsuccess row hrow)

end Reporting

end DistTaskSystem
