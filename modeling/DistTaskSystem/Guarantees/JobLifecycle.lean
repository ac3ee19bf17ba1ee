import DistTaskSystem.Guarantees.Idempotency
import DistTaskSystem.Guarantees.JobWorkflow
import DistTaskSystem.Scheduler.RowUpdates

/-!
# DTS — the life of a job

Each job runs as its `Workflow`, whatever the other jobs do: the countdown in
Redis, the rows in the table and the updates still held are the ones the
executions so far determine.

## Results

* `JobAt`            — a job is where the executions of its tasks have brought it.
* `AllAt.step`       — the step lemma, with one lemma for each kind of step.
* `Lifecycle.allAt`  — every job is where its executions have brought it, in every state.
-/

namespace DistTaskSystem

open Runs

-- ---------------------------------------------------------------------------
-- A job in the table
-- ---------------------------------------------------------------------------

/-- The row of a task is the one its executions so far have made, except that the update
of its success may still be held. -/
structure RowAt (env : JobService) (sub : Submission) (p : Workflow.Progress String)
    (s : Reporting) (task : PbTask) (u : Uuid) (row : TaskRow) : Prop where
  stored : ∃ row₀, TaskStored env.jsonbIn sub.item task row₀ ∧ row = { row₀ with run := row.run }
  retries : row.run.retryCount.val = (min (p.failures u.text) task.maxRetry.toNat : ℕ)
  success : u.text ∈ p.done → s.Pending u ∨ row.run.state = stateSuccess
  failed : task.maxRetry.toNat < p.failures u.text → row.run.state = stateFailed
  waiting : ¬ sub.workflow.parents u.text ⊆ p.done → row.run.state = stateWaitingDeps

/-- A job is where the executions of its tasks have brought it. -/
structure JobAt (env : JobService) (fate : String → ℕ) (sub : Submission)
    (reports : List StatusReport) (s : Reporting) (p : Workflow.Progress String) : Prop where
  run : run (sub.workflow.step fate) .start (sub.answers reports) = some p
  redis : CountsDown sub p s.redis
  held : ∀ op ∈ s.held, ∀ u ∈ sub.uuids, addresses op.taskId u →
    op.state = .success ∧ u.text ∈ p.done
  rows : ∀ task ∈ sub.req.tasks, ∃ u ∈ sub.uuids, ∃ row,
    sub.item.ctx.uuidOf task.naturalId = u.text ∧ s.batcher.db.task? u = some row ∧
      RowAt env sub p s task u row

/-- The system is where the executions have brought its jobs. -/
structure AllAt (env : JobService) (fate : String → ℕ) (subs : List Submission)
    (reports : List StatusReport) (s : Reporting) : Prop where
  ids : FreshIds subs .empty
  storable : ∀ sub ∈ subs, sub.req.Storable env.jsonbIn
  readable : ∀ sub ∈ subs, sub.Readable env
  jobs : ∀ sub ∈ subs, ∃ p, JobAt env fate sub reports s p
  reported : ∀ r ∈ reports, Owned subs r.request.taskId
  held : ∀ op ∈ s.held, Owned subs op.taskId
  tasks : s.redis.IsStream kTasks
  errors : s.redis.IsStream kErrors

section InTable

variable {env : JobService} {fate : String → ℕ} {subs new : List Submission} {sub : Submission}
  {reports more : List StatusReport} {s s' : Reporting} {p : Workflow.Progress String}
  {task : PbTask} {u : Uuid} {row : TaskRow} {t : String}

theorem RowAt.keep (h : RowAt env sub p s task u row) (hpending : s.Pending u → s'.Pending u) :
    RowAt env sub p s' task u row :=
  ⟨h.stored, h.retries, fun hdone => (h.success hdone).imp hpending id, h.failed, h.waiting⟩

theorem JobAt.consistent (h : JobAt env fate sub reports s p) : sub.workflow.Consistent fate p :=
  (Workflow.consistent_run h.run).1

theorem JobAt.executions (h : JobAt env fate sub reports s p) (ht : t ∈ sub.workflow.tasks) :
    executions reports t = p.executions t := by
  rw [(Workflow.consistent_run h.run).2 t, Submission.count_answers ht]

theorem AllAt.assigns (h : AllAt env fate subs reports s) (hsub : sub ∈ subs) :
    Assigns sub.item.ctx sub.req := h.ids.assigns hsub

theorem AllAt.nodup (h : AllAt env fate subs reports s) (hsub : sub ∈ subs) :
    (dagIds sub.item.ctx sub.req).Nodup :=
  dagIds_nodup (h.assigns hsub) (h.storable sub hsub).distinct

theorem AllAt.limit_eq (h : AllAt env fate subs reports s) (hsub : sub ∈ subs)
    (htask : task ∈ sub.req.tasks) :
    sub.limit (sub.item.ctx.uuidOf task.naturalId) = task.maxRetry.toNat :=
  Submission.limit_eq (h.assigns hsub) (h.storable sub hsub).distinct htask

/-- An entry that is not answered is an open offer. -/
theorem AllAt.open (h : AllAt env fate subs reports s) (hsub : sub ∈ subs)
    (hjob : JobAt env fate sub reports s p) (ht : t ∈ dagIds sub.item.ctx sub.req)
    (hentry : DistTaskSystem.executions reports t < streamCount s.redis t) :
    sub.workflow.Open p t := by
  have htask : t ∈ sub.workflow.tasks := mem_dagNodes.mpr ht
  rw [hjob.executions htask, hjob.redis.streamCount (h.nodup hsub) htask] at hentry
  exact ⟨htask, hentry⟩

/-- A step that does not concern the job. -/
theorem JobAt.frame (h : JobAt env fate sub reports s p) (hanswers : sub.answers more = [])
    (hredis : CountsDown sub p s'.redis)
    (hheld : ∀ u ∈ sub.uuids, ∀ op, addresses op.taskId u → (op ∈ s'.held ↔ op ∈ s.held))
    (hrows : ∀ u ∈ sub.uuids, ∀ row, s.batcher.db.task? u = some row →
      s'.batcher.db.task? u = some row) :
    JobAt env fate sub (reports ++ more) s' p where
  run := by
    rw [Submission.answers_append, hanswers, List.append_nil]
    exact h.run
  redis := hredis
  held op hop u hu hid := h.held op ((hheld u hu op hid).mp hop) u hu hid
  rows task htask := by
    obtain ⟨u, hu, row, hid, hrow, hat⟩ := h.rows task htask
    refine ⟨u, hu, row, hid, hrows u hu row hrow, hat.keep ?_⟩
    rintro ⟨op, hop, haddr⟩
    exact ⟨op, (hheld u hu op haddr).mpr hop, haddr⟩

/-- A step that only changes rows of the job, as their tasks allow. -/
theorem JobAt.rewrite (h : JobAt env fate sub reports s p) (hredis : CountsDown sub p s'.redis)
    (hheld : ∀ op ∈ s'.held, op ∈ s.held)
    (hrows : ∀ task ∈ sub.req.tasks, ∀ u ∈ sub.uuids, ∀ row,
      sub.item.ctx.uuidOf task.naturalId = u.text → s.batcher.db.task? u = some row →
      RowAt env sub p s task u row →
      ∃ row', s'.batcher.db.task? u = some row' ∧ RowAt env sub p s' task u row') :
    JobAt env fate sub reports s' p where
  run := h.run
  redis := hredis
  held op hop := h.held op (hheld op hop)
  rows task htask := by
    obtain ⟨u, hu, row, hid, hrow, hat⟩ := h.rows task htask
    obtain ⟨row', hrow', hat'⟩ := hrows task htask u hu row hid hrow hat
    exact ⟨u, hu, row', hid, hrow', hat'⟩

-- ---------------------------------------------------------------------------
-- The steps that are no reports
-- ---------------------------------------------------------------------------

/-- **The flush thread.** -/
theorem AllAt.batcher {a : BatcherAction} (h : AllAt env fate subs reports s)
    (hflush : Reporting.FlushCommits env.jsonbIn s (.batcher a))
    (hstep : s.step env.svc env.jsonbIn (.batcher a) = some s') :
    AllAt env fate subs reports s' := by
  have hidle : ∀ {t : Reporting}, t.redis = s.redis → (∀ op ∈ t.held, op ∈ s.held) →
      (∀ sub ∈ subs, ∀ p, JobAt env fate sub reports s p → JobAt env fate sub reports t p) →
      AllAt env fate subs reports t := by
    intro t hredis hheld hjobs
    refine ⟨h.ids, h.storable, h.readable, fun sub hsub => ?_, h.reported,
      fun op hop => h.held op (hheld op hop), hredis ▸ h.tasks, hredis ▸ h.errors⟩
    obtain ⟨p, hp⟩ := h.jobs sub hsub
    exact ⟨p, hjobs sub hsub p hp⟩
  rcases Reporting.step_cases hstep hflush with ⟨r, hr, -⟩ | ⟨-, hsimilar, hdb, hheld⟩ |
    ⟨-, hsimilar, hheld, fenv, hcommit, hdb⟩
  · cases hr
  · refine hidle hsimilar.redis (fun op hop => hheld ▸ hop) fun sub hsub p hp => ?_
    refine hp.rewrite (hsimilar.redis ▸ hp.redis) (fun op hop => hheld ▸ hop) ?_
    intro task _ u _ row _ hrow hat
    refine ⟨row, hdb ▸ hrow, hat.keep ?_⟩
    rw [Reporting.Pending, Reporting.Pending, hheld]
    exact id
  · have hqueue : ∀ op ∈ s'.held, op ∈ s.held := fun op hop =>
      List.mem_append_right _ (hheld ▸ hop)
    refine hidle hsimilar.redis hqueue fun sub hsub p hp => ?_
    refine hp.rewrite (hsimilar.redis ▸ hp.redis) hqueue ?_
    intro task htask u hu row hid hrow hat
    rcases flushBatch_row hcommit hrow with ⟨op, hop, w, hw, hwid, hrow'⟩ | ⟨hnone, hrow'⟩
    · -- the update of a success is written
      obtain ⟨haddr, hcast⟩ := write_eq_ok hw
      have hopid : addresses op.taskId u := hwid ▸ haddr
      obtain ⟨hsuccess, hdone⟩ := hp.held op (List.mem_append_left _ hop) u hu hopid
      obtain ⟨hsucceeds, hfailures⟩ := hp.consistent.done _ hdone
      have hstarts := (Workflow.succeeds_iff hsucceeds.task).mp hsucceeds
      obtain ⟨row₀, hstored, hrow₀⟩ := hat.stored
      refine ⟨{ row with run := w.apply fenv.now row.run }, hdb ▸ hrow',
        ⟨row₀, hstored, ?_⟩, hat.retries, fun _ => .inr ?_, fun hlimit => ?_,
        fun hparents => ?_⟩
      · rw [hrow₀]
      · exact Reporting.cast_success hsuccess hcast
      · have hbound := hstarts.2
        rw [show sub.workflow.limit u.text = sub.limit u.text from rfl, ← hid,
          h.limit_eq hsub htask, hid] at hbound
        omega
      · exact absurd (hp.consistent.started _ (by
          rw [Workflow.Progress.executions, if_pos hdone]
          omega)).2 hparents
    · refine ⟨row, hdb ▸ hrow', hat.keep ?_⟩
      rintro ⟨op, hop, haddr⟩
      refine ⟨op, ?_, haddr⟩
      rw [hheld]
      exact (List.mem_append.mp hop).resolve_left fun hbatch => hnone op hbatch haddr

/-- Time passes and no key expires. -/
theorem AllAt.pass {ms : Nat} (h : AllAt env fate subs reports s)
    (hkeys : ∀ key, (s.redis.advance ms).keys key = s.redis.keys key) :
    AllAt env fate subs reports { s with redis := s.redis.advance ms } := by
  refine ⟨h.ids, h.storable, h.readable, fun sub hsub => ?_, h.reported, h.held,
    (Redis.isStream_congr (hkeys _)).mpr h.tasks, (Redis.isStream_congr (hkeys _)).mpr h.errors⟩
  obtain ⟨p, hp⟩ := h.jobs sub hsub
  exact ⟨p, hp.rewrite (hp.redis.congr hkeys) (fun op hop => hop)
    fun task _ u _ row _ hrow hat => ⟨row, hrow, hat.keep id⟩⟩

/-- The patrol finds no row of a job running. -/
theorem AllAt.requeue (h : AllAt env fate subs reports s) (workerId : String)
    (outcome : TxOutcome) :
    AllAt env fate subs reports
      (s.setDb (requeueOrphanedTasks outcome workerId s.batcher.db).2) := by
  refine ⟨h.ids, h.storable, h.readable, fun sub hsub => ?_, h.reported, h.held, h.tasks,
    h.errors⟩
  obtain ⟨p, hp⟩ := h.jobs sub hsub
  refine ⟨p, hp.rewrite hp.redis (fun op hop => hop) fun task _ u _ row _ hrow hat => ?_⟩
  by_cases hstate : row.run.state = stateRunning
  · obtain ⟨run, hrow', hrun⟩ :=
      (requeueOrphanedTasks_updates outcome s.batcher.db workerId).row u row hrow
    have hno : ∀ {state : SmallInt}, state ≠ stateRunning → row.run.state ≠ state :=
      fun hne heq => hne (heq.symm.trans hstate)
    obtain ⟨row₀, hstored, hrow₀⟩ := hat.stored
    refine ⟨_, hrow', ⟨row₀, hstored, by rw [hrow₀]⟩, ?_, fun hdone => ?_, fun hlimit => ?_,
      fun hparents => ?_⟩
    · rcases hrun with rfl | rfl <;> exact hat.retries
    · exact .inl ((hat.success hdone).resolve_right (hno (by decide)))
    · exact absurd (hat.failed hlimit) (hno (by decide))
    · exact absurd (hat.waiting hparents) (hno (by decide))
  · exact ⟨row, requeueOrphanedTasks_row hrow hstate outcome workerId, hat.keep id⟩

/-- **A dispatch of an open task fails.** -/
theorem AllAt.revert (h : AllAt env fate subs reports s) (hopen : Unanswered subs reports s t)
    (outcome : TxOutcome) :
    AllAt env fate subs reports (s.setDb (revertTaskToPending outcome t s.batcher.db).2) := by
  refine ⟨h.ids, h.storable, h.readable, fun sub hsub => ?_, h.reported, h.held, h.tasks,
    h.errors⟩
  obtain ⟨p, hp⟩ := h.jobs sub hsub
  refine ⟨p, hp.rewrite hp.redis (fun op hop => hop) fun task htask u hu row hid hrow hat => ?_⟩
  by_cases haddr : addresses t u
  · -- the task is open, so nothing is said of the state of its row
    have hown : t = u.text := by
      obtain ⟨⟨other, -, hmem⟩, -⟩ := hopen
      obtain ⟨v, -, rfl⟩ := Submission.mem_uuids hmem
      rw [Option.some.inj ((addresses_text v).symm.trans haddr)]
    subst hown
    have hmem : u.text ∈ dagIds sub.item.ctx sub.req :=
      hid ▸ List.mem_map_of_mem htask
    obtain ⟨hparents, hnot, hlimit⟩ :=
      hp.consistent.open (h.open hsub hp hmem hopen.2)
    rw [show sub.workflow.limit u.text = sub.limit u.text from rfl, ← hid,
      h.limit_eq hsub htask, hid] at hlimit
    obtain ⟨row₀, hstored, hrow₀⟩ := hat.stored
    refine ⟨_, revertTaskToPending_row haddr hrow outcome, ⟨row₀, hstored, ?_⟩, ?_,
      fun hdone => absurd hdone hnot, fun hmore => absurd hmore (by omega),
      fun hwaiting => absurd hparents hwaiting⟩
    · split
      · rw [hrow₀]
      · exact hrow₀
    · split <;> exact hat.retries
  · exact ⟨row, revertTaskToPending_other hrow haddr outcome, hat.keep id⟩

-- ---------------------------------------------------------------------------
-- A batch of jobs
-- ---------------------------------------------------------------------------

/-- The ids of two jobs are different. -/
theorem not_owned_twice (hids : FreshIds (subs ++ new) .empty) (hsub : sub ∈ new)
    (hu : u ∈ sub.uuids) (howned : Owned subs t) : t ≠ u.text := by
  rintro rfl
  obtain ⟨other, hother, hmem⟩ := howned
  obtain ⟨v, hv, heq⟩ := Submission.mem_uuids hmem
  exact (hids.apart hother hsub).2 hu (Uuid.text_inj.mp heq ▸ hv)

/-- A job that has just been stored and published. -/
theorem JobAt.submitted {cmds : List PipeCmd} {db' : Db} (h : AllAt env fate subs reports s)
    (hids : FreshIds (subs ++ new) .empty)
    (hpart : PartOf env.serialize new s.batcher.db s.redis cmds)
    (hall : ∀ cmd ∈ batchCommands env.serialize new, cmd ∈ cmds) (hsub : sub ∈ new)
    (hstorable : sub.req.Storable env.jsonbIn)
    (hrows : ∀ task ∈ sub.req.tasks, ∃ row ∈ db'.tasks, TaskStored env.jsonbIn sub.item task row) :
    JobAt env fate sub reports { s.setDb db' with redis := execPipeline cmds s.redis } .start := by
  have hnone : sub.answers reports = [] := by
    rw [Submission.answers, List.filter_eq_nil_iff]
    intro t ht hmem
    obtain ⟨r, hr, rfl⟩ := List.mem_map.mp ht
    obtain ⟨u, hu, heq⟩ := Submission.mem_nodes (of_decide_eq_true hmem)
    exact not_owned_twice hids hsub hu (h.reported r hr) heq
  refine ⟨by rw [hnone]; rfl, ?_, fun op hop u hu haddr => ?_, fun task htask => ?_⟩
  · obtain ⟨base, errs, hbase, hexact⟩ := batch_exact hpart hall hsub
    refine ⟨base, fun t ht => ?_, engine_of_exact hexact ?_⟩
    · rw [hbase t ht]
      exact (Nat.zero_min _).symm
    · exact ((hpart.absent sub hsub).typed h.tasks h.errors).execPipeline hpart.fits
  · -- the updates held are for other jobs
    obtain ⟨other, hother, hmem⟩ := h.held op hop
    obtain ⟨v, hv, heq⟩ := Submission.mem_uuids hmem
    rw [heq] at haddr
    have huv : v = u := Option.some.inj ((addresses_text v).symm.trans haddr)
    exact absurd (heq.trans (congrArg Uuid.text huv))
      (not_owned_twice hids hsub hu ⟨other, hother, hmem⟩)
  · obtain ⟨row, hrow, hstored⟩ := hrows task htask
    refine ⟨row.taskId, hstored.mem_uuids htask, row, hstored.taskId.symm, Db.task?_of_mem hrow,
      ⟨row, hstored, rfl⟩, ?_, fun hdone => absurd hdone (Finset.notMem_empty _),
      fun hlimit => absurd hlimit (Nat.not_lt_zero _), fun hparents => ?_⟩
    · rw [hstored.run]
      exact congrArg Int.ofNat (Nat.zero_min _).symm
    · -- a task with a parent is stored as waiting
      have hdegree : inDegree sub.req.edges task.naturalId ≠ 0 := by
        rw [inDegree_eq (hpart.fresh.assigns hsub) hstorable.listed (List.mem_map_of_mem htask),
          ← hstored.taskId, Ne, Finset.card_eq_zero]
        intro hempty
        exact hparents (hempty.le.trans (Finset.empty_subset _))
      rw [hstored.run]
      exact if_neg hdegree

/-- **A batch both stores take.** -/
theorem AllAt.taken {nowTs : Int} (h : AllAt env fate subs reports s)
    (hids : FreshIds (subs ++ new) .empty) (hfresh : FreshIds new s.batcher.db)
    (hkeys : FreshKeys new s.redis) (hstorable : ∀ sub ∈ new, sub.req.Storable env.jsonbIn)
    (hfree : KeysFree new s.batcher.db) (hreadable : ∀ sub ∈ new, sub.Readable env)
    (hstep : env.step s (.submit new {} nowTs) = some s') :
    AllAt env fate (subs ++ new) reports s' := by
  rcases @processBatch_cases _ env.serialize _ _ _ nowTs hfresh hkeys hstorable with
    ⟨hnot, -⟩ | ⟨batch, db', cmds, -, hflush, hpart, hall, hresult⟩
  · exact absurd hfree hnot
  · obtain rfl : { s.setDb db' with redis := execPipeline cmds s.redis } = s' := by
      rw [JobService.step, hresult] at hstep
      exact Option.some.inj hstep
    have howned : ∀ t, Owned subs t → Owned (subs ++ new) t := by
      rintro t ⟨sub, hsub, hmem⟩
      exact ⟨sub, List.mem_append_left _ hsub, hmem⟩
    refine ⟨hids, List.forall_mem_append.mpr ⟨h.storable, hstorable⟩,
      List.forall_mem_append.mpr ⟨h.readable, hreadable⟩,
      List.forall_mem_append.mpr ⟨fun sub hsub => ?_, fun sub hsub => ?_⟩,
      fun r hr => howned _ (h.reported r hr), fun op hop => howned _ (h.held op hop),
      execPipeline_typed (k := .tasks) hpart.fits h.tasks,
      execPipeline_typed (k := .errors) hpart.fits h.errors⟩
    · -- the jobs that were there: the commands concern none of their tasks
      obtain ⟨p, hp⟩ := h.jobs sub hsub
      refine ⟨p, List.append_nil reports ▸ hp.frame (show sub.answers [] = [] from rfl) ?_
        (fun _ _ _ _ => Iff.rfl) fun u _ row hrow => ?_⟩
      · refine hp.redis.agree ?_ (hp.redis.typed.execPipeline hpart.fits)
        rw [execPipeline_view _ hpart.fits, ← actAll_filter]
        have helse := hpart.elsewhere fun other hother => hids.apart hsub hother
        refine actAll_agree (r := s.redis) (fun cmd hcmd => ?_) (fun cmd hcmd => ?_) _
        · obtain ⟨hmem, hexpire⟩ := List.mem_filter.mp hcmd
          refine (helse cmd hmem).resolve_left fun hcontra => ?_
          rw [hcontra] at hexpire
          cases hexpire
        · exact hpart.fits cmd (List.mem_filter.mp hcmd).1
      · have hkept := Db.task?_of_mem ((flush_grows hflush).2.1 (Db.mem_of_task? hrow))
        rwa [Db.task?_taskId hrow] at hkept
    · refine ⟨.start, .submitted h hids hpart hall hsub (hstorable sub hsub) fun task htask => ?_⟩
      obtain ⟨before, after, hsubs⟩ := List.append_of_mem hsub
      have hnew : sub.KeyNew before s.batcher.db :=
        hfree before sub after hsubs (List.ne_nil_of_mem htask)
      exact ((flush_committed hfresh hflush hsubs).1 hnew).tasks task htask

/-- A batch the database refuses changes nothing. -/
theorem refused_step {faults : BatchFaults} {nowTs : Int} (hfresh : FreshIds new s.batcher.db)
    (hbad : ¬ ((∀ sub ∈ new, sub.req.Storable env.jsonbIn) ∧ KeysFree new s.batcher.db))
    (hstep : env.step s (.submit new faults nowTs) = some s') : s' = s := by
  rw [JobService.step, processBatch_refused fun batch db' hflush =>
    hbad ((flush_ok_iff nowTs hfresh).mp ⟨batch, db', hflush⟩)] at hstep
  exact (Option.some.inj hstep).symm

-- ---------------------------------------------------------------------------
-- Reports
-- ---------------------------------------------------------------------------

/-- What a SUCCESS report does to Redis. -/
theorem report_success_redis {svc : SchedulerService} {r : StatusReport}
    (hid : r.request.taskId ≠ "") (hsuccess : r.request.finalState = .success)
    (hscript : r.faults.evalSha ≠ .refused) (s : Reporting) :
    (s.report svc r).redis = (completeTask r.ord r.request.taskId r.request.jobId s.redis).2 := by
  show (updateTaskStatus svc r.faults r.ord r.now r.request s.sched).2.redis = _
  rw [updateTaskStatus, if_neg hid, if_pos hsuccess]
  show (redisCall r.faults.evalSha _ s.redis).2 = _
  rw [redisCall_state, if_neg hscript]

/-- What a failure report does to Redis. -/
theorem report_failure_redis {svc : SchedulerService} {r : StatusReport}
    (hid : r.request.taskId ≠ "") (hfailure : r.request.finalState ≠ .success)
    (hrepository : svc.hasRepository = true) (s : Reporting) :
    (s.report svc r).redis = (reportFailure svc r.faults r.now r.request s.sched).redis := by
  show (updateTaskStatus svc r.faults r.ord r.now r.request s.sched).2.redis = _
  rw [updateTaskStatus, if_neg hid, if_neg hfailure, if_pos hrepository]

/-- The ids in a report are those of one of the jobs. -/
theorem AnswersEntry.own {r : StatusReport} (h : AnswersEntry fate subs reports s r) :
    ∃ sub ∈ subs, ∃ u ∈ sub.uuids, r.request.jobId = sub.jobId.text ∧ r.request.taskId = u.text ∧
      u.text ∈ dagIds sub.item.ctx sub.req := by
  obtain ⟨sub, hsub, hjob, hmem⟩ := h.job
  obtain ⟨u, hu, hid⟩ := Submission.mem_uuids hmem
  exact ⟨sub, hsub, u, hu, hjob, hid, hid ▸ hmem⟩

/-- Two jobs do not share a task. -/
theorem AllAt.apart {other : Submission} (h : AllAt env fate subs reports s) (hsub : sub ∈ subs)
    (hother : other ∈ subs) (hne : other ≠ sub) (hu : u ∈ sub.uuids) :
    u.text ∉ other.workflow.tasks ∧ ∀ v ∈ other.uuids, u ≠ v := by
  have hdisjoint := (h.ids.disjoint hsub hother hne).2
  refine ⟨fun hmem => ?_, fun v hv huv => hdisjoint hv (huv ▸ hu)⟩
  obtain ⟨v, hv, heq⟩ := Submission.mem_nodes hmem
  exact hdisjoint hv (Uuid.text_inj.mp heq ▸ hu)

/-- A report leaves the row of another task alone. -/
theorem report_other_row {r : StatusReport} {v : Uuid} (hid : r.request.taskId = u.text)
    (hne : u ≠ v) (hrow : s.batcher.db.task? v = some row) :
    (s.report env.svc r).batcher.db.task? v = some row := by
  have hnot : ¬ r.FailsTask env.svc v := by
    rintro ⟨-, -, haddr, -⟩
    rw [hid] at haddr
    exact hne (Option.some.inj ((addresses_text u).symm.trans haddr))
  rw [Reporting.report_task?, hrow, Option.map_some, if_neg hnot]

/-- What a report does for the other jobs. -/
theorem JobAt.foreign {r : StatusReport} (h : JobAt env fate sub reports s p)
    (hid : r.request.taskId = u.text) (htask : u.text ∉ sub.workflow.tasks)
    (hne : ∀ v ∈ sub.uuids, u ≠ v) (hredis : CountsDown sub p (s.report env.svc r).redis) :
    JobAt env fate sub (reports ++ [r]) (s.report env.svc r) p := by
  refine h.frame (sub.answers_other (hid ▸ htask)) hredis (fun v hv op haddr => ?_)
    fun v hv row hrow => report_other_row hid (hne v hv) hrow
  rw [Reporting.held_report, List.mem_append, or_iff_left_iff_imp]
  intro hop
  split at hop
  · obtain rfl := List.mem_singleton.mp hop
    rw [StatusReport.update, hid] at haddr
    exact absurd (Option.some.inj ((addresses_text u).symm.trans haddr)) (hne v hv)
  · exact absurd hop List.not_mem_nil

/-- The run of a job goes on with a report of its own. -/
theorem JobAt.run_report {r : StatusReport} (h : JobAt env fate sub reports s p)
    (hid : r.request.taskId = t) (hopen : sub.workflow.Open p t) :
    Runs.run (sub.workflow.step fate) .start (sub.answers (reports ++ [r])) =
      some (p.execute fate t) := by
  rw [Submission.answers_append, Submission.answers_own (hid ▸ hopen.1), hid]
  exact run_snoc.mpr ⟨p, h.run, if_pos hopen⟩

/-- **A SUCCESS report.** -/
theorem AllAt.success {r : StatusReport} (h : AllAt env fate subs reports s)
    (hanswer : AnswersEntry fate subs reports s r) (hsuccess : r.request.finalState = .success) :
    AllAt env fate subs (reports ++ [r]) (s.report env.svc r) := by
  obtain ⟨sub, hsub, u, hu, hjob, hid, hmem⟩ := hanswer.own
  obtain ⟨p, hp⟩ := h.jobs sub hsub
  have htask : u.text ∈ sub.workflow.tasks := mem_dagNodes.mpr hmem
  have hopen := h.open hsub hp hmem (hid ▸ hanswer.unanswered)
  obtain ⟨-, hnot, -⟩ := hp.consistent.open hopen
  have howned : Owned subs r.request.taskId := ⟨sub, hsub, hid ▸ hmem⟩
  have hfate : p.execute fate u.text = { p with done := insert u.text p.done } := by
    have hlast := hanswer.result.mp hsuccess
    rw [hid, hp.executions htask, Workflow.Progress.executions, if_neg hnot] at hlast
    exact if_neg (by omega)
  have hqueues : r.Queues env.svc :=
    ⟨env.hasBatcher, hsuccess, addresses_ne_empty (hid ▸ addresses_text u)⟩
  have hheld : (s.report env.svc r).held = s.held ++ [r.update] := by
    rw [Reporting.held_report, if_pos hqueues]
  obtain ⟨n, redis, hrun, hown, hothers⟩ :=
    hp.redis.complete (h.storable sub hsub).listed r.ord htask
  have hredis : (s.report env.svc r).redis = redis := by
    rw [report_success_redis hqueues.2.2 hsuccess hanswer.script, hid, hjob, hrun]
  refine ⟨h.ids, h.storable, h.readable, fun other hother => ?_, ?_, ?_, ?_, ?_⟩
  · by_cases hne : other = sub
    · subst hne
      refine ⟨{ p with done := insert u.text p.done }, hfate ▸ hp.run_report hid hopen,
        hredis ▸ hown, fun op hop v hv haddr => ?_, fun task htask => ?_⟩
      · rw [hheld] at hop
        rcases List.mem_append.mp hop with hold | hnew
        · exact (hp.held op hold v hv haddr).imp id (Finset.mem_insert_of_mem ·)
        · obtain rfl := List.mem_singleton.mp hnew
          rw [StatusReport.update, hid] at haddr
          rw [← Option.some.inj ((addresses_text u).symm.trans haddr)]
          exact ⟨hsuccess, Finset.mem_insert_self _ _⟩
      · obtain ⟨v, hv, row, hnatural, hrow, hat⟩ := hp.rows task htask
        refine ⟨v, hv, row, hnatural, ?_, hat.stored, hat.retries, fun hdone => ?_, hat.failed,
          fun hparents => hat.waiting fun hsub => hparents (hsub.trans (Finset.subset_insert _ _))⟩
        · have hnot : ¬ r.FailsTask env.svc v := fun hfails => hfails.1 hsuccess
          rw [Reporting.report_task?, hrow, Option.map_some, if_neg hnot]
        · rcases Finset.mem_insert.mp hdone with heq | hold
          · refine .inl ⟨r.update, hheld ▸ List.mem_append_right _ List.mem_cons_self, ?_⟩
            rw [StatusReport.update, hid, ← heq]
            exact addresses_text v
          · rcases hat.success hold with ⟨op, hop, haddr⟩ | hstate
            · exact .inl ⟨op, hheld ▸ List.mem_append_left _ hop, haddr⟩
            · exact .inr hstate
    · obtain ⟨q, hq⟩ := h.jobs other hother
      obtain ⟨hout, hdiffer⟩ := h.apart hsub hother hne hu
      obtain ⟨hjobs, huuids⟩ := h.ids.disjoint hsub hother hne
      exact ⟨q, hq.foreign hid hout hdiffer (hredis ▸ hothers other hjobs huuids q hq.redis)⟩
  · exact List.forall_mem_append.mpr ⟨h.reported, List.forall_mem_singleton.mpr howned⟩
  · rw [hheld]
    exact List.forall_mem_append.mpr ⟨h.held, List.forall_mem_singleton.mpr howned⟩
  · exact hredis ▸ hown.typed.shared.tasks
  · exact hredis ▸ hown.typed.shared.errors

/-- **A failure report and Redis**: the task is pushed again unless this was its last try. -/
theorem failure_redis {r : StatusReport} (hsub : sub.Readable env)
    (hanswer : AnswersEntry fate subs reports s r) (hfailure : r.request.finalState ≠ .success)
    (htask : task ∈ sub.req.tasks) (hid : r.request.taskId = u.text)
    (hrow : s.batcher.db.task? u = some row) (hat : RowAt env sub p s task u row)
    (hstream : s.redis.IsStream kTasks) :
    (p.failures u.text < task.maxRetry.toNat → ∃ jobId, (s.report env.svc r).redis =
        (xadd kTasks (toXAddArgs u.text jobId) s.redis).2) ∧
      (task.maxRetry.toNat ≤ p.failures u.text → (s.report env.svc r).redis = s.redis) := by
  have haddr : addresses r.request.taskId u := hid ▸ addresses_text u
  obtain ⟨-, hpush, hstay⟩ := reportFailure_row env.svc r.faults r.now (s := s.sched) haddr hrow
  rw [report_failure_redis (addresses_ne_empty haddr) hfailure env.hasRepository]
  obtain ⟨row₀, hstored, hrow₀⟩ := hat.stored
  have hretries := hat.retries
  have hmax : row.maxRetry.val = task.maxRetry.toNat := by
    rw [hrow₀]
    exact hstored.maxRetry
  refine ⟨fun hleft => hpush ⟨⟨by omega, ?_, by omega, ?_, ?_⟩, hanswer.failure, hanswer.lookup,
    hanswer.push, hstream⟩, fun hlast => hstay fun hpushes => ?_⟩
  · rw [hrow₀, hstored.priority]
    exact Int.natCast_nonneg _
  · rw [hrow₀, hstored.timeoutMs]
    exact Int.natCast_nonneg _
  · rw [hrow₀, hstored.funcParams]
    exact hsub task htask
  · have hleft := hpushes.row.left
    omega

/-- **A failure report and the row.** -/
theorem RowAt.failure {r : StatusReport} {p' : Workflow.Progress String}
    (hat : RowAt env sub p s task u row) (hnot : u.text ∉ p'.done)
    (hparents : sub.workflow.parents u.text ⊆ p'.done)
    (hfailures : p'.failures u.text = p.failures u.text + 1) :
    RowAt env sub p' s' task u { row with run := row.afterFailure r.now r.request.errorMsg } := by
  obtain ⟨row₀, hstored, hrow₀⟩ := hat.stored
  have hretries := hat.retries
  have hmax : row.maxRetry.val = task.maxRetry.toNat := by
    rw [hrow₀]
    exact hstored.maxRetry
  refine ⟨⟨row₀, hstored, by rw [hrow₀]⟩, ?_, fun hdone => absurd hdone hnot, fun hlimit => ?_,
    fun hwaiting => absurd hparents hwaiting⟩
  · show (row.afterFailure r.now r.request.errorMsg).retryCount.val = _
    rw [hfailures]
    by_cases hleft : row.run.retryCount.val < row.maxRetry.val
    · have hcount := (row.afterFailure_retried hleft r.now r.request.errorMsg).2
      omega
    · have hcount : (row.afterFailure r.now r.request.errorMsg).retryCount =
          row.run.retryCount := by
        rw [TaskRow.afterFailure, dif_neg hleft]
        rfl
      rw [hcount]
      omega
  · rw [hfailures] at hlimit
    exact TaskRow.afterFailure_failed (by omega) _ _

/-- **A failure report.** -/
theorem AllAt.failure {r : StatusReport} (h : AllAt env fate subs reports s)
    (hanswer : AnswersEntry fate subs reports s r) (hfailure : r.request.finalState ≠ .success) :
    AllAt env fate subs (reports ++ [r]) (s.report env.svc r) := by
  obtain ⟨sub, hsub, u, hu, hjob, hid, hmem⟩ := hanswer.own
  obtain ⟨p, hp⟩ := h.jobs sub hsub
  have htask : u.text ∈ sub.workflow.tasks := mem_dagNodes.mpr hmem
  have hopen := h.open hsub hp hmem (hid ▸ hanswer.unanswered)
  obtain ⟨hparents, hnot, hwithin⟩ := hp.consistent.open hopen
  have howned : Owned subs r.request.taskId := ⟨sub, hsub, hid ▸ hmem⟩
  have hfate : p.execute fate u.text =
      { p with failures := Function.update p.failures u.text (p.failures u.text + 1) } := by
    have hfails := mt hanswer.result.mpr hfailure
    rw [hid, hp.executions htask, Workflow.Progress.executions, if_neg hnot] at hfails
    exact if_pos (by omega)
  have hheld : (s.report env.svc r).held = s.held := by
    rw [Reporting.held_report, if_neg fun hqueues => hfailure hqueues.2.1, List.append_nil]
  -- the row of the task
  obtain ⟨task, htaskMem, hnaturalU⟩ := List.mem_map.mp hmem
  obtain ⟨v, hv, row, hnatural, hrow, hat⟩ := hp.rows task htaskMem
  obtain rfl : v = u := Uuid.text_inj.mp (hnatural.symm.trans hnaturalU)
  have hlimit : sub.limit v.text = task.maxRetry.toNat := by
    rw [← hnatural, h.limit_eq hsub htaskMem]
  obtain ⟨hpushed, hstays⟩ := failure_redis (h.readable sub hsub) hanswer hfailure
    htaskMem hid hrow hat h.tasks
  have hcounts : CountsDown sub (p.execute fate v.text) (s.report env.svc r).redis ∧
      ∀ other ∈ subs, other ≠ sub → ∀ q, CountsDown other q s.redis →
        CountsDown other q (s.report env.svc r).redis := by
    rw [hfate]
    by_cases hleft : p.failures v.text < task.maxRetry.toNat
    · obtain ⟨jobId, hredis⟩ := hpushed hleft
      rw [hredis]
      exact ⟨hp.redis.push_own (hlimit ▸ hleft) jobId, fun other hother hne q hq =>
        hq.push_other (h.apart hsub hother hne hu).1 jobId⟩
    · rw [hstays (by omega)]
      exact ⟨hp.redis.exhausted (by omega), fun _ _ _ _ hq => hq⟩
  refine ⟨h.ids, h.storable, h.readable, fun other hother => ?_, ?_, hheld ▸ h.held, ?_, ?_⟩
  · by_cases hne : other = sub
    · subst hne
      refine ⟨p.execute fate v.text, hp.run_report hid hopen, hcounts.1, ?_, fun task' htask' => ?_⟩
      · rw [hheld, hfate]
        exact hp.held
      · obtain ⟨w, hw, row', hnatural', hrow', hat'⟩ := hp.rows task' htask'
        by_cases hwv : w = v
        · subst hwv
          have hsame : task' = task := List.inj_on_of_nodup_map (h.storable _ hsub).distinct
            htask' htaskMem ((h.assigns hsub).uuidOf_inj (List.mem_map_of_mem htask')
              (List.mem_map_of_mem htaskMem) (hnatural'.trans hnatural.symm))
          subst hsame
          refine ⟨w, hw, _, hnatural', ?_, hat.failure (r := r) (hfate ▸ hnot) (hfate ▸ hparents)
            (by rw [hfate]; exact Function.update_self _ _ _)⟩
          have hfails : r.FailsTask env.svc w :=
            ⟨hfailure, env.hasRepository, hid ▸ addresses_text w, by rw [hanswer.failure]; rfl⟩
          rw [Reporting.report_task?, hrow, Option.map_some, if_pos hfails]
        · refine ⟨w, hw, row', hnatural', report_other_row hid (Ne.symm hwv) hrow', ?_⟩
          have hother : (p.execute fate v.text).failures w.text = p.failures w.text := by
            rw [hfate]
            exact Function.update_of_ne (fun heq => hwv (Uuid.text_inj.mp heq)) _ _
          have hdone : (p.execute fate v.text).done = p.done := by rw [hfate]
          refine ⟨hat'.stored, hother ▸ hat'.retries, fun hmem => ?_, hother ▸ hat'.failed,
            hdone ▸ hat'.waiting⟩
          rw [Reporting.Pending, hheld]
          exact hat'.success (hdone ▸ hmem)
    · obtain ⟨q, hq⟩ := h.jobs other hother
      obtain ⟨hout, hdiffer⟩ := h.apart hsub hother hne hu
      exact ⟨q, hq.foreign hid hout hdiffer (hcounts.2 other hother hne q hq.redis)⟩
  · exact List.forall_mem_append.mpr ⟨h.reported, List.forall_mem_singleton.mpr howned⟩
  · exact hcounts.1.typed.shared.tasks
  · exact hcounts.1.typed.shared.errors

end InTable

-- ---------------------------------------------------------------------------
-- Every state
-- ---------------------------------------------------------------------------

section Runs

variable {env : JobService} {fate : String → ℕ} {subs new : List Submission}
  {reports more : List StatusReport} {s s' : Reporting}

/-- **Step lemma.** -/
theorem AllAt.step {a : StoreAction} (h : AllAt env fate subs reports s)
    (hok : Orderly env fate subs reports s a new more) (hstep : env.step s a = some s') :
    AllAt env fate (subs ++ new) (reports ++ more) s' := by
  cases hok with
  | taken nowTs hids hfresh hkeys hstorable hfree hreadable =>
    rw [List.append_nil]
    exact h.taken hids hfresh hkeys hstorable hfree hreadable hstep
  | refused faults nowTs hfresh hbad =>
    rw [List.append_nil, List.append_nil, refused_step hfresh hbad hstep]
    exact h
  | @report r hanswer =>
    rw [List.append_nil, ← Option.some.inj hstep]
    by_cases hsuccess : r.request.finalState = .success
    · exact h.success hanswer hsuccess
    · exact h.failure hanswer hsuccess
  | batcher hflush =>
    rw [List.append_nil, List.append_nil]
    exact h.batcher hflush hstep
  | revert outcome hopen =>
    rw [List.append_nil, List.append_nil, ← Option.some.inj hstep]
    exact h.revert hopen outcome
  | requeue workerId outcome =>
    rw [List.append_nil, List.append_nil, ← Option.some.inj hstep]
    exact h.requeue workerId outcome
  | pass hkeys =>
    rw [List.append_nil, List.append_nil, ← Option.some.inj hstep]
    exact h.pass hkeys

/-- **Run lemma.** Every job is where the executions of its tasks have brought it. -/
theorem Lifecycle.allAt (h : Lifecycle env fate subs reports s) :
    AllAt env fate subs reports s := by
  induction h with
  | start db htasks herrors =>
    refine ⟨freshIds_empty List.nodup_nil List.nodup_nil, ?_, ?_, ?_, ?_, ?_, htasks, herrors⟩
    all_goals exact fun _ hmem => absurd hmem List.not_mem_nil
  | step _ hok hstep ih => exact ih.step hok hstep

end Runs

end DistTaskSystem
