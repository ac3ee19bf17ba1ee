import DistTaskSystem.Guarantees.InflightAccounting
import DistTaskSystem.Guarantees.DoubleDispatch

/-!
# DTS — where a task is

A task that was pushed and not reported yet is safe as long as the group can
still deliver its entry, has it pending, or a registered worker holds it. The
entry is acknowledged when a worker has answered, so from then on the worker is
the only one that knows of the task. The patrol removes a worker that is silent
for too long and changes rows of the table whose state is RUNNING; no function
ever sets that state, and a row is not put on the stream again.

## Results

* `secure_step`  — a step keeps the tasks safe, as long as no task is lost with
  its worker and none is acknowledged that nobody has.
* `tasks_safe`   — in such runs every task is safe.
* `crash_loses_task` — a worker that dies after its answer takes the task along.
-/

namespace DistTaskSystem

namespace Cluster

open Runs

variable {env : LoopEnv} {s t : Cluster} {a : Action} {actions : List Action} {st st' : Stream}
  {taskId : String}

/-- A registered worker has the task queued, is executing it or has not reported it. -/
def Held (s : Cluster) (taskId : String) : Prop :=
  ∃ node ∈ s.nodes, s.loop.workerManager.Registered node.workerId ∧
    ∃ task ∈ node.held, task.taskId = taskId

/-- The group needs not reach the task any more. -/
def Covered (s : Cluster) (taskId : String) : Prop :=
  taskId ∈ s.reported ∨ s.Held taskId

/-- No positive answer has come for the task, and the group reaches its entries. -/
def Unanswered (s : Cluster) (taskId : String) : Prop :=
  (∀ e ∈ (s.loop.redis.streamAt kTasks).entries, e.taskId? = some taskId →
    (s.loop.redis.streamAt kTasks).Reaches e.id) ∧
  ∀ r ∈ s.running, r.answer.any Answer.success = true → r.job.task.taskId ≠ taskId

/-- The task may be lost with its worker. -/
def Spare (s : Cluster) (taskId : String) : Prop :=
  taskId ∈ s.reported ∨ s.Unanswered taskId

/-- The step loses no task. -/
def LosesNone (env : LoopEnv) (s : Cluster) : Action → Prop
  /- an entry is skipped only if its task was reported, and a meta describes the
  task of its entry -/
  | .loop (.entry faults) => ∀ entry ∈ s.inHand.head?,
      (lookupTask env faults.get entry s.loop.redis = .ok none →
        ∀ taskId ∈ entry.taskId?, taskId ∈ s.reported) ∧
      ∀ task, lookupTask env faults.get entry s.loop.redis = .ok (some task) →
        entry.taskId? = some task.taskId
  /- a worker whose answer arrives is registered and has taken the task -/
  | .pool (.call i call) => call.stub = true → call.answered = true →
      ∀ job, s.running[i]? = some ⟨job, none⟩ → ∀ j ∈ call.target, ∀ node ∈ s.nodes[j]?,
        s.loop.workerManager.Registered node.workerId ∧
        Hands env.parse node.hasSubmitter call.faults (taskToProto env.dump job.task) ∧
        call.faults.submit = false
  /- a report arrives -/
  | .world (.report j k delivered) => delivered = false →
      ∀ node ∈ s.nodes[j]?, ∀ task ∈ node.held[k]?, s.Spare task.taskId
  /- a worker that is removed takes no task along -/
  | .world (.patrol _) => ∀ node ∈ s.nodes,
      node.workerId ∈ (s.loop.workerManager.pruneDeadWorkers s.loop.redis.now).1 →
        ∀ task ∈ node.held, s.Spare task.taskId
  | _ => True

-- ---------------------------------------------------------------------------
-- The invariant
-- ---------------------------------------------------------------------------

/-- Every task is somewhere, and what the scheduler works with belongs to the
stream. -/
structure Secure (s : Cluster) (st : Stream) : Prop where
  serves : Serves s.loop.redis st
  ids : ∀ ids, s.work = .claim ids → ids.Nodup
  inHand : ∀ e ∈ s.inHand, e ∈ st.entries
  jobs : ∀ job ∈ s.jobs, ∃ e ∈ st.entries, e.id = job.streamId ∧
    e.taskId? = some job.task.taskId
  answered : ∀ r ∈ s.running, r.answer.any Answer.success = true → s.Covered r.job.task.taskId
  safe : ∀ e ∈ st.entries, ∀ taskId ∈ e.taskId?, s.Covered taskId ∨ st.Reaches e.id

theorem Secure.unanswered_reaches (h : s.Secure st) (hfree : s.Unanswered taskId) :
    ∀ e ∈ st.entries, e.taskId? = some taskId → st.Reaches e.id := by
  intro e he htask
  have hreaches := hfree.1 e (h.serves.holds.streamAt.symm ▸ he) htask
  rwa [h.serves.holds.streamAt] at hreaches

-- ---------------------------------------------------------------------------
-- Who holds a task
-- ---------------------------------------------------------------------------

/-- Nothing changes about the workers. -/
theorem Covered.congr (h : s.Covered taskId) (hnodes : t.nodes = s.nodes)
    (hreported : t.reported = s.reported)
    (hregistered : ∀ id, s.loop.workerManager.Registered id →
      t.loop.workerManager.Registered id) : t.Covered taskId := by
  refine h.imp (fun hmem => hreported ▸ hmem) ?_
  rintro ⟨node, hnode, hreg, hheld⟩
  exact ⟨node, hnodes ▸ hnode, hregistered _ hreg, hheld⟩

/-- A process is replaced by one of the same name that holds no less. -/
theorem Held.set {j : Nat} {node node' : WorkerNode} (h : s.Held taskId)
    (hnode : s.nodes[j]? = some node) (hnodes : t.nodes = s.nodes.set j node')
    (hid : node'.workerId = node.workerId)
    (hheld : ∀ task ∈ node.held, task.taskId = taskId → task ∈ node'.held)
    (hregistered : ∀ id, s.loop.workerManager.Registered id →
      t.loop.workerManager.Registered id) : t.Held taskId := by
  obtain ⟨n, hn, hreg, task, htask, heq⟩ := h
  obtain ⟨k, hk, rfl⟩ := List.mem_iff_getElem.mp hn
  obtain ⟨hj, hget⟩ := List.getElem?_eq_some_iff.mp hnode
  by_cases hkj : k = j
  · subst hkj
    rw [hget] at hreg htask
    refine ⟨node', ?_, hid.symm ▸ hregistered _ hreg, task, hheld task htask heq, heq⟩
    rw [hnodes]
    exact List.mem_set hj node'
  · refine ⟨s.nodes[k], ?_, hregistered _ hreg, task, htask, heq⟩
    rw [hnodes]
    refine List.mem_iff_getElem?.mpr ⟨k, ?_⟩
    rw [List.getElem?_set_ne (Ne.symm hkj), List.getElem?_eq_getElem hk]

/-- Handling an entry prebooks a worker, which stays registered. -/
theorem registered_handled {faults : EntryFaults} {select : Option WorkerInfo}
    {entry : StreamEntry} {handled : Handled} {l m : SchedulerLoop}
    (heffect : HandleEffect env faults select entry l handled m) (id : String)
    (h : l.workerManager.Registered id) : m.workerManager.Registered id := by
  cases heffect with
  | skip hlookup => exact h
  | dispatch task worker hlookup hselect => exact WorkerManager.registered_prebookTask.mpr h
  | noWorker task hlookup hselect => exact h

/-- The loop thread does nothing about the workers. -/
theorem covered_loop {a : LoopAction} (hstep : s.loopStep env a = some t)
    (h : s.Covered taskId) : t.Covered taskId := by
  cases loopStep_moves hstep with
  | handled faults c workerIdx entry rest handled loop hwork heffect =>
    exact h.congr rfl rfl (registered_handled heffect)
  | rescued faults entry rest handled loop hwork heffect =>
    exact h.congr rfl rfl (registered_handled heffect)
  | busy hwork hfull => exact h
  | toScan hwork hroom hdue => exact h
  | toPull hwork hroom => exact h
  | scanned outcome call hwork hcall => exact h
  | claimed outcome ids call hwork hcall => exact h
  | noWorkers outcome hwork hnone => exact h
  | pulled outcome c call hwork hworkers hcall => exact h
  | thrown faults c workerIdx entry rest e hwork hthrow => exact h
  | rescueThrown faults entry rest e hwork hthrow => exact h

/-- The pool adds to what the workers hold. -/
theorem covered_pool {a : PoolAction} (hstep : s.poolStep env a = some t)
    (h : s.Covered taskId) : t.Covered taskId := by
  cases poolStep_moves hstep with
  | start job rest hpool hfree => exact h
  | fail i call job answer hrunning hfail => exact h
  | execute i call job j node hrunning hnode halive haddress hstub htarget =>
    refine h.imp id fun hheld => ?_
    exact hheld.set hnode rfl rfl (fun task htask _ => List.mem_append_left _ htask)
      fun _ hid => hid
  | settle i faults job answer hrunning =>
    refine h.congr rfl rfl fun id hid => ?_
    show (DistTaskSystem.settle faults job answer s.loop).workerManager.Registered id
    rw [settle_workerManager]
    exact hid

/-- Everybody else may lose a task with its worker, if the step is one that does
not matter. -/
theorem covered_world {a : WorldAction} (hstep : s.worldStep a = some t)
    (hok : LosesNone env s (.world a)) (h : s.Covered taskId) :
    t.Covered taskId ∨ s.Unanswered taskId := by
  cases worldStep_moves hstep with
  | push fields => exact .inl h
  | store taskId payload ttl => exact .inl h
  | pass ms => exact .inl h
  | boot workerId address hasSubmitter hfresh =>
    refine .inl (h.imp id ?_)
    rintro ⟨node, hnode, hrest⟩
    exact ⟨node, List.mem_append_left _ hnode, hrest⟩
  | register j node hnode halive =>
    exact .inl (h.congr rfl rfl fun id hid =>
      WorkerManager.registered_handleRegister.mpr (.inl hid))
  | heartbeat j runningTaskCount node hnode halive =>
    exact .inl (h.congr rfl rfl fun id hid =>
      WorkerManager.registered_handleHeartbeat.mpr hid)
  | crash j node hnode =>
    exact .inl (h.imp id fun hheld =>
      hheld.set hnode rfl rfl (fun task htask _ => htask) fun _ hid => hid)
  | report j k delivered node task hnode htask halive =>
    rcases h with hreported | hheld
    · refine .inl (.inl ?_)
      show taskId ∈ if delivered = true then _ else _
      split
      · exact List.mem_append_left _ hreported
      · exact hreported
    · by_cases htaskId : task.taskId = taskId
      · subst htaskId
        cases delivered with
        | true => exact .inl (.inl (List.mem_append_right _ (List.mem_singleton_self _)))
        | false =>
          rcases hok rfl node hnode task htask with hreported | hfree
          · exact .inl (.inl hreported)
          · exact .inr hfree
      · -- another task stays with the worker
        refine .inl (.inr (hheld.set hnode rfl rfl (fun task' htask' heq => ?_) fun _ hid => hid))
        obtain ⟨hk, hget⟩ := List.getElem?_eq_some_iff.mp htask
        refine List.mem_eraseIdx_iff_getElem.mpr ?_
        obtain ⟨k', hk', rfl⟩ := List.mem_iff_getElem.mp htask'
        refine ⟨k', hk', ?_, rfl⟩
        rintro rfl
        exact htaskId (hget ▸ heq)
  | patrol outcome =>
    rcases h with hreported | ⟨node, hnode, hreg, task, htask, rfl⟩
    · exact .inl (.inl hreported)
    · by_cases hdead : node.workerId ∈
          (s.loop.workerManager.pruneDeadWorkers s.loop.redis.now).1
      · exact (hok node hnode hdead task htask).imp .inl id
      · refine .inl (.inr ⟨node, hnode, ?_, task, htask, rfl⟩)
        exact WorkerManager.registered_pruneDeadWorkers.mpr ⟨hreg, hdead⟩

theorem covered_step (hstep : step env s a = some t) (hok : LosesNone env s a)
    (h : s.Covered taskId) : t.Covered taskId ∨ s.Unanswered taskId := by
  cases a with
  | loop a => exact .inl (covered_loop hstep h)
  | pool a => exact .inl (covered_pool hstep h)
  | world a => exact covered_world hstep hok h

-- ---------------------------------------------------------------------------
-- The steps
-- ---------------------------------------------------------------------------

/-- What is acknowledged is covered. -/
theorem Secure.acked (h : s.Secure st) (hok : LosesNone env s a) {e : StreamEntry}
    (he : e ∈ st.entries) (htask : e.taskId? = some taskId)
    (hacked : s.acked env a = some e.id) : s.Covered taskId := by
  cases a with
  | world a => exact nomatch hacked
  | loop a =>
    cases a with
    | entry faults =>
      obtain ⟨entry, hhead, hskip⟩ := Option.bind_eq_some_iff.mp hacked
      split at hskip
      · next hlookup =>
        have hmem : entry ∈ st.entries := h.inHand entry (List.mem_of_mem_head? hhead)
        obtain rfl := h.serves.ordered.id_inj hmem he (Option.some.inj hskip)
        exact .inl ((hok entry hhead).1 hlookup taskId htask)
      · exact nomatch hskip
    | check => exact nomatch hacked
    | scan outcome => exact nomatch hacked
    | claim outcome => exact nomatch hacked
    | pull outcome => exact nomatch hacked
  | pool a =>
    cases a with
    | start => exact nomatch hacked
    | call i call => exact nomatch hacked
    | settle i faults =>
      obtain ⟨r, hr, hanswer⟩ := Option.bind_eq_some_iff.mp hacked
      rw [Option.ite_none_right_eq_some] at hanswer
      obtain ⟨hsuccess, hid⟩ := hanswer
      have hmem : r ∈ s.running := List.mem_of_getElem? hr
      obtain ⟨e', he', hid', htask'⟩ :=
        h.jobs r.job (List.mem_append_right _ (List.mem_map_of_mem hmem))
      obtain rfl := h.serves.ordered.id_inj he' he (hid'.trans (Option.some.inj hid))
      obtain rfl := Option.some.inj (htask'.symm.trans htask)
      exact h.answered r hmem hsuccess

/-- A positive answer comes from a registered worker that has the task. -/
theorem Secure.answered_step (h : s.Secure st) (hok : LosesNone env s a)
    (hstep : step env s a = some t) :
    ∀ r ∈ t.running, r.answer.any Answer.success = true → t.Covered r.job.task.taskId := by
  -- an answer that was there before is not affected
  have hold : ∀ r ∈ s.running, r.answer.any Answer.success = true →
      t.Covered r.job.task.taskId := by
    intro r hr hsuccess
    rcases covered_step hstep hok (h.answered r hr hsuccess) with hcovered | hfree
    · exact hcovered
    · exact absurd rfl (hfree.2 r hr hsuccess)
  cases a with
  | loop a =>
    have hrunning : t.running = s.running := by cases loopStep_moves hstep <;> rfl
    exact hrunning ▸ hold
  | world a => exact (worldStep_threads hstep).2.1 ▸ hold
  | pool a =>
    intro r hr hsuccess
    cases poolStep_moves hstep with
    | start job rest hpool hfree =>
      rcases List.mem_append.mp hr with hmem | hnew
      · exact hold r hmem hsuccess
      · obtain rfl := List.mem_singleton.mp hnew
        exact nomatch hsuccess
    | fail i call job answer hrunning hfail =>
      rcases mem_setAnswer hr with rfl | hmem
      · exact nomatch hfail.symm.trans hsuccess
      · exact hold r hmem hsuccess
    | execute i call job j node hrunning hnode halive haddress hstub htarget =>
      rcases mem_setAnswer hr with rfl | hmem
      · have harrived : call.answered = true := by
          by_contra hno
          rw [if_neg hno] at hsuccess
          exact nomatch hsuccess
        obtain ⟨hreg, hhands, hsubmit⟩ :=
          hok hstub harrived job hrunning j htarget node hnode
        obtain ⟨task, htask, hhanded⟩ := runTask_hands hhands
        refine .inr ⟨_, List.mem_set (List.getElem?_eq_some_iff.mp hnode).1 _, hreg, task, ?_,
          (taskFromProto_ids htask).1⟩
        refine List.mem_append_right _ (List.mem_flatMap.mpr ⟨task, ?_, ?_⟩)
        · rw [Dispatch.request, hhanded]
          exact List.mem_singleton_self task
        · rw [onTaskReceived, hsubmit]
          exact List.mem_singleton_self task
      · exact hold r hmem hsuccess
    | settle i faults job answer hrunning =>
      exact hold r (List.mem_of_mem_eraseIdx hr) hsuccess

/-- **Step lemma.** -/
theorem secure_step (h : s.Secure st) (hok : LosesNone env s a)
    (hstep : step env s a = some t) : ∃ st', t.Secure st' := by
  obtain ⟨st', hserves, hfollows, hids, hinHand⟩ := h.serves.step h.ids hstep
  refine ⟨st', hserves, hids, ?_, ?_, h.answered_step hok hstep, ?_⟩
  · intro e he
    rcases hinHand e he with hold | hnew
    · exact hfollows.entries e (h.inHand e hold)
    · exact hfollows.entries e hnew
  · intro job hjob
    rcases step_jobs hstep hjob with hold | ⟨faults, entry, rfl, hhead, hid, hlookup⟩
    · obtain ⟨e, he, hrest⟩ := h.jobs job hold
      exact ⟨e, hfollows.entries e he, hrest⟩
    · have hmem : entry ∈ st.entries := h.inHand entry (List.mem_of_mem_head? hhead)
      exact ⟨entry, hfollows.entries entry hmem, hid, (hok entry hhead).2 job.task hlookup⟩
  · intro e he taskId htask
    rcases hfollows.added e he with hold | hnew
    · -- an entry within reach stays there, unless it is acknowledged
      have hreached : st.Reaches e.id → t.Covered taskId ∨ st'.Reaches e.id := by
        intro hreaches
        by_cases hacked : s.acked env a = some e.id
        · have hcovered := h.acked hok hold htask hacked
          cases a with
          | loop a => exact .inl (covered_loop hstep hcovered)
          | pool a => exact .inl (covered_pool hstep hcovered)
          | world a => exact nomatch hacked
        · exact .inr (hfollows.reaches e hold hacked hreaches)
      rcases h.safe e hold taskId htask with hcovered | hreaches
      · rcases covered_step hstep hok hcovered with hkept | hfree
        · exact .inl hkept
        · exact hreached (h.unanswered_reaches hfree e hold htask)
      · exact hreached hreaches
    · exact .inr hnew

-- ---------------------------------------------------------------------------
-- The runs
-- ---------------------------------------------------------------------------

theorem Starts.secure (h : s.Starts st) (hnew : ∀ e ∈ st.entries, st.Reaches e.id) :
    s.Secure st := by
  have hidle : s.inHand = [] := by rw [inHand, h.work]
  have hnone : s.running = [] := List.map_eq_nil_iff.mp (List.append_eq_nil_iff.mp h.jobs).2
  refine ⟨h.serves, ?_, ?_, ?_, ?_, fun e he _ _ => .inr (hnew e he)⟩
  · intro ids hclaim
    cases h.work.symm.trans hclaim
  · rw [hidle]
    exact fun e he => absurd he List.not_mem_nil
  · rw [h.jobs]
    exact fun job hjob => absurd hjob List.not_mem_nil
  · rw [hnone]
    exact fun r hr => absurd hr List.not_mem_nil

/-- Where each pushed task is, if its report has not been processed. -/
def TasksSafe (s : Cluster) : Prop :=
  ∀ e ∈ (s.loop.redis.streamAt kTasks).entries, ∀ taskId ∈ e.taskId?, taskId ∉ s.reported →
    (∀ g ∈ (s.loop.redis.streamAt kTasks).group? kGroupMain,
      g.lastDelivered < e.id ∨ ∃ p ∈ g.pending, p.id = e.id) ∨ s.Held taskId

/-- **No task loss**, as long as no step loses one with its worker. -/
theorem tasks_safe (hstart : s.Starts st) (hnew : ∀ e ∈ st.entries, st.Reaches e.id)
    (hrun : run (step env) s actions = some t)
    (hok : Along (step env) (LosesNone env) s actions) : t.TasksSafe := by
  have hend : ∃ st', t.Secure st' := by
    refine along_invariant (P := fun u => ∃ st', u.Secure st') ?_ hrun hok
      ⟨st, hstart.secure hnew⟩
    rintro u b v ⟨st', hu⟩ hloses hstep
    exact secure_step hu hloses hstep
  obtain ⟨st', ht⟩ := hend
  intro e he taskId htask hreported
  rw [ht.serves.holds.streamAt] at he ⊢
  rcases ht.safe e he taskId htask with (hmem | hheld) | hreaches
  · exact absurd hmem hreported
  · exact .inr hheld
  · exact .inl hreaches

-- ---------------------------------------------------------------------------
-- The condition of a step, computed
-- ---------------------------------------------------------------------------

instance (s : Cluster) (taskId : String) : Decidable (s.Spare taskId) :=
  haveI : ∀ id, Decidable ((s.loop.redis.streamAt kTasks).Reaches id) := fun _ =>
    inferInstanceAs (Decidable (∀ g ∈ _, _ ∨ ∃ p ∈ _, _))
  inferInstanceAs (Decidable (_ ∨ (∀ e ∈ _, _ → _) ∧ ∀ r ∈ _, _ → _))

/-- `LosesNone`, as a test. -/
def losesNone (env : LoopEnv) (s : Cluster) : Action → Bool
  | .loop (.entry faults) => s.inHand.head?.all fun entry =>
    match lookupTask env faults.get entry s.loop.redis with
    | .error _ => true
    | .ok none => entry.taskId?.all fun taskId => taskId ∈ s.reported
    | .ok (some task) => entry.taskId? = some task.taskId
  | .pool (.call i call) => !(call.stub && call.answered) || s.running[i]?.all fun r =>
    r.answer.isSome || call.target.all fun j => s.nodes[j]?.all fun node =>
      decide (s.loop.workerManager.Registered node.workerId) && node.hasSubmitter &&
        !call.faults.convert && !call.faults.submit &&
        (taskFromProto env.parse (taskToProto env.dump r.job.task)).isOk
  | .world (.report j k delivered) => delivered || s.nodes[j]?.all fun node =>
    node.held[k]?.all fun task => decide (s.Spare task.taskId)
  | .world (.patrol _) => s.nodes.all fun node =>
    decide (node.workerId ∉ (s.loop.workerManager.pruneDeadWorkers s.loop.redis.now).1) ||
      node.held.all fun task => decide (s.Spare task.taskId)
  | _ => true

/-- A step that passes the test loses no task. -/
theorem LosesNone.of_test (h : s.losesNone env a = true) : LosesNone env s a := by
  cases a with
  | loop a =>
    cases a with
    | entry faults =>
      intro entry hentry
      have hall := (Option.all_eq_true _ _).mp h entry hentry
      split at hall
      · next hlookup =>
        rw [hlookup]
        exact ⟨(by intro hnone; cases hnone), (by intro task htask; cases htask)⟩
      · next hlookup =>
        rw [hlookup]
        refine ⟨fun _ taskId htask => ?_, (by intro task htask; cases htask)⟩
        exact of_decide_eq_true ((Option.all_eq_true _ _).mp hall taskId htask)
      · next task hlookup =>
        rw [hlookup]
        refine ⟨(by intro hnone; cases hnone), fun task' htask => ?_⟩
        obtain rfl := Option.some.inj (Except.ok.inj htask)
        exact of_decide_eq_true hall
    | _ => trivial
  | pool a =>
    cases a with
    | call i call =>
      intro hstub hanswered job hjob j hj node hnode
      rw [losesNone, hstub, hanswered, hjob] at h
      have hnodes := (Option.all_eq_true _ _).mp h j hj
      have hall := (Option.all_eq_true _ _).mp hnodes node hnode
      simp only [Bool.and_eq_true, decide_eq_true_eq, Bool.not_eq_true'] at hall
      obtain ⟨⟨⟨⟨hregistered, hsubmitter⟩, hconvert⟩, hsubmit⟩, hparsed⟩ := hall
      refine ⟨hregistered, ⟨hsubmitter, hconvert, ?_⟩, hsubmit⟩
      cases hparse : taskFromProto env.parse (taskToProto env.dump job.task) with
      | ok task => exact ⟨task, rfl⟩
      | error e =>
        rw [hparse] at hparsed
        cases hparsed
    | _ => trivial
  | world a =>
    cases a with
    | report j k delivered =>
      intro hlost node hnode task htask
      rw [losesNone, hlost, Bool.false_or] at h
      have hall := (Option.all_eq_true _ _).mp h node hnode
      exact of_decide_eq_true ((Option.all_eq_true _ _).mp hall task htask)
    | patrol outcome =>
      intro node hnode hdead task htask
      have hall := List.all_eq_true.mp h node hnode
      rw [decide_eq_false (not_not.mpr hdead), Bool.false_or] at hall
      exact of_decide_eq_true (List.all_eq_true.mp hall task htask)
    | _ => trivial

-- ---------------------------------------------------------------------------
-- A task that is safe, and one that is not
-- ---------------------------------------------------------------------------

/-- Every meta is the one of the same task. -/
def namedEnv : LoopEnv :=
  { numeralEnv with deserialize := fun _ => some { taskId := taskA.text, funcParams := "1" } }

/-- A worker registers, the task is pushed and the loop pulls its entry. -/
def onePulled : List Action :=
  [.world (.boot "worker" "10.0.0.1:50051" true), .world (.register 0),
    .world (.store taskA.text metaOne 86400000), .world (.push (toXAddArgs taskA.text jobX.text)),
    .loop .check, .loop (.pull .answered)]

/-- The worker takes the task and answers, and the entry is acknowledged. -/
def oneAcked : List Action :=
  [.pool (.call 0 { target := some 0, answered := true }), .pool (.settle 0 {})]

/-- The worker takes the task, but its answer is lost, and so is its report. -/
def reportLost : List Action :=
  onePulled ++ [.loop (.entry {}), .pool .start, .pool (.call 0 { target := some 0 }),
    .pool (.settle 0 {}), .world (.report 0 0 false)]

/-- The entry is rescued, the worker takes the task once more and dies with it. -/
def workerPruned : List Action :=
  [.world (.pass 60001), .world (.heartbeat 0 0), .loop .check, .loop (.scan .answered),
    .loop (.claim .answered), .loop (.entry {}), .pool .start,
    .pool (.call 0 { target := some 0 }), .pool (.settle 0 {}), .world (.crash 0),
    .world (.pass 60001), .world (.patrol fun _ => .committed)]

/-- Another one registers, gets the rescued entry, and answers. -/
def secondAcked : List Action :=
  [.world (.boot "second" "10.0.0.2:50051" true), .world (.register 1), .loop (.pull .answered),
    .loop .check, .loop (.scan .answered), .loop (.claim .answered), .loop (.entry {}),
    .pool .start, .pool (.call 0 { target := some 1, answered := true }), .pool (.settle 0 {})]

def prunedAndRescued : List Action := reportLost ++ (workerPruned ++ secondAcked)

/-- A report is lost and a worker is pruned with the task; in the end nothing is pending or
reported, and the second worker has it. -/
theorem tasks_safe_rescued : ∃ t, run (step namedEnv) launched prunedAndRescued = some t ∧
    (t.loop.redis.streamAt kTasks).group? kGroupMain = some ⟨1, []⟩ ∧ t.reported = [] ∧
    t.Held taskA.text ∧ t.TasksSafe := by
  have hend : ((run (step namedEnv) launched prunedAndRescued).any fun t =>
      (t.loop.redis.streamAt kTasks).group? kGroupMain = some ⟨1, []⟩ ∧ t.reported = [] ∧
        (t.loop.redis.streamAt kTasks).entries = [⟨1, toXAddArgs taskA.text jobX.text⟩]) =
        true := by
    decide +kernel
  have htest : Along (step namedEnv) (fun u b => u.losesNone namedEnv b = true) launched
      prunedAndRescued := by
    decide +kernel
  obtain ⟨t, hrun, ht⟩ := (Option.any_eq_true _ _).mp hend
  obtain ⟨hgroup, hreported, hentries⟩ := of_decide_eq_true ht
  have hsafe : t.TasksSafe := by
    refine tasks_safe starts_launched (fun e he => absurd he List.not_mem_nil) hrun ?_
    exact Along.imp (P := fun _ => True) (fun u b v _ htest _ => ⟨trivial, .of_test htest⟩) hrun
      htest trivial
  refine ⟨t, hrun, hgroup, hreported, ?_, hsafe⟩
  have htask := hsafe ⟨1, toXAddArgs taskA.text jobX.text⟩
    (hentries ▸ List.mem_singleton_self _) taskA.text (taskId?_toXAddArgs 1 _ _)
    (hreported ▸ List.not_mem_nil)
  refine htask.resolve_left fun hreaches => ?_
  rcases hreaches _ hgroup with hbeyond | ⟨p, hp, -⟩
  · exact absurd hbeyond (lt_irrefl _)
  · exact absurd hp List.not_mem_nil

/-- The worker dies after its answer, and the patrol finds it silent. -/
def crashAfterAck : List Action :=
  onePulled ++ [.loop (.entry {}), .pool .start] ++
    (oneAcked ++ [.world (.crash 0), .world (.pass 60001), .world (.patrol fun _ => .committed)])

/-- **A crash between the acknowledgement and the report loses the task.** -/
theorem crash_loses_task : ∃ t,
    run (step namedEnv) launched crashAfterAck = some t ∧ ¬ t.TasksSafe := by
  have hend : ((run (step namedEnv) launched crashAfterAck).any fun t =>
      (t.loop.redis.streamAt kTasks).entries = [⟨1, toXAddArgs taskA.text jobX.text⟩] ∧
        (t.loop.redis.streamAt kTasks).group? kGroupMain = some ⟨1, []⟩ ∧ t.reported = [] ∧
        t.loop.workerManager.workers = []) = true := by
    decide +kernel
  obtain ⟨t, ht, hfacts⟩ := (Option.any_eq_true _ _).mp hend
  obtain ⟨hentries, hgroup, hreported, hworkers⟩ := of_decide_eq_true hfacts
  refine ⟨t, ht, fun hsafe => ?_⟩
  have htask := hsafe ⟨1, toXAddArgs taskA.text jobX.text⟩
    (hentries ▸ List.mem_singleton_self _) taskA.text (taskId?_toXAddArgs 1 _ _)
    (hreported ▸ List.not_mem_nil)
  rcases htask with hreaches | ⟨node, -, hreg, -⟩
  · rcases hreaches _ hgroup with hbeyond | ⟨p, hp, -⟩
    · exact absurd hbeyond (lt_irrefl _)
    · exact absurd hp List.not_mem_nil
  · rw [WorkerManager.Registered, hworkers] at hreg
    exact absurd hreg List.not_mem_nil

end Cluster

end DistTaskSystem
