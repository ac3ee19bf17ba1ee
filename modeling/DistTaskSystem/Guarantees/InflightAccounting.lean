import DistTaskSystem.Guarantees.PoisonTask
import DistTaskSystem.Library.Runs
import DistTaskSystem.Scheduler.Cluster

/-!
# DTS — the in-flight counter

`inflight_tasks_` is raised by the size of a batch and lowered entry by entry,
in the loop body or at the end of `DoDispatch`. A loop body that throws lowers
it for no entry: neither for its own nor for those after it, which are still
counted when nobody has them any more. Nothing ever lowers the difference
again.

## Results

* `excess_step`  — what an action does to the difference between the counter and
  the entries it stands for.
* `inflight_iff` — when the counter comes back to its value.
* `stuck_run`    — a scheduler that counts too many entries of which it has none
  never pulls again.
* `stuck_reached` — and comes to that by failures of GET alone.
-/

namespace DistTaskSystem

namespace Cluster

open Runs

variable {env : LoopEnv} {s t : Cluster} {a : Action} {actions : List Action} {st : Stream}

-- ---------------------------------------------------------------------------
-- The entries the counter stands for
-- ---------------------------------------------------------------------------

/-- The entries in some thread's hands or in the queue of the pool. -/
def outstanding (s : Cluster) : Nat :=
  s.inHand.length + s.loop.dispatchPool.length + s.running.length

/-- What the counter has too much. -/
def excess (s : Cluster) : Int := s.loop.inflightTasks - s.outstanding

/-- The loop body throws on no entry. -/
def LooksUp (env : LoopEnv) (s : Cluster) : Action → Prop
  | .loop (.entry faults) => ∀ entry ∈ s.inHand.head?, ∃ task,
      lookupTask env faults.get entry s.loop.redis = .ok task
  | _ => True

/-- Handling an entry leaves the balance: it is counted out, or is now in the
queue. -/
theorem handled_balance {faults : EntryFaults} {select : Option WorkerInfo} {entry : StreamEntry}
    {l m : SchedulerLoop} {handled : Handled}
    (h : HandleEffect env faults select entry l handled m) :
    m.inflightTasks - m.dispatchPool.length = l.inflightTasks - l.dispatchPool.length - 1 := by
  cases h with
  | skip hlookup =>
    show l.inflightTasks - 1 - (l.dispatchPool.length : Int) = _
    omega
  | dispatch task worker hlookup hselect =>
    show l.inflightTasks - ((l.dispatchPool ++ [_]).length : Int) = _
    rw [List.length_append, List.length_singleton]
    omega
  | noWorker task hlookup hselect =>
    show l.inflightTasks - 1 - (l.dispatchPool.length : Int) = _
    omega

theorem excess_eq {n : Nat} (hinHand : s.inHand.length = n) :
    s.excess = s.loop.inflightTasks - n - s.loop.dispatchPool.length - s.running.length := by
  rw [excess, outstanding, hinHand]
  omega

/-- An entry that is handled leaves the hands of the loop and the balance. -/
theorem excess_handled {faults : EntryFaults} {select : Option WorkerInfo} {entry : StreamEntry}
    {rest : List StreamEntry} {handled : Handled} (hhead : s.inHand = entry :: rest)
    (heffect : HandleEffect env faults select entry s.loop handled t.loop)
    (hrest : t.inHand = rest) (hrunning : t.running = s.running) : t.excess = s.excess := by
  have hbalance := handled_balance heffect
  rw [excess_eq (congrArg List.length hhead), excess_eq (congrArg List.length hrest), hrunning,
    List.length_cons]
  omega

/-- The entries that a `catch` drops stay in the counter. -/
theorem excess_dropped {entry : StreamEntry} {rest : List StreamEntry}
    (hhead : s.inHand = entry :: rest) (hnone : t.inHand = []) (hloop : t.loop = s.loop)
    (hrunning : t.running = s.running) : s.excess < t.excess := by
  rw [excess_eq (congrArg List.length hhead), excess_eq (congrArg List.length hnone), hloop,
    hrunning, List.length_cons, List.length_nil]
  omega

/-- What is read is counted. -/
theorem excess_take {redis : Redis} {entries : List StreamEntry} {work : LoopWork}
    (hnone : s.inHand = []) (htaken : (s.take redis entries work).inHand = entries) :
    (s.take redis entries work).excess = s.excess := by
  rw [excess_eq (congrArg List.length hnone), excess_eq (congrArg List.length htaken),
    List.length_nil]
  show s.loop.inflightTasks + (entries.length : Int) - entries.length -
    s.loop.dispatchPool.length - s.running.length = _
  omega

theorem looksUp_of_lookup {faults : EntryFaults} {entry : StreamEntry} {rest : List StreamEntry}
    (hhead : s.inHand = entry :: rest)
    (h : ∃ task, lookupTask env faults.get entry s.loop.redis = .ok task) :
    LooksUp env s (.loop (.entry faults)) := by
  intro e he
  rw [hhead] at he
  obtain rfl := Option.some.inj he
  exact h

theorem not_looksUp {faults : EntryFaults} {entry : StreamEntry} {rest : List StreamEntry}
    {e : LoopError} (hhead : s.inHand = entry :: rest)
    (h : lookupTask env faults.get entry s.loop.redis = .error e) :
    ¬ LooksUp env s (.loop (.entry faults)) := by
  intro hok
  obtain ⟨task, htask⟩ := hok entry (by rw [hhead]; rfl)
  exact nomatch h.symm.trans htask

/-- **Step lemma, loop thread.** -/
theorem excess_loop {a : LoopAction} (hstep : s.loopStep env a = some t) :
    (LooksUp env s (.loop a) → t.excess = s.excess) ∧
      (¬ LooksUp env s (.loop a) → s.excess < t.excess) := by
  have hkeep : LooksUp env s (.loop a) → t.excess = s.excess →
      (LooksUp env s (.loop a) → t.excess = s.excess) ∧
        (¬ LooksUp env s (.loop a) → s.excess < t.excess) :=
    fun hok heq => ⟨fun _ => heq, fun hno => absurd hok hno⟩
  have hdrop : ¬ LooksUp env s (.loop a) → s.excess < t.excess →
      (LooksUp env s (.loop a) → t.excess = s.excess) ∧
        (¬ LooksUp env s (.loop a) → s.excess < t.excess) :=
    fun hno hlt => ⟨fun hok => absurd hok hno, fun _ => hlt⟩
  cases loopStep_moves hstep with
  | busy hwork hfull => exact hkeep trivial rfl
  | toScan hwork hroom hdue =>
    refine hkeep trivial ?_
    rw [excess, excess, outstanding, outstanding, inHand, inHand, hwork]
  | toPull hwork hroom =>
    refine hkeep trivial ?_
    rw [excess, excess, outstanding, outstanding, inHand, inHand, hwork]
  | scanned outcome call hwork hcall =>
    refine hkeep trivial ?_
    rw [excess, excess, outstanding, outstanding, inHand, inHand, hwork]
    by_cases hids : idleIds call.1 = []
    · dsimp only
      rw [if_pos hids]
    · dsimp only
      rw [if_neg hids]
  | claimed outcome ids call hwork hcall =>
    exact hkeep trivial (excess_take (by rw [inHand, hwork]) (inHand_rescueRest rfl))
  | noWorkers outcome hwork hnone =>
    refine hkeep trivial ?_
    rw [excess, excess, outstanding, outstanding, inHand, inHand, hwork]
  | pulled outcome c call hwork hworkers hcall =>
    exact hkeep trivial (excess_take (by rw [inHand, hwork]) (inHand_batchRest rfl))
  | handled faults c workerIdx entry rest handled loop hwork heffect =>
    have hhead : s.inHand = entry :: rest := by rw [inHand, hwork]
    exact hkeep (looksUp_of_lookup hhead heffect.lookup)
      (excess_handled hhead heffect (inHand_batchRest rfl) rfl)
  | thrown faults c workerIdx entry rest e hwork hthrow =>
    have hhead : s.inHand = entry :: rest := by rw [inHand, hwork]
    exact hdrop (not_looksUp hhead hthrow) (excess_dropped hhead rfl rfl rfl)
  | rescued faults entry rest handled loop hwork heffect =>
    have hhead : s.inHand = entry :: rest := by rw [inHand, hwork]
    exact hkeep (looksUp_of_lookup hhead heffect.lookup)
      (excess_handled hhead heffect (inHand_rescueRest rfl) rfl)
  | rescueThrown faults entry rest e hwork hthrow =>
    have hhead : s.inHand = entry :: rest := by rw [inHand, hwork]
    exact hdrop (not_looksUp hhead hthrow) (excess_dropped hhead rfl rfl rfl)

/-- **Step lemma, dispatch pool.** Each call of `DoDispatch` counts itself out. -/
theorem excess_pool {a : PoolAction} (hstep : s.poolStep env a = some t) :
    t.excess = s.excess := by
  have hhand : ∀ u : Cluster, u.work = s.work → u.inHand.length = s.inHand.length :=
    fun u hwork => by rw [inHand, inHand, hwork]
  cases poolStep_moves hstep with
  | start job rest hpool hfree =>
    rw [excess_eq (hhand _ rfl), excess_eq rfl, hpool]
    show s.loop.inflightTasks - (s.inHand.length : Int) - rest.length -
      ((s.running ++ [_]).length : Nat) = _
    rw [List.length_append, List.length_singleton, List.length_cons]
    omega
  | fail i call job answer hrunning hfail =>
    rw [excess_eq (hhand _ rfl), excess_eq rfl]
    show s.loop.inflightTasks - (s.inHand.length : Int) - s.loop.dispatchPool.length -
      ((s.running.set i _).length : Nat) = _
    rw [List.length_set]
  | execute i call job j node hrunning hnode halive haddress hstub htarget =>
    rw [excess_eq (hhand _ rfl), excess_eq rfl]
    show s.loop.inflightTasks - (s.inHand.length : Int) - s.loop.dispatchPool.length -
      ((s.running.set i _).length : Nat) = _
    rw [List.length_set]
  | settle i faults job answer hrunning =>
    obtain ⟨hi, -⟩ := List.getElem?_eq_some_iff.mp hrunning
    rw [excess_eq (hhand _ rfl), excess_eq rfl]
    show (DistTaskSystem.settle faults job answer s.loop).inflightTasks - (s.inHand.length : Int) -
      (DistTaskSystem.settle faults job answer s.loop).dispatchPool.length -
      ((s.running.eraseIdx i).length : Nat) = _
    rw [settle_dispatchPool, settle_inflightTasks, List.length_eraseIdx_of_lt hi]
    omega

/-- **Step lemma, everybody else.** -/
theorem excess_world {a : WorldAction} (hstep : s.worldStep a = some t) :
    t.excess = s.excess := by
  obtain ⟨hwork, hrunning, hpool, hcount⟩ := worldStep_threads hstep
  have hhand : t.inHand.length = s.inHand.length := by rw [inHand, inHand, hwork]
  rw [excess_eq hhand, excess_eq rfl, hrunning, hpool, hcount]

/-- **Step lemma.** The balance is kept exactly if no loop body throws. -/
theorem excess_step (hstep : step env s a = some t) :
    (LooksUp env s a → t.excess = s.excess) ∧ (¬ LooksUp env s a → s.excess < t.excess) := by
  cases a with
  | loop a => exact excess_loop hstep
  | pool a => exact ⟨fun _ => excess_pool hstep, fun hno => absurd trivial hno⟩
  | world a => exact ⟨fun _ => excess_world hstep, fun hno => absurd trivial hno⟩

/-- The balance never falls. -/
theorem excess_le (hstep : step env s a = some t) : s.excess ≤ t.excess := by
  by_cases hok : LooksUp env s a
  · rw [(excess_step hstep).1 hok]
  · exact ((excess_step hstep).2 hok).le

/-- **Run lemma.** -/
theorem excess_run (hrun : run (step env) s actions = some t) :
    t.excess = s.excess ↔ Along (step env) (LooksUp env) s actions := by
  have hmono : ∀ u b v, s.excess ≤ u.excess → step env u b = some v → s.excess ≤ v.excess :=
    fun u b v hle hstep => hle.trans (excess_le hstep)
  -- the balance never falls, so it is back at the end only if it never rose
  have hiff : t.excess = s.excess ↔
      s.excess = s.excess ∧ Along (step env) (LooksUp env) s actions := by
    refine along_iff (P := fun u => u.excess = s.excess) hmono ?_ hrun le_rfl
    intro u b v hle hstep
    constructor
    · intro hv
      have hok : LooksUp env u b := by
        by_contra hno
        have hlt := (excess_step hstep).2 hno
        omega
      exact ⟨((excess_step hstep).1 hok).symm.trans hv, hok⟩
    · rintro ⟨hu, hok⟩
      exact ((excess_step hstep).1 hok).trans hu
  rw [hiff]
  exact and_iff_right rfl

-- ---------------------------------------------------------------------------
-- The counter comes back
-- ---------------------------------------------------------------------------

/-- With nothing outstanding the balance is the counter. -/
theorem excess_idle (hidle : s.outstanding = 0) : s.excess = s.loop.inflightTasks := by
  rw [excess, hidle]
  omega

/-- **The in-flight counter.** Between two states in which no entry is
outstanding, the counter comes back to its value, and does not pass the limit on
its own, exactly if no loop body threw. -/
theorem inflight_iff (hrun : run (step env) s actions = some t) (hs : s.outstanding = 0)
    (ht : t.outstanding = 0) :
    (t.loop.inflightTasks = s.loop.inflightTasks ∧
      (s.loop.inflightTasks ≤ maxInflight → t.loop.inflightTasks ≤ maxInflight)) ↔
      Along (step env) (LooksUp env) s actions := by
  rw [← excess_run hrun, excess_idle hs, excess_idle ht]
  constructor
  · exact fun h => h.1
  · intro heq
    exact ⟨heq, fun hle => heq.trans_le hle⟩

/-- The scheduler counts too many entries and has none. -/
def Stuck (s : Cluster) : Prop :=
  s.work = .top ∧ s.outstanding = 0 ∧ maxInflight < s.loop.inflightTasks

/-- **Run lemma.** A scheduler that is stuck stays stuck. -/
theorem stuck_run (hstuck : s.Stuck) (hrun : run (step env) s actions = some t) : t.Stuck := by
  refine run_invariant (P := Stuck) ?_ hrun hstuck
  rintro u a v ⟨hwork, hidle, hfull⟩ hstep
  have hpool : u.loop.dispatchPool = [] ∧ u.running = [] := by
    rw [outstanding] at hidle
    exact ⟨List.length_eq_zero_iff.mp (by omega), List.length_eq_zero_iff.mp (by omega)⟩
  cases a with
  | loop a =>
    cases loopStep_moves hstep with
    | busy hwork' hfull' => exact ⟨hwork, hidle, hfull⟩
    | toScan hwork' hroom hdue => exact absurd hfull (not_lt.mpr hroom)
    | toPull hwork' hroom => exact absurd hfull (not_lt.mpr hroom)
    | scanned outcome call hwork' hcall => exact nomatch hwork.symm.trans hwork'
    | claimed outcome ids call hwork' hcall => exact nomatch hwork.symm.trans hwork'
    | noWorkers outcome hwork' hnone => exact nomatch hwork.symm.trans hwork'
    | pulled outcome c call hwork' hworkers hcall => exact nomatch hwork.symm.trans hwork'
    | handled faults c workerIdx entry rest handled loop hwork' heffect =>
      exact nomatch hwork.symm.trans hwork'
    | thrown faults c workerIdx entry rest e hwork' hthrow =>
      exact nomatch hwork.symm.trans hwork'
    | rescued faults entry rest handled loop hwork' heffect =>
      exact nomatch hwork.symm.trans hwork'
    | rescueThrown faults entry rest e hwork' hthrow => exact nomatch hwork.symm.trans hwork'
  | pool a =>
    -- there is nothing for the pool to do
    cases poolStep_moves hstep with
    | start job rest hjob hfree => exact nomatch hpool.1.symm.trans hjob
    | fail i call job answer hrunning hfail =>
      rw [hpool.2] at hrunning
      exact nomatch hrunning
    | execute i call job j node hrunning hnode halive haddress hstub htarget =>
      rw [hpool.2] at hrunning
      exact nomatch hrunning
    | settle i faults job answer hrunning =>
      rw [hpool.2] at hrunning
      exact nomatch hrunning
  | world a =>
    obtain ⟨hwork', hrunning, hpool', hcount⟩ := worldStep_threads hstep
    refine ⟨hwork'.trans hwork, ?_, hcount ▸ hfull⟩
    rw [outstanding, inHand, hwork'.trans hwork, hrunning, hpool', hpool.1, hpool.2]
    rfl

-- ---------------------------------------------------------------------------
-- A batch of one entry, with and without the GET
-- ---------------------------------------------------------------------------

/-- A worker registers, and the root task of a job is pushed. -/
def oneEntry : List Action :=
  [.world (.boot "worker" "10.0.0.1:50051" true), .world (.register 0),
    .world (.store taskA.text metaOne 60), .world (.push (toXAddArgs taskA.text jobX.text))]

/-- The loop pulls the entry, and the worker takes the task. -/
def oneDispatch : List Action :=
  oneEntry ++ [.loop .check, .loop (.pull .answered), .loop (.entry {}), .pool .start,
    .pool (.call 0 { target := some 0, answered := true }), .pool (.settle 0 {})]

/-- The loop pulls the entry, and the GET of its meta throws. -/
def oneThrow : List Action :=
  oneEntry ++ [.loop .check, .loop (.pull .answered), .loop (.entry { get := .refused })]

/-- A dispatch. -/
theorem inflight_iff_dispatch : ∃ t, run (step numeralEnv) launched oneDispatch = some t ∧
    ((t.loop.inflightTasks = 0 ∧ (0 ≤ maxInflight → t.loop.inflightTasks ≤ maxInflight)) ↔
      Along (step numeralEnv) (LooksUp numeralEnv) launched oneDispatch) := by
  have hend : ((run (step numeralEnv) launched oneDispatch).any fun t =>
      t.outstanding = 0) = true := by
    decide +kernel
  obtain ⟨t, hrun, hidle⟩ := (Option.any_eq_true _ _).mp hend
  exact ⟨t, hrun, inflight_iff hrun rfl (of_decide_eq_true hidle)⟩

/-- **A GET that throws is counted for ever**: nothing is outstanding, and the
counter is not back. -/
theorem throw_leaks : ∃ t, run (step numeralEnv) launched oneThrow = some t ∧
    t.outstanding = 0 ∧ launched.outstanding = 0 ∧
    ¬ t.loop.inflightTasks = launched.loop.inflightTasks := by
  have hend : ((run (step numeralEnv) launched oneThrow).any fun t =>
      t.outstanding = 0 ∧ t.loop.inflightTasks = 1) = true := by
    decide +kernel
  obtain ⟨t, hrun, hidle⟩ := (Option.any_eq_true _ _).mp hend
  obtain ⟨hout, hone⟩ := of_decide_eq_true hidle
  refine ⟨t, hrun, hout, rfl, ?_⟩
  rw [hone]
  decide

-- ---------------------------------------------------------------------------
-- How a scheduler gets stuck
-- ---------------------------------------------------------------------------

/-- A scheduler between two rounds that counts `n` entries of which it has none.
The group has delivered the whole stream, so the next round takes exactly what is
added until then. -/
structure Leaked (env : LoopEnv) (n : Nat) (s : Cluster) (st : Stream) : Prop where
  work : s.work = .top
  idle : s.outstanding = 0
  counter : s.loop.inflightTasks = n
  noRescue : ¬ s.lastRescueTime + rescuePeriodMs < s.loop.redis.now
  workers : 0 < (s.loop.availableWorkers env).length
  holds : s.loop.redis.HoldsStream kTasks st
  ordered : st.Ordered
  group : ∃ g, st.group? kGroupMain = some g ∧ g.lastDelivered = st.lastId

/-- A task becomes ready, and the GET of its meta throws. -/
def leakRound : List Action :=
  [.world (.push (toXAddArgs taskA.text jobX.text)), .loop .check, .loop (.pull .answered),
    .loop (.entry { get := .refused })]

/-- **One more leak.** -/
theorem Leaked.round {n : Nat} (h : Leaked env n s st) (hroom : (n : Int) ≤ maxInflight) :
    ∃ t st', run (step env) s leakRound = some t ∧ Leaked env (n + 1) t st' := by
  obtain ⟨g, hg, hend⟩ := h.group
  let fields := toXAddArgs taskA.text jobX.text
  let r := (xadd kTasks fields s.loop.redis).2
  let added := st.add s.loop.redis.now fields
  let entry : StreamEntry := ⟨st.nextId s.loop.redis.now, fields⟩
  have hr : r.HoldsStream kTasks added := (xadd_stream h.holds fields).2
  have hnow : r.now = s.loop.redis.now := onKey_now ..
  have hworkers : 0 < ((s.setRedis r).loop.availableWorkers env).length := by
    show 0 < (s.loop.workerManager.getAvailableWorkersSorted env.order r.now).length
    rw [hnow]
    exact h.workers
  -- the read answers with the new entry
  obtain ⟨hreply, hread⟩ := xreadgroup_stream hr env.consumerName readBatchSize
    (show added.group? kGroupMain = some g from hg)
  rw [ConsumerGroup.undelivered_add h.ordered hend,
    show List.take readBatchSize [entry] = [entry] from rfl] at hreply hread
  let r' := (xreadgroup kGroupMain env.consumerName kTasks readBatchSize r).2
  have hcall : redisCall .answered
      (xreadgroup kGroupMain env.consumerName kTasks readBatchSize) r = (some [entry], r') := by
    show (Except.toOption _, _) = _
    rw [hreply]
    rfl
  obtain ⟨ptr, hptr, -⟩ := Option.map_eq_some_iff.mp
    (taskId?_toXAddArgs entry.id taskA.text jobX.text)
  have hthrow : ∀ c l, runLoopEntry env { get := .refused } c 0 entry l = .error .redis := by
    intro c l
    rw [runLoopEntry, handleEntry, lookupTask, show parseStreamEntry entry = some ptr from hptr]
    rfl
  let t : Cluster := { s with
    loop := { s.loop with redis := r', inflightTasks := s.loop.inflightTasks + 1 }
    work := .top }
  have hpush : step env s (.world (.push fields)) = some (s.setRedis r) := rfl
  have hcheck : step env (s.setRedis r) (.loop .check) =
      some { s.setRedis r with work := .pull } := by
    have hfull : ¬ maxInflight < (s.setRedis r).loop.inflightTasks := by
      show ¬ maxInflight < s.loop.inflightTasks
      rw [h.counter]
      omega
    have hdue : ¬ (s.setRedis r).lastRescueTime + rescuePeriodMs <
        (s.setRedis r).loop.redis.now := by
      show ¬ s.lastRescueTime + rescuePeriodMs < r.now
      rw [hnow]
      exact h.noRescue
    have hwork : (s.setRedis r).work = .top := h.work
    simp only [step, loopStep, hwork, if_neg hfull, if_neg hdue]
  have hpull : step env { s.setRedis r with work := .pull } (.loop (.pull .answered)) =
      some ((s.setRedis r).take r' [entry] (.batch ⟨_, hworkers⟩ 0 [entry])) := by
    show (if h : 0 < ((s.setRedis r).loop.availableWorkers env).length then
      let call := redisCall .answered
        (xreadgroup kGroupMain env.consumerName kTasks readBatchSize) r
      some ((s.setRedis r).take call.2 (call.1.getD []) (.batchRest ⟨_, h⟩ 0 (call.1.getD [])))
      else _) = _
    rw [dif_pos hworkers, hcall]
    rfl
  have hentry : step env ((s.setRedis r).take r' [entry] (.batch ⟨_, hworkers⟩ 0 [entry]))
      (.loop (.entry { get := .refused })) = some t := by
    simp only [step, loopStep, take, hthrow]
    rfl
  have hnow' : r'.now = s.loop.redis.now := (onKey_now ..).trans hnow
  refine ⟨t, _, ?_, rfl, ?_, ?_, ?_, ?_, hread, (h.ordered.add _ _).setGroup _ _, ?_⟩
  · exact run_cons.mpr ⟨_, hpush, run_cons.mpr ⟨_, hcheck, run_cons.mpr ⟨_, hpull,
      run_cons.mpr ⟨_, hentry, rfl⟩⟩⟩⟩
  · have hidle := h.idle
    rw [outstanding] at hidle
    show 0 + s.loop.dispatchPool.length + s.running.length = 0
    omega
  · show s.loop.inflightTasks + 1 = ((n + 1 : Nat) : Int)
    rw [h.counter]
    omega
  · show ¬ s.lastRescueTime + rescuePeriodMs < r'.now
    rw [hnow']
    exact h.noRescue
  · show 0 < (s.loop.workerManager.getAvailableWorkersSorted env.order r'.now).length
    rw [hnow']
    exact h.workers
  · refine ⟨_, added.group?_setGroup _, ?_⟩
    rw [ConsumerGroup.lastDelivered_deliver, Stream.lastId_setGroup, Stream.lastId_add]

/-- A worker registers with a scheduler that has just started. -/
theorem leaked_zero : ∃ s st,
    run (step numeralEnv) launched [.world (.boot "worker" "10.0.0.1:50051" true),
      .world (.register 0)] = some s ∧ Leaked numeralEnv 0 s st := by
  have hempty : Redis.empty.HoldsStream kTasks .empty := .inl ⟨rfl, rfl⟩
  have hworkers : 0 < (oneWorker.getAvailableWorkersSorted .stable 0).length := by
    decide +kernel
  refine ⟨_, Stream.empty.setGroup kGroupMain ⟨0, []⟩, rfl, rfl, rfl, rfl, by decide, hworkers,
    ?_, Stream.ordered_empty.setGroup _ _, ⟨_, Stream.group?_setGroup _ _, rfl⟩⟩
  show (startGroup .answered .empty).HoldsStream kTasks _
  rw [startGroup_eq, if_neg (by decide)]
  exact (xgroupCreate_stream hempty .last rfl).2

/-- Any number of leaks up to one past the limit can be reached. -/
theorem leaked_reached {n : Nat} (hn : (n : Int) ≤ maxInflight + 1) :
    ∃ actions s st, run (step numeralEnv) launched actions = some s ∧
      Leaked numeralEnv n s st := by
  induction n with
  | zero =>
    obtain ⟨s, st, hrun, hs⟩ := leaked_zero
    exact ⟨_, s, st, hrun, hs⟩
  | succ n ih =>
    obtain ⟨actions, s, st, hrun, hs⟩ := ih (by omega)
    obtain ⟨t, st', hround, ht⟩ := hs.round (by omega)
    exact ⟨_, t, st', run_append.mpr ⟨s, hrun, hround⟩, ht⟩

/-- **Failures of GET stop the scheduler.** Enough of them lead to a state from
which it never pulls again. -/
theorem stuck_reached : ∃ actions s, run (step numeralEnv) launched actions = some s ∧
    s.Stuck ∧ ∀ more t, run (step numeralEnv) s more = some t → t.Stuck := by
  obtain ⟨actions, s, st, hrun, hs⟩ := leaked_reached (n := maxInflight.toNat + 1) (by decide)
  have hstuck : s.Stuck := by
    refine ⟨hs.work, hs.idle, ?_⟩
    rw [hs.counter]
    decide
  exact ⟨actions, s, hrun, hstuck, fun more t hmore => stuck_run hstuck hmore⟩

end Cluster

end DistTaskSystem
