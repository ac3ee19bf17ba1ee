import DistTaskSystem.Guarantees.InflightAccounting

/-!
# DTS — backpressure

`RunLoop` tests `inflight_tasks_` once, at the top of a round. A round that
passes the test may then take on a rescue and a batch before it tests again, so
that is how far the counter can be above `MAX_INFLIGHT`. From below, it never
loses an entry that somebody still has: an exception drops entries from the
hands of a thread and leaves them in the counter, and no path counts an entry
out twice. The decrement is the last statement on each path of `DoDispatch`, so
that a call ends with it.

To the parties of `Cluster` come what that system leaves out: `Stop`, an
exception at any point of either kind of thread, and other programs that write
the stores as they like.

## Results

* `SchedulerRun.step_bounded` — every step keeps `Bounded`.
* `inflight_bounded`          — the counter lies between the calls of `DoDispatch`
  there are and the limit with a rescue and a batch.
-/

namespace DistTaskSystem

open Cluster (LoopAction PoolAction Action)

-- ---------------------------------------------------------------------------
-- Stopping and throwing
-- ---------------------------------------------------------------------------

/-- Where the `catch` around the loop thread's work lets it go on: the one of
`DoRescue`, or the one of `RunLoop`. -/
def LoopWork.caught : LoopWork → LoopWork
  | .scan | .claim _ | .rescue _ => .pull
  | .top | .pull | .batch _ _ _ => .top

/-- A scheduler in a run that `Stop` may end. -/
structure SchedulerRun where
  cluster : Cluster
  stopFlag : Bool := false

namespace SchedulerRun

inductive Event where
  | act (a : Action)
  /-- other programs have written the stores, or a body that is about to throw has -/
  | stores (redis : Redis) (db : Db) (workerManager : WorkerManager)
  | stop
  /-- `if (stop_flag_) break` in the loop over a batch -/
  | leave
  /-- the loop thread throws -/
  | throw
  /-- the i-th call of `DoDispatch` throws; the future nobody waits for keeps the exception -/
  | dispatchThrow (i : Nat)

/-- The loop thread reads `stop_flag_` before the action. -/
def readsStopFlag (work : LoopWork) : Action → Bool
  | .loop .check => true
  | .loop (.entry _) =>
    match work with
    | .batch _ _ _ => true
    | _ => false
  | _ => false

def step (env : LoopEnv) (s : SchedulerRun) : Event → Option SchedulerRun
  | .act a =>
    if s.stopFlag && readsStopFlag s.cluster.work a then none
    else (Cluster.step env s.cluster a).map fun c => { s with cluster := c }
  | .stores redis db workerManager =>
    some { s with cluster := { s.cluster with
      loop := { s.cluster.loop with redis, db, workerManager } } }
  | .stop => some { s with stopFlag := true }
  | .leave =>
    if s.stopFlag then
      match s.cluster.work with
      | .batch _ _ _ => some { s with cluster := { s.cluster with work := .top } }
      | _ => none
    else none
  | .throw => some { s with cluster := { s.cluster with work := s.cluster.work.caught } }
  | .dispatchThrow i =>
    if i < s.cluster.running.length then
      some { s with cluster := { s.cluster with running := s.cluster.running.eraseIdx i } }
    else none

/-- `Start`, over whatever is in the stores. -/
def started (outcome : ReplyOutcome) (redis : Redis) (db : Db) (workerManager : WorkerManager) :
    SchedulerRun where
  cluster := { loop := { redis := startGroup outcome redis, db, workerManager } }

end SchedulerRun

-- ---------------------------------------------------------------------------
-- The invariant
-- ---------------------------------------------------------------------------

/-- What the counter can have reached where the loop thread stands: the test, then
a rescue, then a batch. -/
def LoopWork.limit : LoopWork → Int
  | .scan | .claim _ => maxInflight
  | .rescue _ | .pull => maxInflight + rescueBatchSize
  | .top | .batch _ _ _ => maxInflight + rescueBatchSize + readBatchSize

@[simp] theorem LoopWork.limit_rescueRest (entries : List StreamEntry) :
    (rescueRest entries).limit = maxInflight + rescueBatchSize := by
  cases entries <;> rfl

@[simp] theorem LoopWork.limit_batchRest (c : Candidates) (workerIdx : Nat)
    (entries : List StreamEntry) :
    (batchRest c workerIdx entries).limit = maxInflight + rescueBatchSize + readBatchSize := by
  cases entries <;> rfl

theorem LoopWork.limit_le (work : LoopWork) :
    work.limit ≤ maxInflight + rescueBatchSize + readBatchSize := by
  cases work <;> simp only [limit] <;> omega

/-- A `catch` skips what the rest of the round could have added. -/
theorem LoopWork.limit_caught (work : LoopWork) : work.limit ≤ work.caught.limit := by
  cases work <;> simp only [limit, caught] <;> omega

namespace Cluster

variable {env : LoopEnv} {s t : Cluster}

/-- The counter covers what is outstanding, and stays within what the round may
have added. -/
structure Bounded (s : Cluster) : Prop where
  covers : 0 ≤ s.excess
  within : s.loop.inflightTasks ≤ s.work.limit
  ids : ∀ ids, s.work = .claim ids → ids.length ≤ rescueBatchSize

theorem Bounded.of_le (h : s.Bounded) (hexcess : s.excess ≤ t.excess)
    (hcount : t.loop.inflightTasks ≤ s.loop.inflightTasks) (hlimit : s.work.limit ≤ t.work.limit)
    (hids : ∀ ids, t.work = .claim ids → ids.length ≤ rescueBatchSize) : t.Bounded where
  covers := h.covers.trans hexcess
  within := (hcount.trans h.within).trans hlimit
  ids := hids

/-- Handling an entry does not raise the counter. -/
theorem handled_inflightTasks {faults : EntryFaults} {select : Option WorkerInfo}
    {entry : StreamEntry} {l m : SchedulerLoop} {handled : Handled}
    (h : HandleEffect env faults select entry l handled m) :
    m.inflightTasks ≤ l.inflightTasks := by
  cases h with
  | skip hlookup =>
    show l.inflightTasks - 1 ≤ l.inflightTasks
    omega
  | dispatch task worker hlookup hselect => exact le_refl _
  | noWorker task hlookup hselect =>
    show l.inflightTasks - 1 ≤ l.inflightTasks
    omega

/-- The replies of the three commands, also when they are lost. -/
theorem length_redisCall {α : Type} {outcome : ReplyOutcome} {cmd : RedisM (List α)} {r : Redis}
    {n : Nat} (h : ∀ reply, (cmd r).1 = .ok reply → reply.length ≤ n) :
    ((redisCall outcome cmd r).1.getD []).length ≤ n := by
  cases outcome with
  | lost => exact Nat.zero_le n
  | refused => exact Nat.zero_le n
  | answered =>
    show ((cmd r).1.toOption.getD []).length ≤ n
    cases hreply : (cmd r).1 with
    | error e => exact Nat.zero_le n
    | ok reply => exact h reply hreply

theorem length_idleIds {reply : Option (List XPendingDetail)} {n : Nat}
    (h : (reply.getD []).length ≤ n) : (idleIds reply).length ≤ n := by
  rw [idleIds, List.length_map]
  exact (List.length_filter_le _ _).trans h

/-- **Step lemma, loop thread.** -/
theorem bounded_loop {a : LoopAction} (h : s.Bounded) (hstep : s.loopStep env a = some t) :
    t.Bounded := by
  have hexcess : s.excess ≤ t.excess := excess_le (a := .loop a) hstep
  have hwithin := h.within
  cases loopStep_moves hstep with
  | busy hwork hfull => exact h
  | toScan hwork hroom hdue => exact ⟨h.covers.trans hexcess, hroom, nofun⟩
  | toPull hwork hroom =>
    refine ⟨h.covers.trans hexcess, ?_, nofun⟩
    show s.loop.inflightTasks ≤ maxInflight + (rescueBatchSize : Int)
    omega
  | scanned outcome call hwork hcall =>
    have hreply : (idleIds call.1).length ≤ rescueBatchSize := by
      rw [hcall]
      exact length_idleIds (length_redisCall fun reply => length_xpending)
    rw [hwork] at hwithin
    have hwithin : s.loop.inflightTasks ≤ maxInflight := hwithin
    refine ⟨h.covers.trans hexcess, ?_, ?_⟩
    · dsimp only
      split
      · show s.loop.inflightTasks ≤ maxInflight + (rescueBatchSize : Int)
        omega
      · exact hwithin
    · dsimp only
      split
      · exact nofun
      · intro ids heq
        obtain rfl := LoopWork.claim.inj heq
        exact hreply
  | claimed outcome ids call hwork hcall =>
    have hreply : (call.1.getD []).length ≤ rescueBatchSize := by
      rw [hcall]
      exact (length_redisCall fun reply => length_xclaim).trans (h.ids ids hwork)
    rw [hwork] at hwithin
    have hwithin : s.loop.inflightTasks ≤ maxInflight := hwithin
    refine ⟨h.covers.trans hexcess, ?_, fun ids heq => ?_⟩
    · show s.loop.inflightTasks + ((call.1.getD []).length : Int) ≤ (LoopWork.rescueRest _).limit
      rw [LoopWork.limit_rescueRest]
      omega
    · exact absurd heq (LoopWork.rescueRest_ne_claim _ _)
  | noWorkers outcome hwork hnone =>
    refine h.of_le hexcess (le_refl _) ?_ nofun
    rw [hwork]
    exact LoopWork.limit_caught .pull
  | pulled outcome c call hwork hworkers hcall =>
    have hreply : (call.1.getD []).length ≤ readBatchSize := by
      rw [hcall]
      exact length_redisCall fun reply => length_xreadgroup
    rw [hwork] at hwithin
    have hwithin : s.loop.inflightTasks ≤ maxInflight + (rescueBatchSize : Int) := hwithin
    refine ⟨h.covers.trans hexcess, ?_, fun ids heq => ?_⟩
    · show s.loop.inflightTasks + ((call.1.getD []).length : Int) ≤
        (LoopWork.batchRest _ _ _).limit
      rw [LoopWork.limit_batchRest]
      omega
    · exact absurd heq (LoopWork.batchRest_ne_claim _ _ _ _)
  | handled faults c workerIdx entry rest handled loop hwork heffect =>
    refine h.of_le hexcess (handled_inflightTasks heffect) ?_ fun ids heq => ?_
    · rw [hwork, LoopWork.limit_batchRest]
      exact LoopWork.limit_le _
    · exact absurd heq (LoopWork.batchRest_ne_claim _ _ _ _)
  | thrown faults c workerIdx entry rest e hwork hthrow =>
    refine h.of_le hexcess (le_refl _) ?_ nofun
    rw [hwork]
    exact le_refl _
  | rescued faults entry rest handled loop hwork heffect =>
    refine h.of_le hexcess (handled_inflightTasks heffect) ?_ fun ids heq => ?_
    · rw [hwork, LoopWork.limit_rescueRest]
      exact le_refl _
    · exact absurd heq (LoopWork.rescueRest_ne_claim _ _)
  | rescueThrown faults entry rest e hwork hthrow =>
    refine h.of_le hexcess (le_refl _) ?_ nofun
    rw [hwork]
    exact le_refl _

/-- **Step lemma, dispatch pool.** -/
theorem bounded_pool {a : PoolAction} (h : s.Bounded) (hstep : s.poolStep env a = some t) :
    t.Bounded := by
  have hexcess : s.excess ≤ t.excess := excess_le (a := .pool a) hstep
  cases poolStep_moves hstep with
  | start job rest hpool hfree => exact h.of_le hexcess (le_refl _) (le_refl _) h.ids
  | fail i call job answer hrunning hfail =>
    exact h.of_le hexcess (le_refl _) (le_refl _) h.ids
  | execute i call job j node hrunning hnode halive haddress hstub htarget =>
    exact h.of_le hexcess (le_refl _) (le_refl _) h.ids
  | settle i faults job answer hrunning =>
    refine h.of_le hexcess ?_ (le_refl _) h.ids
    rw [settle_inflightTasks]
    omega

/-- **Step lemma**, for the parties of `Cluster`. -/
theorem step_bounded {a : Action} (h : s.Bounded) (hstep : step env s a = some t) :
    t.Bounded := by
  cases a with
  | loop a => exact bounded_loop h hstep
  | pool a => exact bounded_pool h hstep
  | world a =>
    obtain ⟨hwork, -, -, hcount⟩ := worldStep_threads hstep
    have hexcess : s.excess ≤ t.excess := excess_le (a := .world a) hstep
    refine h.of_le hexcess hcount.le (by rw [hwork]) ?_
    rw [hwork]
    exact h.ids

/-- The counter covers the calls of `DoDispatch`. -/
theorem Bounded.jobs_le (h : s.Bounded) : (s.jobs.length : Int) ≤ s.loop.inflightTasks := by
  have hcovers := h.covers
  rw [excess, outstanding] at hcovers
  rw [jobs, List.length_append, List.length_map]
  omega

end Cluster

-- ---------------------------------------------------------------------------
-- Every run
-- ---------------------------------------------------------------------------

namespace SchedulerRun

open Runs Cluster

variable {env : LoopEnv} {s t : SchedulerRun} {e : Event}

/-- **Step lemma.** -/
theorem step_bounded (h : s.cluster.Bounded) (hstep : step env s e = some t) :
    t.cluster.Bounded := by
  cases e with
  | act a =>
    rw [step, Option.ite_none_left_eq_some, Option.map_eq_some_iff] at hstep
    obtain ⟨-, c, hc, rfl⟩ := hstep
    exact Cluster.step_bounded h hc
  | stores redis db workerManager =>
    obtain rfl := Option.some.inj hstep
    exact ⟨h.covers, h.within, h.ids⟩
  | stop =>
    obtain rfl := Option.some.inj hstep
    exact h
  | leave =>
    rw [step, Option.ite_none_right_eq_some] at hstep
    obtain ⟨-, hstep⟩ := hstep
    split at hstep
    · next c workerIdx entries hwork =>
      obtain rfl := Option.some.inj hstep
      refine h.of_le ?_ (le_refl _) ?_ fun ids heq => by cases heq
      · rw [excess_eq (n := entries.length) (by rw [inHand, hwork]), excess_eq (n := 0) rfl]
        show _ ≤ s.cluster.loop.inflightTasks - 0 - s.cluster.loop.dispatchPool.length -
          (s.cluster.running.length : Int)
        omega
      · rw [hwork]
        exact le_refl _
    · cases hstep
  | throw =>
    obtain rfl := Option.some.inj hstep
    refine h.of_le ?_ (le_refl _) (LoopWork.limit_caught _) fun ids heq => ?_
    · -- nobody has the entries any more
      have hnone : ({ s.cluster with work := s.cluster.work.caught } : Cluster).inHand.length =
          0 := by
        rw [inHand]
        cases s.cluster.work <;> rfl
      rw [excess_eq hnone, excess_eq rfl]
      show _ ≤ s.cluster.loop.inflightTasks - 0 - s.cluster.loop.dispatchPool.length -
        (s.cluster.running.length : Int)
      omega
    · cases hwork : s.cluster.work <;> rw [hwork] at heq <;> cases heq
  | dispatchThrow i =>
    rw [step, Option.ite_none_right_eq_some] at hstep
    obtain ⟨hi, hstep⟩ := hstep
    obtain rfl := Option.some.inj hstep
    refine h.of_le ?_ (le_refl _) (le_refl _) h.ids
    rw [excess_eq (n := s.cluster.inHand.length) rfl, excess_eq rfl]
    show _ ≤ s.cluster.loop.inflightTasks - s.cluster.inHand.length -
      s.cluster.loop.dispatchPool.length - ((s.cluster.running.eraseIdx i).length : Int)
    rw [List.length_eraseIdx_of_lt hi]
    omega

theorem bounded_started (outcome : ReplyOutcome) (redis : Redis) (db : Db)
    (workerManager : WorkerManager) :
    (started outcome redis db workerManager).cluster.Bounded where
  covers := le_refl 0
  within := by
    show (0 : Int) ≤ maxInflight + (rescueBatchSize : Int) + (readBatchSize : Int)
    decide
  ids := nofun

/-- **Bounded backpressure.** Whatever the parties do and whatever is thrown, the
counter lies between the calls of `DoDispatch` that are queued or running and
`MAX_INFLIGHT` with a rescue and a batch on top. -/
theorem inflight_bounded {outcome : ReplyOutcome} {redis : Redis} {db : Db}
    {workerManager : WorkerManager} {events : List Event}
    (hrun : run (step env) (started outcome redis db workerManager) events = some s) :
    (s.cluster.jobs.length : Int) ≤ s.cluster.loop.inflightTasks ∧
      0 ≤ s.cluster.loop.inflightTasks ∧
      s.cluster.loop.inflightTasks ≤ maxInflight + 50 + 20 := by
  have hbounded : s.cluster.Bounded :=
    run_invariant (P := fun u => u.cluster.Bounded) (fun u e v h hstep => step_bounded h hstep)
      hrun (bounded_started ..)
  have hjobs := hbounded.jobs_le
  refine ⟨hjobs, by omega, hbounded.within.trans ?_⟩
  exact LoopWork.limit_le _

/-- A dispatch that throws, and a `Stop` in the middle of the next batch. -/
def throwAndStop : List Event :=
  (oneDispatch.take 8).map .act ++ [.dispatchThrow 0,
    .act (.world (.push (toXAddArgs taskA.text jobX.text))), .act (.loop .check),
    .act (.loop (.pull .answered)), .stop, .leave]

theorem inflight_bounded_throwAndStop :
    ∃ s, run (step numeralEnv) (started .answered .empty .empty .started) throwAndStop = some s ∧
      s.cluster.loop.inflightTasks = 2 ∧ (s.cluster.jobs.length : Int) ≤ 2 ∧
      (0 : Int) ≤ 2 ∧ 2 ≤ maxInflight + 50 + 20 := by
  have hend : ((run (step numeralEnv) (started .answered .empty .empty .started)
      throwAndStop).any fun s => s.cluster.loop.inflightTasks = 2) = true := by
    decide +kernel
  obtain ⟨s, hrun, htwo⟩ := (Option.any_eq_true _ _).mp hend
  have htwo : s.cluster.loop.inflightTasks = 2 := of_decide_eq_true htwo
  exact ⟨s, hrun, htwo, htwo ▸ inflight_bounded hrun⟩

end SchedulerRun

end DistTaskSystem
