import DistTaskSystem.Scheduler.SchedulerLoop

/-!
# DTS — a scheduler and its workers

The loop thread of `SchedulerLoop`, the threads of its dispatch pool, the
patrol, the worker processes and the other writers of the task stream, as one
transition system. A step is what one party does between two points at which
another party can act: one Redis command or one transaction, one loop body, one
half of `DoDispatch` on either side of the call.

`Stop` is not modelled. What a report does to the stores is in
`SchedulerService`; here it ends the worker's hold on the task, and the entries
it makes ready are pushed like any others. A worker that has no function for a
task reports it at once, which is a report like any other, too.

## Results

* `loopStep_moves`, `poolStep_moves`, `worldStep_moves` — a step is one of the
  moves of the code.
* `step_jobs` — where the calls of `DoDispatch` come from.
-/

namespace DistTaskSystem

-- ---------------------------------------------------------------------------
-- The parties
-- ---------------------------------------------------------------------------

/-- Where the loop thread stands. -/
inductive LoopWork where
  /-- before it reads `inflight_tasks_` -/
  | top
  /-- in `DoRescue`, before XPENDING -/
  | scan
  /-- in `DoRescue`, before XCLAIM -/
  | claim (ids : List Nat)
  /-- in the loop over the claimed entries -/
  | rescue (entries : List StreamEntry)
  /-- before it asks for the available workers -/
  | pull
  /-- in the loop over a batch -/
  | batch (c : Candidates) (workerIdx : Nat) (entries : List StreamEntry)

/-- The loop over the claimed entries is left at its end. -/
def LoopWork.rescueRest : List StreamEntry → LoopWork
  | [] => .pull
  | entries => .rescue entries

def LoopWork.batchRest (c : Candidates) (workerIdx : Nat) : List StreamEntry → LoopWork
  | [] => .top
  | entries => .batch c workerIdx entries

theorem LoopWork.rescueRest_ne_claim (entries : List StreamEntry) (ids : List Nat) :
    rescueRest entries ≠ .claim ids := by
  cases entries <;> exact nofun

theorem LoopWork.batchRest_ne_claim (c : Candidates) (workerIdx : Nat)
    (entries : List StreamEntry) (ids : List Nat) :
    batchRest c workerIdx entries ≠ .claim ids := by
  cases entries <;> exact nofun

/-- A call of `DoDispatch` on a pool thread, with the answer once it is there. -/
structure Running where
  job : Dispatch
  answer : Option Answer := none

/-- A worker process with the tasks it has taken and not reported yet: queued or
executing. After a crash they are the tasks that went with it. -/
structure WorkerNode where
  workerId : String
  address : String
  hasSubmitter : Bool := true
  alive : Bool := true
  held : List Task := []

structure Cluster where
  loop : SchedulerLoop
  work : LoopWork := .top
  lastRescueTime : Nat := 0
  running : List Running := []
  nodes : List WorkerNode := []
  /-- the tasks that submitters were called with, with the entry of the dispatch,
  and the tasks whose reports the scheduler processed: kept for the statements, no
  function reads them -/
  handed : List (Nat × Task) := []
  reported : List String := []

def poolSize : Nat := 20

def rescuePeriodMs : Nat := 10000

namespace Cluster

-- ---------------------------------------------------------------------------
-- The loop thread
-- ---------------------------------------------------------------------------

inductive LoopAction where
  /-- the backpressure test and the rescue timer -/
  | check
  | scan (outcome : ReplyOutcome)
  | claim (outcome : ReplyOutcome)
  | pull (outcome : ReplyOutcome)
  /-- the loop body on the next entry -/
  | entry (faults : EntryFaults)

/-- The loop is given more entries to handle. -/
def take (s : Cluster) (redis : Redis) (entries : List StreamEntry) (work : LoopWork) : Cluster :=
  { s with
    loop := { s.loop with
      redis := redis
      inflightTasks := s.loop.inflightTasks + entries.length }
    work := work }

/-- The ids that `DoRescue` finds idle for long enough. -/
def idleIds (reply : Option (List XPendingDetail)) : List Nat :=
  ((reply.getD []).filter fun item => minIdleMs ≤ item.idleTimeMs).map XPendingDetail.id

def loopStep (env : LoopEnv) (s : Cluster) (a : LoopAction) : Option Cluster :=
  match a, s.work with
  | .check, .top =>
    if maxInflight < s.loop.inflightTasks then some s
    else if s.lastRescueTime + rescuePeriodMs < s.loop.redis.now then
      some { s with work := .scan, lastRescueTime := s.loop.redis.now }
    else some { s with work := .pull }
  | .scan outcome, .scan =>
    let call := redisCall outcome (xpending kTasks kGroupMain rescueBatchSize) s.loop.redis
    some { s with
      loop := { s.loop with redis := call.2 }
      work := if idleIds call.1 = [] then .pull else .claim (idleIds call.1) }
  | .claim outcome, .claim ids =>
    let call := redisCall outcome (xclaim kTasks kGroupMain env.consumerName minIdleMs ids)
      s.loop.redis
    some (s.take call.2 (call.1.getD []) (.rescueRest (call.1.getD [])))
  | .pull outcome, .pull =>
    if h : 0 < (s.loop.availableWorkers env).length then
      let call := redisCall outcome (xreadgroup kGroupMain env.consumerName kTasks readBatchSize)
        s.loop.redis
      some (s.take call.2 (call.1.getD []) (.batchRest ⟨_, h⟩ 0 (call.1.getD [])))
    else some { s with work := .top }
  | .entry faults, .batch c workerIdx (entry :: rest) =>
    match runLoopEntry env faults c workerIdx entry s.loop with
    -- the `catch` of `RunLoop`
    | .error _ => some { s with work := .top }
    | .ok (handled, loop) =>
      some { s with loop := loop, work := .batchRest c (handled.next workerIdx) rest }
  | .entry faults, .rescue (entry :: rest) =>
    match processStreamEntry env faults entry s.loop with
    -- the `catch` of `DoRescue`
    | .error _ => some { s with work := .pull }
    | .ok (_, loop) => some { s with loop := loop, work := .rescueRest rest }
  | _, _ => none

-- ---------------------------------------------------------------------------
-- The dispatch pool
-- ---------------------------------------------------------------------------

/-- What happens to a call of `RunTask`. -/
structure CallEnv where
  /-- `GetWorkerStub` returns a stub -/
  stub : Bool := true
  /-- the process that executes the call, if one does -/
  target : Option Nat := none
  /-- the response arrives before the deadline -/
  answered : Bool := false
  faults : RunTaskFaults := {}

inductive PoolAction where
  /-- a free thread takes the first job of the queue -/
  | start
  /-- the call of the i-th running job ends -/
  | call (i : Nat) (env : CallEnv)
  /-- the i-th running job returns -/
  | settle (i : Nat) (faults : SettleFaults)

/-- The worker's side of a call. -/
def execute (env : LoopEnv) (s : Cluster) (job : Dispatch) (j : Nat) (node : WorkerNode)
    (faults : RunTaskFaults) : Cluster :=
  let handed := (runTask env.parse node.hasSubmitter faults (job.request env)).2.toList
  { s with
    nodes := s.nodes.set j { node with
      held := node.held ++ handed.flatMap (onTaskReceived faults) }
    handed := s.handed ++ handed.map fun task => (job.streamId, task) }

def setAnswer (s : Cluster) (i : Nat) (job : Dispatch) (answer : Answer) : Cluster :=
  { s with running := s.running.set i ⟨job, some answer⟩ }

def poolStep (env : LoopEnv) (s : Cluster) : PoolAction → Option Cluster
  | .start =>
    match s.loop.dispatchPool with
    | [] => none
    | job :: rest =>
      if s.running.length < poolSize then
        some { s with
          loop := { s.loop with dispatchPool := rest }
          running := s.running ++ [⟨job, none⟩] }
      else none
  | .call i call =>
    match s.running[i]? with
    | some ⟨job, none⟩ =>
      if call.stub then
        match call.target with
        | none => if call.answered then none else some (s.setAnswer i job .failed)
        | some j =>
          match s.nodes[j]? with
          | none => none
          | some node =>
            if node.alive ∧ node.address = job.worker.address then
              let response := (runTask env.parse node.hasSubmitter call.faults (job.request env)).1
              some ((s.execute env job j node call.faults).setAnswer i job
                (if call.answered then .response response else .failed))
            else none
      else some (s.setAnswer i job .noStub)
    | _ => none
  | .settle i faults =>
    match s.running[i]? with
    | some ⟨job, some answer⟩ =>
      some { s with
        loop := DistTaskSystem.settle faults job answer s.loop
        running := s.running.eraseIdx i }
    | _ => none

-- ---------------------------------------------------------------------------
-- Everything else
-- ---------------------------------------------------------------------------

inductive WorldAction where
  /-- an entry is added to the task stream, by the api-server or for a task that
  has become ready -/
  | push (fields : List (String × String))
  | store (taskId : String) (payload : List UInt8) (ttl : Nat)
  /-- time passes -/
  | pass (ms : Nat)
  /-- a worker process starts, under an id with a fresh UUID in it -/
  | boot (workerId address : String) (hasSubmitter : Bool)
  | register (j : Nat)
  | heartbeat (j : Nat) (runningTaskCount : Int)
  | crash (j : Nat)
  /-- a worker is done with its k-th task and calls `UpdateTaskStatus` once -/
  | report (j k : Nat) (delivered : Bool)
  /-- a round of `RunPatrolLoop` -/
  | patrol (outcome : String → TxOutcome)

def setRedis (s : Cluster) (redis : Redis) : Cluster :=
  { s with loop := { s.loop with redis := redis } }

def setManager (s : Cluster) (m : WorkerManager) : Cluster :=
  { s with loop := { s.loop with workerManager := m } }

/-- `PruneDeadWorkers`, and `RequeueOrphanedTasks` for each of them. -/
def patrolRound (s : Cluster) (outcome : String → TxOutcome) : Cluster :=
  let (deadWorkers, m) := s.loop.workerManager.pruneDeadWorkers s.loop.redis.now
  { s with loop := { s.loop with
    workerManager := m
    db := deadWorkers.foldl (fun db id => (requeueOrphanedTasks (outcome id) id db).2) s.loop.db } }

def worldStep (s : Cluster) : WorldAction → Option Cluster
  | .push fields => some (s.setRedis (xadd kTasks fields s.loop.redis).2)
  | .store taskId payload ttl =>
    some (s.setRedis (setEx (taskMeta taskId) payload ttl s.loop.redis).2)
  | .pass ms => some (s.setRedis (s.loop.redis.advance ms))
  | .boot workerId address hasSubmitter =>
    if workerId ∈ s.nodes.map WorkerNode.workerId then none
    else some { s with nodes := s.nodes ++ [{ workerId, address, hasSubmitter }] }
  | .register j =>
    match s.nodes[j]? with
    | none => none
    | some node =>
      if node.alive then
        some (s.setManager (s.loop.workerManager.handleRegister node.workerId node.address
          s.loop.redis.now))
      else none
  | .heartbeat j runningTaskCount =>
    match s.nodes[j]? with
    | none => none
    | some node =>
      if node.alive then
        some (s.setManager (s.loop.workerManager.handleHeartbeat node.workerId runningTaskCount
          s.loop.redis.now).2)
      else none
  | .crash j =>
    match s.nodes[j]? with
    | none => none
    | some node => some { s with nodes := s.nodes.set j { node with alive := false } }
  | .report j k delivered =>
    match s.nodes[j]? with
    | none => none
    | some node =>
      match node.held[k]? with
      | none => none
      | some task =>
        if node.alive then
          some { s with
            nodes := s.nodes.set j { node with held := node.held.eraseIdx k }
            reported := if delivered then s.reported ++ [task.taskId] else s.reported }
        else none
  | .patrol outcome => some (s.patrolRound outcome)

-- ---------------------------------------------------------------------------
-- The system
-- ---------------------------------------------------------------------------

inductive Action where
  | loop (a : LoopAction)
  | pool (a : PoolAction)
  | world (a : WorldAction)

def step (env : LoopEnv) (s : Cluster) : Action → Option Cluster
  | .loop a => s.loopStep env a
  | .pool a => s.poolStep env a
  | .world a => s.worldStep a

/-- A scheduler that has just started, on a server without keys. -/
def launched : Cluster where
  loop := {
    redis := startGroup .answered .empty
    db := .empty
    workerManager := .started }

-- ---------------------------------------------------------------------------
-- What an action does
-- ---------------------------------------------------------------------------

variable {env : LoopEnv} {s t : Cluster}

/-- The moves of the loop thread. -/
inductive LoopMoves (env : LoopEnv) (s : Cluster) : LoopAction → Cluster → Prop
  | busy (hwork : s.work = .top) (hfull : maxInflight < s.loop.inflightTasks) :
      LoopMoves env s .check s
  | toScan (hwork : s.work = .top) (hroom : s.loop.inflightTasks ≤ maxInflight)
      (hdue : s.lastRescueTime + rescuePeriodMs < s.loop.redis.now) :
      LoopMoves env s .check { s with work := .scan, lastRescueTime := s.loop.redis.now }
  | toPull (hwork : s.work = .top) (hroom : s.loop.inflightTasks ≤ maxInflight) :
      LoopMoves env s .check { s with work := .pull }
  | scanned (outcome : ReplyOutcome) (call : Option (List XPendingDetail) × Redis)
      (hwork : s.work = .scan)
      (hcall : call = redisCall outcome (xpending kTasks kGroupMain rescueBatchSize) s.loop.redis) :
      LoopMoves env s (.scan outcome) { s with
        loop := { s.loop with redis := call.2 }
        work := if idleIds call.1 = [] then .pull else .claim (idleIds call.1) }
  | claimed (outcome : ReplyOutcome) (ids : List Nat) (call : Option (List StreamEntry) × Redis)
      (hwork : s.work = .claim ids)
      (hcall : call = redisCall outcome
        (xclaim kTasks kGroupMain env.consumerName minIdleMs ids) s.loop.redis) :
      LoopMoves env s (.claim outcome)
        (s.take call.2 (call.1.getD []) (.rescueRest (call.1.getD [])))
  | noWorkers (outcome : ReplyOutcome) (hwork : s.work = .pull)
      (hnone : s.loop.availableWorkers env = []) :
      LoopMoves env s (.pull outcome) { s with work := .top }
  | pulled (outcome : ReplyOutcome) (c : Candidates) (call : Option (List StreamEntry) × Redis)
      (hwork : s.work = .pull) (hworkers : c.workers = s.loop.availableWorkers env)
      (hcall : call = redisCall outcome
        (xreadgroup kGroupMain env.consumerName kTasks readBatchSize) s.loop.redis) :
      LoopMoves env s (.pull outcome)
        (s.take call.2 (call.1.getD []) (.batchRest c 0 (call.1.getD [])))
  | handled (faults : EntryFaults) (c : Candidates) (workerIdx : Nat) (entry : StreamEntry)
      (rest : List StreamEntry) (handled : Handled) (loop : SchedulerLoop)
      (hwork : s.work = .batch c workerIdx (entry :: rest))
      (heffect : HandleEffect env faults (some (c.pick workerIdx)) entry s.loop handled loop) :
      LoopMoves env s (.entry faults)
        { s with loop := loop, work := .batchRest c (handled.next workerIdx) rest }
  | thrown (faults : EntryFaults) (c : Candidates) (workerIdx : Nat) (entry : StreamEntry)
      (rest : List StreamEntry) (e : LoopError)
      (hwork : s.work = .batch c workerIdx (entry :: rest))
      (hthrow : lookupTask env faults.get entry s.loop.redis = .error e) :
      LoopMoves env s (.entry faults) { s with work := .top }
  | rescued (faults : EntryFaults) (entry : StreamEntry) (rest : List StreamEntry)
      (handled : Handled) (loop : SchedulerLoop) (hwork : s.work = .rescue (entry :: rest))
      (heffect : HandleEffect env faults (s.loop.availableWorkers env).head? entry s.loop
        handled loop) :
      LoopMoves env s (.entry faults) { s with loop := loop, work := .rescueRest rest }
  | rescueThrown (faults : EntryFaults) (entry : StreamEntry) (rest : List StreamEntry)
      (e : LoopError) (hwork : s.work = .rescue (entry :: rest))
      (hthrow : lookupTask env faults.get entry s.loop.redis = .error e) :
      LoopMoves env s (.entry faults) { s with work := .pull }

/-- **Inversion.** A step of the loop thread is one of its moves. -/
theorem loopStep_moves {a : LoopAction} (h : s.loopStep env a = some t) : LoopMoves env s a t := by
  unfold loopStep at h
  split at h
  · next hwork =>
    split at h
    · next hfull =>
      obtain rfl := Option.some.inj h
      exact .busy hwork hfull
    · next hroom =>
      split at h
      · next hdue =>
        obtain rfl := Option.some.inj h
        exact .toScan hwork (not_lt.mp hroom) hdue
      · obtain rfl := Option.some.inj h
        exact .toPull hwork (not_lt.mp hroom)
  · next outcome hwork =>
    obtain rfl := Option.some.inj h
    exact .scanned outcome _ hwork rfl
  · next outcome ids hwork =>
    obtain rfl := Option.some.inj h
    exact .claimed outcome ids _ hwork rfl
  · next outcome hwork =>
    split at h
    · next hworkers =>
      obtain rfl := Option.some.inj h
      exact .pulled outcome ⟨_, hworkers⟩ _ hwork rfl rfl
    · next hnone =>
      obtain rfl := Option.some.inj h
      exact .noWorkers outcome hwork (List.length_eq_zero_iff.mp (Nat.eq_zero_of_not_pos hnone))
  · next faults c workerIdx entry rest hwork =>
    cases hbody : runLoopEntry env faults c workerIdx entry s.loop with
    | error e =>
      rw [hbody] at h
      obtain rfl := Option.some.inj h
      exact .thrown faults c workerIdx entry rest e hwork (handleEntry_error hbody)
    | ok result =>
      rw [hbody] at h
      obtain rfl := Option.some.inj h
      exact .handled faults c workerIdx entry rest _ _ hwork (handleEntry_effect hbody)
  · next faults entry rest hwork =>
    cases hbody : processStreamEntry env faults entry s.loop with
    | error e =>
      rw [hbody] at h
      obtain rfl := Option.some.inj h
      exact .rescueThrown faults entry rest e hwork (handleEntry_error hbody)
    | ok result =>
      rw [hbody] at h
      obtain rfl := Option.some.inj h
      exact .rescued faults entry rest _ _ hwork (handleEntry_effect hbody)
  · exact nomatch h

/-- The moves of the pool. -/
inductive PoolMoves (env : LoopEnv) (s : Cluster) : PoolAction → Cluster → Prop
  | start (job : Dispatch) (rest : List Dispatch) (hpool : s.loop.dispatchPool = job :: rest)
      (hfree : s.running.length < poolSize) :
      PoolMoves env s .start { s with
        loop := { s.loop with dispatchPool := rest }
        running := s.running ++ [⟨job, none⟩] }
  /-- no worker executes the call -/
  | fail (i : Nat) (call : CallEnv) (job : Dispatch) (answer : Answer)
      (hrunning : s.running[i]? = some ⟨job, none⟩) (hfail : answer.success = false) :
      PoolMoves env s (.call i call) (s.setAnswer i job answer)
  | execute (i : Nat) (call : CallEnv) (job : Dispatch) (j : Nat) (node : WorkerNode)
      (hrunning : s.running[i]? = some ⟨job, none⟩) (hnode : s.nodes[j]? = some node)
      (halive : node.alive = true) (haddress : node.address = job.worker.address)
      (hstub : call.stub = true) (htarget : call.target = some j) :
      PoolMoves env s (.call i call)
        ((s.execute env job j node call.faults).setAnswer i job
          (if call.answered then
            .response (runTask env.parse node.hasSubmitter call.faults (job.request env)).1
          else .failed))
  | settle (i : Nat) (faults : SettleFaults) (job : Dispatch) (answer : Answer)
      (hrunning : s.running[i]? = some ⟨job, some answer⟩) :
      PoolMoves env s (.settle i faults) { s with
        loop := DistTaskSystem.settle faults job answer s.loop
        running := s.running.eraseIdx i }

/-- **Inversion.** A step of the pool is one of its moves. -/
theorem poolStep_moves {a : PoolAction} (h : s.poolStep env a = some t) : PoolMoves env s a t := by
  cases a with
  | start =>
    rw [poolStep] at h
    split at h
    · exact nomatch h
    · next job rest hpool =>
      rw [Option.ite_none_right_eq_some] at h
      obtain ⟨hfree, h⟩ := h
      obtain rfl := Option.some.inj h
      exact .start job rest hpool hfree
  | call i call =>
    rw [poolStep] at h
    split at h
    · next job hrunning =>
      split at h
      · next hstub =>
        split at h
        · next htarget =>
          rw [Option.ite_none_left_eq_some] at h
          obtain ⟨-, h⟩ := h
          obtain rfl := Option.some.inj h
          exact .fail i call job .failed hrunning rfl
        · next j htarget =>
          split at h
          · exact nomatch h
          · next node hnode =>
            rw [Option.ite_none_right_eq_some] at h
            obtain ⟨⟨halive, haddress⟩, h⟩ := h
            obtain rfl := Option.some.inj h
            exact .execute i call job j node hrunning hnode halive haddress hstub htarget
      · obtain rfl := Option.some.inj h
        exact .fail i call job .noStub hrunning rfl
    · exact nomatch h
  | settle i faults =>
    rw [poolStep] at h
    split at h
    · next job answer hrunning =>
      obtain rfl := Option.some.inj h
      exact .settle i faults job answer hrunning
    · exact nomatch h

/-- The moves of everybody else. -/
inductive WorldMoves (s : Cluster) : WorldAction → Cluster → Prop
  | push (fields : List (String × String)) :
      WorldMoves s (.push fields) (s.setRedis (xadd kTasks fields s.loop.redis).2)
  | store (taskId : String) (payload : List UInt8) (ttl : Nat) :
      WorldMoves s (.store taskId payload ttl)
        (s.setRedis (setEx (taskMeta taskId) payload ttl s.loop.redis).2)
  | pass (ms : Nat) : WorldMoves s (.pass ms) (s.setRedis (s.loop.redis.advance ms))
  | boot (workerId address : String) (hasSubmitter : Bool)
      (hfresh : workerId ∉ s.nodes.map WorkerNode.workerId) :
      WorldMoves s (.boot workerId address hasSubmitter)
        { s with nodes := s.nodes ++ [{ workerId, address, hasSubmitter }] }
  | register (j : Nat) (node : WorkerNode) (hnode : s.nodes[j]? = some node)
      (halive : node.alive = true) :
      WorldMoves s (.register j) (s.setManager (s.loop.workerManager.handleRegister node.workerId
        node.address s.loop.redis.now))
  | heartbeat (j : Nat) (runningTaskCount : Int) (node : WorkerNode)
      (hnode : s.nodes[j]? = some node) (halive : node.alive = true) :
      WorldMoves s (.heartbeat j runningTaskCount) (s.setManager
        (s.loop.workerManager.handleHeartbeat node.workerId runningTaskCount s.loop.redis.now).2)
  | crash (j : Nat) (node : WorkerNode) (hnode : s.nodes[j]? = some node) :
      WorldMoves s (.crash j) { s with nodes := s.nodes.set j { node with alive := false } }
  | report (j k : Nat) (delivered : Bool) (node : WorkerNode) (task : Task)
      (hnode : s.nodes[j]? = some node) (htask : node.held[k]? = some task)
      (halive : node.alive = true) :
      WorldMoves s (.report j k delivered) { s with
        nodes := s.nodes.set j { node with held := node.held.eraseIdx k }
        reported := if delivered then s.reported ++ [task.taskId] else s.reported }
  | patrol (outcome : String → TxOutcome) : WorldMoves s (.patrol outcome) (s.patrolRound outcome)

/-- **Inversion.** A step of anybody else is one of their moves. -/
theorem worldStep_moves {a : WorldAction} (h : s.worldStep a = some t) : WorldMoves s a t := by
  cases a with
  | push fields => exact Option.some.inj h ▸ .push fields
  | store taskId payload ttl => exact Option.some.inj h ▸ .store taskId payload ttl
  | pass ms => exact Option.some.inj h ▸ .pass ms
  | boot workerId address hasSubmitter =>
    rw [worldStep, Option.ite_none_left_eq_some] at h
    exact Option.some.inj h.2 ▸ .boot workerId address hasSubmitter h.1
  | register j =>
    rw [worldStep] at h
    split at h
    · exact nomatch h
    · next node hnode =>
      rw [Option.ite_none_right_eq_some] at h
      exact Option.some.inj h.2 ▸ .register j node hnode h.1
  | heartbeat j runningTaskCount =>
    rw [worldStep] at h
    split at h
    · exact nomatch h
    · next node hnode =>
      rw [Option.ite_none_right_eq_some] at h
      exact Option.some.inj h.2 ▸ .heartbeat j runningTaskCount node hnode h.1
  | crash j =>
    rw [worldStep] at h
    split at h
    · exact nomatch h
    · next node hnode => exact Option.some.inj h ▸ .crash j node hnode
  | report j k delivered =>
    rw [worldStep] at h
    split at h
    · exact nomatch h
    · next node hnode =>
      split at h
      · exact nomatch h
      · next task htask =>
        rw [Option.ite_none_right_eq_some] at h
        exact Option.some.inj h.2 ▸ .report j k delivered node task hnode htask h.1
  | patrol outcome => exact Option.some.inj h ▸ .patrol outcome

-- ---------------------------------------------------------------------------
-- Who has an entry
-- ---------------------------------------------------------------------------

/-- The entries the loop thread has taken and not handled yet. -/
def inHand (s : Cluster) : List StreamEntry :=
  match s.work with
  | .rescue entries => entries
  | .batch _ _ entries => entries
  | _ => []

/-- The calls of `DoDispatch` that are queued or running. -/
def jobs (s : Cluster) : List Dispatch :=
  s.loop.dispatchPool ++ s.running.map Running.job

theorem inHand_batchRest {c : Candidates} {workerIdx : Nat} {entries : List StreamEntry}
    (hwork : s.work = .batchRest c workerIdx entries) : s.inHand = entries := by
  rw [inHand, hwork]
  cases entries <;> rfl

theorem inHand_rescueRest {entries : List StreamEntry}
    (hwork : s.work = .rescueRest entries) : s.inHand = entries := by
  rw [inHand, hwork]
  cases entries <;> rfl

/-- The id of the XACK that a step sends, if it sends one. -/
def acked (env : LoopEnv) (s : Cluster) : Action → Option Nat
  | .loop (.entry faults) =>
    s.inHand.head?.bind fun entry =>
      match lookupTask env faults.get entry s.loop.redis with
      | .ok none => some entry.id
      | _ => none
  | .pool (.settle i _) =>
    s.running[i]?.bind fun r =>
      if r.answer.any Answer.success then some r.job.streamId else none
  | _ => none

/-- An answer does not change what runs. -/
theorem jobs_setAnswer {i : Nat} {job : Dispatch} {answer : Answer} {before : Option Answer}
    (hrunning : s.running[i]? = some ⟨job, before⟩) : (s.setAnswer i job answer).jobs = s.jobs := by
  have hmap : (s.running.set i ⟨job, some answer⟩).map Running.job =
      s.running.map Running.job := by
    obtain ⟨hi, hget⟩ := List.getElem?_eq_some_iff.mp hrunning
    have hlength : i < (s.running.map Running.job).length := by
      rw [List.length_map]
      exact hi
    have hjob : job = (s.running.map Running.job)[i] := by
      rw [List.getElem_map, hget]
    rw [List.map_set, hjob, List.set_getElem_self]
  rw [jobs, jobs, ← hmap]
  rfl

/-- What happens outside of the scheduler's threads leaves their work. -/
theorem worldStep_threads {a : WorldAction} (h : s.worldStep a = some t) :
    t.work = s.work ∧ t.running = s.running ∧ t.loop.dispatchPool = s.loop.dispatchPool ∧
      t.loop.inflightTasks = s.loop.inflightTasks := by
  cases worldStep_moves h <;> exact ⟨rfl, rfl, rfl, rfl⟩

/-- An answer changes one call only. -/
theorem mem_setAnswer {i : Nat} {job : Dispatch} {answer : Answer} {r : Running}
    (hr : r ∈ (s.setAnswer i job answer).running) : r = ⟨job, some answer⟩ ∨ r ∈ s.running :=
  (List.mem_or_eq_of_mem_set hr).symm

/-- **A job is what was looked up** for an entry in the hands of the loop, in this
step or in an earlier one. -/
theorem step_jobs {a : Action} (hstep : step env s a = some t) {job : Dispatch}
    (hjob : job ∈ t.jobs) : job ∈ s.jobs ∨ ∃ faults entry, a = .loop (.entry faults) ∧
      entry ∈ s.inHand.head? ∧ entry.id = job.streamId ∧
      lookupTask env faults.get entry s.loop.redis = .ok (some job.task) := by
  have hhandled : ∀ {faults select entry rest handled} {loop : SchedulerLoop},
      s.inHand = entry :: rest → a = .loop (.entry faults) →
      HandleEffect env faults select entry s.loop handled loop →
      job ∈ loop.dispatchPool ++ s.running.map Running.job →
      job ∈ s.jobs ∨ ∃ faults entry, a = .loop (.entry faults) ∧
        entry ∈ s.inHand.head? ∧ entry.id = job.streamId ∧
        lookupTask env faults.get entry s.loop.redis = .ok (some job.task) := by
    intro faults select entry rest handled loop hhead ha heffect hmem
    cases heffect with
    | skip hlookup => exact .inl hmem
    | noWorker task hlookup hselect => exact .inl hmem
    | dispatch task worker hlookup hselect =>
      rcases List.mem_append.mp hmem with hpool | hrunning
      · rcases List.mem_append.mp hpool with hold | hnew
        · exact .inl (List.mem_append_left _ hold)
        · obtain rfl := List.mem_singleton.mp hnew
          exact .inr ⟨faults, entry, ha, by rw [hhead]; rfl, rfl, hlookup⟩
      · exact .inl (List.mem_append_right _ hrunning)
  cases a with
  | loop a =>
    cases loopStep_moves hstep with
    | handled faults c workerIdx entry rest handled loop hwork heffect =>
      exact hhandled (by rw [inHand, hwork]) rfl heffect hjob
    | rescued faults entry rest handled loop hwork heffect =>
      exact hhandled (by rw [inHand, hwork]) rfl heffect hjob
    | busy hwork hfull => exact .inl hjob
    | toScan hwork hroom hdue => exact .inl hjob
    | toPull hwork hroom => exact .inl hjob
    | scanned outcome call hwork hcall => exact .inl hjob
    | claimed outcome ids call hwork hcall => exact .inl hjob
    | noWorkers outcome hwork hnone => exact .inl hjob
    | pulled outcome c call hwork hworkers hcall => exact .inl hjob
    | thrown faults c workerIdx entry rest e hwork hthrow => exact .inl hjob
    | rescueThrown faults entry rest e hwork hthrow => exact .inl hjob
  | pool a =>
    left
    cases poolStep_moves hstep with
    | start job' rest hpool hfree =>
      rw [jobs, hpool]
      simpa [jobs, or_comm, or_left_comm] using hjob
    | fail i call job' answer hrunning hfail =>
      rwa [jobs_setAnswer hrunning] at hjob
    | execute i call job' j node hrunning hnode halive haddress hstub htarget =>
      have hrunning' : (s.execute env job' j node call.faults).running[i]? = some ⟨job', none⟩ :=
        hrunning
      rwa [jobs_setAnswer hrunning'] at hjob
    | settle i faults job' answer hrunning =>
      rcases List.mem_append.mp hjob with hmem | hmem
      · rw [settle_dispatchPool] at hmem
        exact List.mem_append_left _ hmem
      · obtain ⟨r, hr, rfl⟩ := List.mem_map.mp hmem
        exact List.mem_append_right _ (List.mem_map_of_mem (List.mem_of_mem_eraseIdx hr))
  | world a =>
    obtain ⟨-, hrunning, hpool, -⟩ := worldStep_threads hstep
    rw [jobs, hrunning, hpool] at hjob
    exact .inl hjob

end Cluster

end DistTaskSystem
