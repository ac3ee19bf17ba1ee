import DistTaskSystem.Client.GrpcClient
import DistTaskSystem.Scheduler.WorkerManager

/-!
# DTS — registering and staying registered

`WorkerNode` registers at the scheduler when it starts and ends the process if that fails.
`HeartbeatLoop` then sends a heartbeat every five seconds, and registers again whenever one
fails: the scheduler may have restarted, or its patrol may have dropped the worker.

A call is a request on its way, the execution of the handler by the scheduler and the
answer. gRPC ends a call by its deadline; the request of a call that has ended may still
reach the scheduler, once. Times are in milliseconds of one clock.

Threads that are late are late by the clock alone: a step that waits for a point in time
can be taken at any time from then on.

## Results

* `step_moves` — a step is one of the moves of the code.
-/

namespace DistTaskSystem

-- ---------------------------------------------------------------------------
-- The calls
-- ---------------------------------------------------------------------------

/-- `SYS_INVALID_PARAM`. -/
def ErrorCode.sysInvalidParam : ErrorCode := .sys 1

structure RegisterRequest where
  workerId : String
  address : String
deriving DecidableEq, Repr

/-- `HeartbeatRequest`; the load figure nothing reads is left out. -/
structure HeartbeatRequest where
  workerId : String
  runningTaskCount : Int
deriving DecidableEq, Repr

/-- What a worker calls the scheduler with. -/
inductive WorkerRequest where
  | register (request : RegisterRequest)
  | heartbeat (request : HeartbeatRequest)
deriving DecidableEq, Repr

def WorkerRequest.workerId : WorkerRequest → String
  | .register request => request.workerId
  | .heartbeat request => request.workerId

namespace SchedulerServiceImpl

/-- `Register`: the header of the response, and the manager after it. -/
def register (request : RegisterRequest) (now : Nat) (m : WorkerManager) :
    RpcRespHeader × WorkerManager :=
  if request.workerId = "" ∨ request.address = "" then
    ({ error := some ⟨some .sysInvalidParam, "worker_id or address is empty"⟩ }, m)
  else ({}, m.handleRegister request.workerId request.address now)

/-- `Heartbeat`. -/
def heartbeat (request : HeartbeatRequest) (now : Nat) (m : WorkerManager) :
    RpcRespHeader × WorkerManager :=
  let result := m.handleHeartbeat request.workerId request.runningTaskCount now
  if result.1 then ({}, result.2)
  else
    ({ error := some ⟨some .sysInvalidParam, "Worker not found. Please re-register."⟩ }, result.2)

def handle (request : WorkerRequest) (now : Nat) (m : WorkerManager) :
    RpcRespHeader × WorkerManager :=
  match request with
  | .register request => register request now m
  | .heartbeat request => heartbeat request now m

end SchedulerServiceImpl

/-- `CheckRpcStatus`. -/
def checkRpcStatus (status : GrpcStatus) (header : RpcRespHeader) : Bool :=
  decide (status.code = .ok) && header.error.isNone

-- ---------------------------------------------------------------------------
-- The worker
-- ---------------------------------------------------------------------------

/-- A call of the scheduler that has not returned. -/
structure PendingCall where
  request : WorkerRequest
  deadline : Nat
  /-- the header of the response, once the handler has run -/
  response : Option RpcRespHeader := none
deriving DecidableEq, Repr

/-- Where a worker process stands. -/
inductive NodePoint where
  /-- outside of `Start` and of the loop -/
  | idle
  /-- in `Start`, at `RegisterWorker` -/
  | starting (call : PendingCall)
  /-- before the test of `running_`, not earlier than the end of the sleep -/
  | waiting (wakeAt : Nat)
  /-- in the loop, at `SendHeartbeat`, -/
  | beating (call : PendingCall)
  /-- and at `RegisterWorker` -/
  | registering (call : PendingCall)
  /-- `exit(1)` -/
  | exited
deriving DecidableEq, Repr

structure HeartbeatNode where
  workerId : String
  advertiseAddr : String
  running : Bool := false
  point : NodePoint := .idle
deriving DecidableEq, Repr

namespace HeartbeatNode

variable (n : HeartbeatNode) (now : Nat)

/-- `RegisterWorker`. -/
def registerWorker : PendingCall :=
  { request := .register ⟨n.workerId, n.advertiseAddr⟩, deadline := now + 5000 }

/-- `SendHeartbeat`; the loop reports no running tasks. -/
def sendHeartbeat : PendingCall :=
  { request := .heartbeat ⟨n.workerId, 0⟩, deadline := now + 2000 }

/-- The call the process is in. -/
def call? : Option PendingCall :=
  match n.point with
  | .starting c | .beating c | .registering c => some c
  | .idle | .waiting _ | .exited => none

/-- The response to the call is there. -/
def answered (header : RpcRespHeader) : HeartbeatNode :=
  { n with point := match n.point with
    | .starting c => .starting { c with response := some header }
    | .beating c => .beating { c with response := some header }
    | .registering c => .registering { c with response := some header }
    | p => p }

/-- What follows when the call has returned `success`. -/
def returned (success : Bool) : HeartbeatNode :=
  { n with point := match n.point with
    | .starting _ => if success then .waiting now else .exited
    -- the worker may have been dropped: it registers again
    | .beating _ => if success then .waiting (now + 5000) else .registering (n.registerWorker now)
    -- the loop goes on either way
    | .registering _ => .waiting (now + 5000)
    | p => p }

end HeartbeatNode

inductive NodeAction where
  | start
  | stop
  /-- the loop tests `running_` -/
  | wake
  /-- the scheduler runs the handler of the call -/
  | serve
  /-- the response arrives -/
  | receive
  /-- the call ends with another status; its request may still be on its way -/
  | fail (status : GrpcStatus) (underway : Bool)
deriving DecidableEq, Repr

-- ---------------------------------------------------------------------------
-- The scheduler and its workers
-- ---------------------------------------------------------------------------

/-- Where the thread of `RunPatrolLoop` stands. -/
inductive PatrolPoint where
  | waiting (wakeAt : Nat)
  /-- in `PruneDeadWorkers`, before the lock; the time is read already -/
  | pruning (now : Nat)
  /-- at the tasks of the dead workers, since that time -/
  | requeueing (dead : List String) (now : Nat)
deriving DecidableEq, Repr

structure Registry where
  now : Nat
  /-- none while the scheduler is down -/
  manager : Option WorkerManager
  patrol : PatrolPoint
  nodes : List HeartbeatNode
  /-- requests underway whose calls have ended -/
  strays : List WorkerRequest

namespace Registry

inductive Action where
  | tick (ms : Nat)
  | crash
  | boot
  | patrol
  /-- the loop thread of the scheduler books a task -/
  | prebook (workerId : String) (count : Int)
  | stray (k : Nat)
  | node (i : Nat) (a : NodeAction)
deriving DecidableEq, Repr

/-- Before anything runs. -/
def launched (nodes : List HeartbeatNode) : Registry :=
  { now := 0, manager := none, patrol := .waiting 0, nodes := nodes, strays := [] }

def move (s : Registry) (i : Nat) (n : HeartbeatNode) : Registry :=
  { s with nodes := s.nodes.set i n }

def patrolStep (s : Registry) (m : WorkerManager) : Option Registry :=
  match s.patrol with
  | .waiting wakeAt => if wakeAt ≤ s.now then some { s with patrol := .pruning s.now } else none
  | .pruning now =>
    let (dead, m) := m.pruneDeadWorkers now
    some { s with manager := some m, patrol := .requeueing dead now }
  | .requeueing _ _ => some { s with patrol := .waiting (s.now + 30000) }

def nodeStep (s : Registry) (i : Nat) (n : HeartbeatNode) (a : NodeAction) : Option Registry :=
  match a with
  | .start =>
    if n.running then some s
    else if n.point = .idle then
      some (s.move i { n with running := true, point := .starting (n.registerWorker s.now) })
    else none
  | .stop => some (s.move i { n with running := false })
  | .wake =>
    match n.point with
    | .waiting wakeAt =>
      if wakeAt ≤ s.now then
        some (s.move i
          { n with point := if n.running then .beating (n.sendHeartbeat s.now) else .idle })
      else none
    | _ => none
  | .serve => do
    let c ← n.call?
    let m ← s.manager
    if c.response = none then
      let (header, m) := SchedulerServiceImpl.handle c.request s.now m
      some { s.move i (n.answered header) with manager := some m }
    else none
  | .receive => do
    let c ← n.call?
    let header ← c.response
    some (s.move i (n.returned s.now (checkRpcStatus {} header)))
  | .fail status underway => do
    let c ← n.call?
    if status.code ≠ .ok then
      some { s.move i (n.returned s.now (checkRpcStatus status {})) with
        strays := if underway ∧ c.response = none then s.strays ++ [c.request] else s.strays }
    else none

def step (s : Registry) : Action → Option Registry
  | .tick ms => some { s with now := s.now + ms }
  | .crash => some { s with manager := none }
  | .boot =>
    match s.manager with
    | none => some { s with manager := some .started, patrol := .waiting (s.now + 30000) }
    | some _ => none
  | .patrol => s.manager.bind s.patrolStep
  | .prebook workerId count =>
    s.manager.map fun m => { s with manager := some (m.prebookTask workerId count) }
  | .stray k => do
    let request ← s.strays[k]?
    let m ← s.manager
    let (_, m) := SchedulerServiceImpl.handle request s.now m
    some { s with manager := some m, strays := s.strays.eraseIdx k }
  | .node i a => (s.nodes[i]?).bind fun n => s.nodeStep i n a

-- ---------------------------------------------------------------------------
-- What a step does
-- ---------------------------------------------------------------------------

variable {s t : Registry}

/-- The moves of the clock, the scheduler and the workers. -/
inductive Moves (s : Registry) : Action → Registry → Prop
  | tick (ms : Nat) : Moves s (.tick ms) { s with now := s.now + ms }
  | crash : Moves s .crash { s with manager := none }
  | boot (hdown : s.manager = none) :
      Moves s .boot { s with manager := some .started, patrol := .waiting (s.now + 30000) }
  | rise (m : WorkerManager) (wakeAt : Nat) (hm : s.manager = some m)
      (hpatrol : s.patrol = .waiting wakeAt) (hdue : wakeAt ≤ s.now) :
      Moves s .patrol { s with patrol := .pruning s.now }
  | prune (m : WorkerManager) (now : Nat) (hm : s.manager = some m)
      (hpatrol : s.patrol = .pruning now) :
      Moves s .patrol { s with
        manager := some (m.pruneDeadWorkers now).2
        patrol := .requeueing (m.pruneDeadWorkers now).1 now }
  | requeued (m : WorkerManager) (dead : List String) (now : Nat) (hm : s.manager = some m)
      (hpatrol : s.patrol = .requeueing dead now) :
      Moves s .patrol { s with patrol := .waiting (s.now + 30000) }
  | prebook (m : WorkerManager) (workerId : String) (count : Int) (hm : s.manager = some m) :
      Moves s (.prebook workerId count) { s with manager := some (m.prebookTask workerId count) }
  | stray (k : Nat) (request : WorkerRequest) (m : WorkerManager)
      (hk : s.strays[k]? = some request) (hm : s.manager = some m) :
      Moves s (.stray k) { s with
        manager := some (SchedulerServiceImpl.handle request s.now m).2
        strays := s.strays.eraseIdx k }
  | started (i : Nat) (n : HeartbeatNode) (hn : s.nodes[i]? = some n)
      (hrunning : n.running = true) : Moves s (.node i .start) s
  | start (i : Nat) (n : HeartbeatNode) (hn : s.nodes[i]? = some n) (hpoint : n.point = .idle) :
      Moves s (.node i .start)
        (s.move i { n with running := true, point := .starting (n.registerWorker s.now) })
  | stop (i : Nat) (n : HeartbeatNode) (hn : s.nodes[i]? = some n) :
      Moves s (.node i .stop) (s.move i { n with running := false })
  | wake (i : Nat) (n : HeartbeatNode) (wakeAt : Nat) (hn : s.nodes[i]? = some n)
      (hpoint : n.point = .waiting wakeAt) (hdue : wakeAt ≤ s.now) :
      Moves s (.node i .wake) (s.move i
        { n with point := if n.running then .beating (n.sendHeartbeat s.now) else .idle })
  | serve (i : Nat) (n : HeartbeatNode) (c : PendingCall) (m : WorkerManager)
      (hn : s.nodes[i]? = some n) (hcall : n.call? = some c) (hm : s.manager = some m)
      (hnone : c.response = none) :
      Moves s (.node i .serve)
        { s.move i (n.answered (SchedulerServiceImpl.handle c.request s.now m).1) with
          manager := some (SchedulerServiceImpl.handle c.request s.now m).2 }
  | receive (i : Nat) (n : HeartbeatNode) (c : PendingCall) (header : RpcRespHeader)
      (hn : s.nodes[i]? = some n) (hcall : n.call? = some c)
      (hresponse : c.response = some header) :
      Moves s (.node i .receive) (s.move i (n.returned s.now header.error.isNone))
  | fail (i : Nat) (n : HeartbeatNode) (c : PendingCall) (status : GrpcStatus) (underway : Bool)
      (hn : s.nodes[i]? = some n) (hcall : n.call? = some c) :
      Moves s (.node i (.fail status underway)) { s.move i (n.returned s.now false) with
        strays := if underway ∧ c.response = none then s.strays ++ [c.request] else s.strays }

theorem patrolStep_moves {m : WorkerManager} (hm : s.manager = some m)
    (h : s.patrolStep m = some t) : Moves s .patrol t := by
  unfold patrolStep at h
  split at h
  · next wakeAt hpatrol =>
    rw [Option.ite_none_right_eq_some] at h
    exact Option.some.inj h.2 ▸ .rise m wakeAt hm hpatrol h.1
  · next now hpatrol => exact Option.some.inj h ▸ .prune m now hm hpatrol
  · next dead now hpatrol => exact Option.some.inj h ▸ .requeued m dead now hm hpatrol

theorem nodeStep_moves {i : Nat} {n : HeartbeatNode} {a : NodeAction}
    (hn : s.nodes[i]? = some n) (h : s.nodeStep i n a = some t) : Moves s (.node i a) t := by
  cases a with
  | start =>
    simp only [nodeStep] at h
    split at h
    · next hrunning => exact Option.some.inj h ▸ .started i n hn hrunning
    · rw [Option.ite_none_right_eq_some] at h
      exact Option.some.inj h.2 ▸ .start i n hn h.1
  | stop => exact Option.some.inj h ▸ .stop i n hn
  | wake =>
    simp only [nodeStep] at h
    split at h
    · next wakeAt hpoint =>
      rw [Option.ite_none_right_eq_some] at h
      exact Option.some.inj h.2 ▸ .wake i n wakeAt hn hpoint h.1
    · exact absurd h (by simp)
  | serve =>
    simp only [nodeStep, Option.bind_eq_bind, Option.bind_eq_some_iff,
      Option.ite_none_right_eq_some] at h
    obtain ⟨c, hcall, m, hm, hnone, h⟩ := h
    exact Option.some.inj h ▸ .serve i n c m hn hcall hm hnone
  | receive =>
    simp only [nodeStep, Option.bind_eq_bind, Option.bind_eq_some_iff] at h
    obtain ⟨c, hcall, header, hresponse, h⟩ := h
    exact Option.some.inj h ▸ .receive i n c header hn hcall hresponse
  | fail status underway =>
    simp only [nodeStep, Option.bind_eq_bind, Option.bind_eq_some_iff,
      Option.ite_none_right_eq_some] at h
    obtain ⟨c, hcall, hstatus, h⟩ := h
    rw [checkRpcStatus, decide_eq_false hstatus] at h
    exact Option.some.inj h ▸ .fail i n c status underway hn hcall

/-- **Inversion.** A step is one of the moves. -/
theorem step_moves {a : Action} (h : s.step a = some t) : Moves s a t := by
  cases a with
  | tick ms => exact Option.some.inj h ▸ .tick ms
  | crash => exact Option.some.inj h ▸ .crash
  | boot =>
    simp only [step] at h
    split at h
    · next hdown => exact Option.some.inj h ▸ .boot hdown
    · exact absurd h (by simp)
  | patrol =>
    obtain ⟨m, hm, h⟩ := Option.bind_eq_some_iff.mp h
    exact patrolStep_moves hm h
  | prebook workerId count =>
    obtain ⟨m, hm, rfl⟩ := Option.map_eq_some_iff.mp h
    exact .prebook m workerId count hm
  | stray k =>
    simp only [step, Option.bind_eq_bind, Option.bind_eq_some_iff] at h
    obtain ⟨request, hk, m, hm, h⟩ := h
    exact Option.some.inj h ▸ .stray k request m hk hm
  | node i a =>
    obtain ⟨n, hn, h⟩ := Option.bind_eq_some_iff.mp h
    exact nodeStep_moves hn h

end Registry

end DistTaskSystem
