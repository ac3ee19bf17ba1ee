import DistTaskSystem.Common.PoolOwner
import DistTaskSystem.Worker.WorkerNode

/-!
# DTS — the life of a worker process

`main` makes a `WorkerNode`, sets a signal handler that calls `Stop`, calls `Start` and
waits in `Await` until the gRPC server has been shut down. The node is a global object, so
its destructor runs when `main` has returned: it calls `Stop` once more and then destroys the
members in the reverse order of their declarations. Around the main thread there are the
heartbeat thread, the calls of `RunTask` in the threads of the server, and the thread pool
with the jobs. `Shutdown` of a gRPC server returns when its calls have been answered.

The signal handler runs on the main thread, or on one that has nothing to do with the node;
a `Stop` that finds `running_` unset returns at once, so at most one does anything. If the
address is taken there is no server: `Await` returns at once, and the `Stop` of the
destructor is the one that joins the heartbeat thread.

## Results

* `step_moves` — a step is one of the moves of the code.
-/

namespace DistTaskSystem

/-- What a worker process runs with. -/
structure NodeEnv where
  workerId : String
  /-- `TaskRegistry::Get`; all functions are registered before `main` -/
  registry : String → Option WorkerNode.TaskHandler
  dump : Json → Except String String
  parse : String → Except JsonError Json
  /-- whether the signal handler runs on the main thread -/
  onMain : Bool

/-- As `OnTaskReceived` finds it. -/
def NodeEnv.exec (env : NodeEnv) : WorkerNode.ExecEnv :=
  { registry := env.registry, dump := env.dump }

/-- Where a call of `RunTask` stands. -/
inductive RunTaskPoint where
  /-- at `OnTaskReceived` -/
  | received (task : Task) (tReqId : String)
  /-- in the report that `OnTaskReceived` makes itself -/
  | reporting
  | returned

def RunTaskPoint.task? : RunTaskPoint → Option Task
  | .received task _ => some task
  | _ => none

def RunTaskPoint.isReturned : RunTaskPoint → Bool
  | .returned => true
  | _ => false

/-- Where `grpc_server_` stands. -/
inductive NodeServer where
  /-- before `BuildAndStart` -/
  | unbuilt
  /-- `BuildAndStart` returned no server -/
  | failed
  | serving
  | closing
  | down
deriving DecidableEq, Repr

/-- `grpc_server_` is null. -/
def NodeServer.isNull : NodeServer → Bool
  | .unbuilt | .failed => true
  | _ => false

/-- `Wait` does not return. -/
def NodeServer.isUp : NodeServer → Bool
  | .serving | .closing => true
  | _ => false

/-- Where the heartbeat thread stands. -/
inductive HeartbeatPoint where
  | unstarted
  /-- at the test of `running_` -/
  | testing
  /-- in `SendHeartbeat` -/
  | beating
  /-- in `RegisterWorker` -/
  | registering
  | sleeping
  | exited
deriving DecidableEq, Repr

/-- Where the `Stop` that has found `running_` set stands. -/
inductive StopPoint where
  | notCalled
  /-- at `Shutdown` -/
  | called
  | shuttingDown
  /-- at `join` -/
  | joining
  | returned
deriving DecidableEq, Repr

/-- The members that the destructor has something to do for, in its order. -/
inductive NodeMember where
  | heartbeatThread
  | grpcServer
  | serviceImpl
  | schedulerClient
  | threadPool
deriving DecidableEq, Repr

/-- Where the main thread stands. -/
inductive NodeMain where
  /-- before `Start` -/
  | launched
  /-- in `Start`, before the server is built -/
  | binding
  /-- in `Start`, in `RegisterWorker` -/
  | registering
  /-- in `Await` -/
  | awaiting
  /-- in the `Stop` of the destructor -/
  | stopping
  | destroying (member : NodeMember)
  | exited
  /-- by `std::terminate` -/
  | terminated
  /-- by `LOG_FATAL` -/
  | aborted
deriving DecidableEq, Repr

structure NodeProcess where
  /-- the node with its pool; the member that its jobs use is `scheduler_client_` -/
  owner : PoolOwner
  /-- what the jobs execute, by their numbers -/
  jobs : List Task := []
  running : Bool := false
  server : NodeServer := .unbuilt
  calls : List RunTaskPoint := []
  heartbeat : HeartbeatPoint := .unstarted
  /-- `heartbeat_thread_` was joined -/
  joined : Bool := false
  stop : StopPoint := .notCalled
  main : NodeMain := .launched
  /-- where the main thread was when that `Stop` was called; the tasks that came to
  `OnTaskReceived`, those it did not enqueue, and the calls of `UpdateTaskStatus`: kept for
  the statements, no function reads them -/
  signalled : Option NodeMain := none
  received : List Task := []
  refused : List Task := []
  reported : List UpdateTaskStatusRequest := []

namespace NodeProcess

inductive Action where
  /-- a signal handler calls `Stop` -/
  | signal
  | stop
  /-- the main thread; what `BuildAndStart` or `RegisterWorker` returns -/
  | main (success : Bool)
  /-- the heartbeat thread; what `SendHeartbeat` returns -/
  | heartbeat (success : Bool)
  | arrive (request : RunTaskRequest) (tReqId : String)
  | handle (k : Nat)
  /-- the pool between its jobs -/
  | pool (a : ThreadAction)
  /-- the handler of a job has ended: the job calls `UpdateTaskStatus`, -/
  | report (i : Nat)
  /-- which returns, -/
  | reported (i : Nat)
  /-- and the job ends -/
  | finish (i : Nat)

/-- A process whose node was constructed. -/
def launch (threads : Nat) : NodeProcess := { owner := .construct threads }

/-- The process is gone. -/
def ended (s : NodeProcess) : Bool :=
  s.main = .exited || s.main = .terminated || s.main = .aborted

/-- The signal handler is at work. -/
def interrupted (s : NodeProcess) : Bool := s.stop ≠ .notCalled && s.stop ≠ .returned

/-- `Stop`, behind `running_ = false`. -/
def stopStep (s : NodeProcess) : Option NodeProcess :=
  match s.stop with
  | .notCalled => none
  | .called =>
    some (if s.server.isNull then { s with stop := .joining }
      else { s with server := .closing, stop := .shuttingDown })
  | .shuttingDown =>
    if s.calls.all RunTaskPoint.isReturned then some { s with server := .down, stop := .joining }
    else none
  | .joining =>
    match s.heartbeat with
    -- there is nothing to join
    | .unstarted => some { s with stop := .returned }
    | .exited => some { s with joined := true, stop := .returned }
    | _ => none
  | .returned => none

/-- The destructor of `thread_pool_`. -/
def destroyPool (s : NodeProcess) : Option NodeProcess :=
  match s.owner.pool.destructor with
  | .notCalled => (s.owner.poolStep .stop).map fun owner => { s with owner := owner }
  | .stopped => (s.owner.poolStep .notifyAll).map fun owner => { s with owner := owner }
  | .joining =>
    (s.owner.poolStep .join).map fun owner => { s with owner := owner, main := .exited }
  | .returned => none

/-- The destructor of a member. -/
def destroyStep (s : NodeProcess) : NodeMember → Option NodeProcess
  | .heartbeatThread =>
    -- a thread that was neither joined nor detached
    if s.heartbeat = .unstarted ∨ s.joined then some { s with main := .destroying .grpcServer }
    else some { s with main := .terminated }
  | .grpcServer => some { s with main := .destroying .serviceImpl }
  | .serviceImpl => some { s with main := .destroying .schedulerClient }
  | .schedulerClient =>
    (s.owner.step .free).map fun owner => { s with owner := owner, main := .destroying .threadPool }
  | .threadPool => s.destroyPool

/-- `main`, and the destructor behind it. -/
def mainStep (s : NodeProcess) (success : Bool) : Option NodeProcess :=
  match s.main with
  | .launched => some { s with running := true, main := .binding }
  | .binding =>
    some { s with server := if success then .serving else .failed, main := .registering }
  | .registering =>
    some (if success then { s with heartbeat := .testing, main := .awaiting }
      else { s with main := .aborted })
  | .awaiting =>
    if s.server.isUp then none
    -- `main` returns, and the destructor calls `Stop`
    else some (if s.running then
      { s with running := false, stop := .called, signalled := some .stopping, main := .stopping }
      else { s with main := .destroying .heartbeatThread })
  | .stopping =>
    if s.stop = .returned then some { s with main := .destroying .heartbeatThread } else none
  | .destroying member => s.destroyStep member
  | .exited => none
  | .terminated => none
  | .aborted => none

/-- `HeartbeatLoop`. -/
def heartbeatStep (s : NodeProcess) (success : Bool) : Option NodeProcess :=
  match s.heartbeat with
  | .unstarted => none
  | .testing => some { s with heartbeat := if s.running then .beating else .exited }
  | .beating => some { s with heartbeat := if success then .sleeping else .registering }
  | .registering => some { s with heartbeat := .sleeping }
  | .sleeping => some { s with heartbeat := .testing }
  | .exited => none

/-- `RunTask` up to `OnTaskReceived`. -/
def arrive (env : NodeEnv) (s : NodeProcess) (request : RunTaskRequest) (tReqId : String) :
    NodeProcess :=
  match (runTask env.parse true {} request).2 with
  | none => { s with calls := s.calls ++ [.returned] }
  | some task =>
    { s with calls := s.calls ++ [.received task tReqId], received := s.received ++ [task] }

/-- `OnTaskReceived` in the `k`-th call. -/
def onTaskReceived (env : NodeEnv) (s : NodeProcess) (k : Nat) (task : Task) (tReqId : String) :
    Option NodeProcess :=
  let enqueued := (s.owner.pool.enqueue tReqId).map fun _ => ()
  let out := WorkerNode.onTaskReceived { env.exec with enqueue := enqueued } env.workerId task
  if out.2.isEmpty then
    some { s with
      calls := s.calls.set k .reporting
      refused := s.refused ++ [task]
      reported := s.reported ++ out.1 }
  else
    (s.owner.poolStep (.enqueue (.outside tReqId))).map fun owner => { s with
      owner := owner
      calls := s.calls.set k .returned
      jobs := s.jobs ++ [task] }

def handleStep (env : NodeEnv) (s : NodeProcess) (k : Nat) : Option NodeProcess :=
  match s.calls[k]? with
  | some (.received task tReqId) => s.onTaskReceived env k task tReqId
  | some .reporting => some { s with calls := s.calls.set k .returned }
  | _ => none

/-- What the threads of the pool do between the callables, and in one that changes its
request id. -/
def ofThreads : ThreadAction → Bool
  | .notify _ | .test _ | .wake _ | .begin _ | .setRequestId _ _ | .clear _ => true
  | _ => false

/-- A job begins its report. -/
def reportStep (env : NodeEnv) (s : NodeProcess) (i : Nat) : Option NodeProcess := do
  let n ← s.owner.pool.callable? i
  let task ← s.jobs[n]?
  let handler ← env.registry task.funcName
  let owner ← s.owner.step (.use i)
  some { s with
    owner := owner
    reported := s.reported ++ [WorkerNode.executeJob env.exec task handler] }

def act (env : NodeEnv) (s : NodeProcess) : Action → Option NodeProcess
  | .signal =>
    some (if s.running then
      { s with running := false, stop := .called, signalled := some s.main } else s)
  | .stop => s.stopStep
  | .main success => if env.onMain && s.interrupted then none else s.mainStep success
  | .heartbeat success => s.heartbeatStep success
  | .arrive request tReqId =>
    if s.server = .serving then some (s.arrive env request tReqId) else none
  | .handle k => s.handleStep env k
  | .pool a =>
    if ofThreads a then (s.owner.poolStep a).map fun owner => { s with owner := owner } else none
  | .report i => s.reportStep env i
  | .reported i => (s.owner.step (.leave i)).map fun owner => { s with owner := owner }
  | .finish i =>
    (s.owner.step (.pool (.finish i .value))).map fun owner => { s with owner := owner }

def step (env : NodeEnv) (s : NodeProcess) (a : Action) : Option NodeProcess :=
  if s.ended then none else s.act env a

-- ---------------------------------------------------------------------------
-- What a step does
-- ---------------------------------------------------------------------------

variable {env : NodeEnv} {s t : NodeProcess}

/-- The moves of the process. -/
inductive Moves (env : NodeEnv) (s : NodeProcess) : Action → NodeProcess → Prop
  | ignore (hrunning : s.running = false) : Moves env s .signal s
  | signal (hrunning : s.running = true) : Moves env s .signal
      { s with running := false, stop := .called, signalled := some s.main }
  | stopNull (hstop : s.stop = .called) (hserver : s.server.isNull = true) :
      Moves env s .stop { s with stop := .joining }
  | shutdown (hstop : s.stop = .called) (hserver : s.server.isNull = false) :
      Moves env s .stop { s with server := .closing, stop := .shuttingDown }
  | down (hstop : s.stop = .shuttingDown) (hcalls : s.calls.all RunTaskPoint.isReturned = true) :
      Moves env s .stop { s with server := .down, stop := .joining }
  | joinNothing (hstop : s.stop = .joining) (hheartbeat : s.heartbeat = .unstarted) :
      Moves env s .stop { s with stop := .returned }
  | join (hstop : s.stop = .joining) (hheartbeat : s.heartbeat = .exited) :
      Moves env s .stop { s with joined := true, stop := .returned }
  | start (success : Bool) (hmain : s.main = .launched) :
      Moves env s (.main success) { s with running := true, main := .binding }
  | bind (success : Bool) (hmain : s.main = .binding)
      (hfree : env.onMain = true → s.interrupted = false) :
      Moves env s (.main success)
        { s with server := if success then .serving else .failed, main := .registering }
  | registered (hmain : s.main = .registering)
      (hfree : env.onMain = true → s.interrupted = false) :
      Moves env s (.main true) { s with heartbeat := .testing, main := .awaiting }
  | abort (hmain : s.main = .registering) (hfree : env.onMain = true → s.interrupted = false) :
      Moves env s (.main false) { s with main := .aborted }
  | leaveStop (success : Bool) (hmain : s.main = .awaiting) (hserver : s.server.isUp = false)
      (hrunning : s.running = true) : Moves env s (.main success)
      { s with running := false, stop := .called, signalled := some .stopping, main := .stopping }
  | leave (success : Bool) (hmain : s.main = .awaiting) (hserver : s.server.isUp = false)
      (hrunning : s.running = false) (hfree : env.onMain = true → s.interrupted = false) :
      Moves env s (.main success) { s with main := .destroying .heartbeatThread }
  | destroy (success : Bool) (hmain : s.main = .stopping) (hstop : s.stop = .returned) :
      Moves env s (.main success) { s with main := .destroying .heartbeatThread }
  | destroyThread (success : Bool) (hmain : s.main = .destroying .heartbeatThread)
      (hjoined : s.heartbeat = .unstarted ∨ s.joined = true) :
      Moves env s (.main success) { s with main := .destroying .grpcServer }
  | terminate (success : Bool) (hmain : s.main = .destroying .heartbeatThread)
      (hjoined : ¬ (s.heartbeat = .unstarted ∨ s.joined = true)) :
      Moves env s (.main success) { s with main := .terminated }
  | destroyServer (success : Bool) (hmain : s.main = .destroying .grpcServer) :
      Moves env s (.main success) { s with main := .destroying .serviceImpl }
  | destroyService (success : Bool) (hmain : s.main = .destroying .serviceImpl) :
      Moves env s (.main success) { s with main := .destroying .schedulerClient }
  | free (success : Bool) (owner : PoolOwner) (hmain : s.main = .destroying .schedulerClient)
      (howner : s.owner.step .free = some owner) :
      Moves env s (.main success) { s with owner := owner, main := .destroying .threadPool }
  | drain (success : Bool) (a : ThreadAction) (owner : PoolOwner)
      (hmain : s.main = .destroying .threadPool) (ha : a = .stop ∨ a = .notifyAll)
      (howner : s.owner.poolStep a = some owner) :
      Moves env s (.main success) { s with owner := owner }
  | exit (success : Bool) (owner : PoolOwner) (hmain : s.main = .destroying .threadPool)
      (howner : s.owner.poolStep .join = some owner) :
      Moves env s (.main success) { s with owner := owner, main := .exited }
  | test (success : Bool) (hheartbeat : s.heartbeat = .testing) : Moves env s (.heartbeat success)
      { s with heartbeat := if s.running then .beating else .exited }
  | beat (success : Bool) (hheartbeat : s.heartbeat = .beating) : Moves env s (.heartbeat success)
      { s with heartbeat := if success then .sleeping else .registering }
  | registerAgain (success : Bool) (hheartbeat : s.heartbeat = .registering) :
      Moves env s (.heartbeat success) { s with heartbeat := .sleeping }
  | wake (success : Bool) (hheartbeat : s.heartbeat = .sleeping) :
      Moves env s (.heartbeat success) { s with heartbeat := .testing }
  | turnAway (request : RunTaskRequest) (tReqId : String) (hserver : s.server = .serving) :
      Moves env s (.arrive request tReqId) { s with calls := s.calls ++ [.returned] }
  | arrive (request : RunTaskRequest) (tReqId : String) (task : Task)
      (hserver : s.server = .serving) (htask : (runTask env.parse true {} request).2 = some task) :
      Moves env s (.arrive request tReqId)
        { s with calls := s.calls ++ [.received task tReqId], received := s.received ++ [task] }
  | refuse (k : Nat) (task : Task) (tReqId : String)
      (hcall : s.calls[k]? = some (.received task tReqId))
      (hhandler : env.registry task.funcName = none) :
      Moves env s (.handle k) { s with
        calls := s.calls.set k .reporting
        refused := s.refused ++ [task]
        reported := s.reported ++ WorkerNode.reports env.exec env.workerId task }
  | stopped (k : Nat) (task : Task) (tReqId : String) (request : UpdateTaskStatusRequest)
      (hcall : s.calls[k]? = some (.received task tReqId)) (hstop : s.owner.pool.stop = true) :
      Moves env s (.handle k) { s with
        calls := s.calls.set k .reporting
        refused := s.refused ++ [task]
        reported := s.reported ++ [request] }
  | enqueue (k : Nat) (task : Task) (tReqId : String) (handler : WorkerNode.TaskHandler)
      (owner : PoolOwner) (hcall : s.calls[k]? = some (.received task tReqId))
      (hhandler : env.registry task.funcName = some handler) (hstop : s.owner.pool.stop = false)
      (howner : s.owner.poolStep (.enqueue (.outside tReqId)) = some owner) :
      Moves env s (.handle k) { s with
        owner := owner
        calls := s.calls.set k .returned
        jobs := s.jobs ++ [task] }
  | answer (k : Nat) (hcall : s.calls[k]? = some .reporting) :
      Moves env s (.handle k) { s with calls := s.calls.set k .returned }
  | pool (a : ThreadAction) (owner : PoolOwner) (ha : ofThreads a = true)
      (howner : s.owner.poolStep a = some owner) : Moves env s (.pool a) { s with owner := owner }
  | report (i n : Nat) (task : Task) (handler : WorkerNode.TaskHandler) (owner : PoolOwner)
      (hn : s.owner.pool.callable? i = some n) (htask : s.jobs[n]? = some task)
      (hhandler : env.registry task.funcName = some handler)
      (howner : s.owner.step (.use i) = some owner) :
      Moves env s (.report i) { s with
        owner := owner
        reported := s.reported ++ [WorkerNode.executeJob env.exec task handler] }
  | reported (i : Nat) (owner : PoolOwner) (howner : s.owner.step (.leave i) = some owner) :
      Moves env s (.reported i) { s with owner := owner }
  | finish (i : Nat) (owner : PoolOwner)
      (howner : s.owner.step (.pool (.finish i .value)) = some owner) :
      Moves env s (.finish i) { s with owner := owner }

theorem stopStep_moves (h : s.stopStep = some t) : Moves env s .stop t := by
  unfold stopStep at h
  split at h
  · exact absurd h (by simp)
  · next hstop =>
    obtain rfl := Option.some.inj h
    cases hserver : s.server.isNull with
    | true => exact .stopNull hstop hserver
    | false => exact .shutdown hstop hserver
  · next hstop =>
    rw [Option.ite_none_right_eq_some] at h
    exact Option.some.inj h.2 ▸ .down hstop h.1
  · next hstop =>
    split at h
    · next hheartbeat => exact Option.some.inj h ▸ .joinNothing hstop hheartbeat
    · next hheartbeat => exact Option.some.inj h ▸ .join hstop hheartbeat
    · exact absurd h (by simp)
  · exact absurd h (by simp)

theorem destroyStep_moves {success : Bool} {member : NodeMember}
    (hmain : s.main = .destroying member) (h : s.destroyStep member = some t) :
    Moves env s (.main success) t := by
  cases member with
  | heartbeatThread =>
    rw [destroyStep] at h
    split at h
    · next hjoined => exact Option.some.inj h ▸ .destroyThread success hmain hjoined
    · next hjoined => exact Option.some.inj h ▸ .terminate success hmain hjoined
  | grpcServer => exact Option.some.inj h ▸ .destroyServer success hmain
  | serviceImpl => exact Option.some.inj h ▸ .destroyService success hmain
  | schedulerClient =>
    obtain ⟨owner, howner, rfl⟩ := Option.map_eq_some_iff.mp h
    exact .free success owner hmain howner
  | threadPool =>
    rw [destroyStep, destroyPool] at h
    split at h
    · obtain ⟨owner, howner, rfl⟩ := Option.map_eq_some_iff.mp h
      exact .drain success .stop owner hmain (.inl rfl) howner
    · obtain ⟨owner, howner, rfl⟩ := Option.map_eq_some_iff.mp h
      exact .drain success .notifyAll owner hmain (.inr rfl) howner
    · obtain ⟨owner, howner, rfl⟩ := Option.map_eq_some_iff.mp h
      exact .exit success owner hmain howner
    · exact absurd h (by simp)

theorem mainStep_moves {success : Bool} (hfree : env.onMain = true → s.interrupted = false)
    (h : s.mainStep success = some t) : Moves env s (.main success) t := by
  unfold mainStep at h
  split at h
  · next hmain => exact Option.some.inj h ▸ .start success hmain
  · next hmain => exact Option.some.inj h ▸ .bind success hmain hfree
  · next hmain =>
    cases success with
    | true => exact Option.some.inj h ▸ .registered hmain hfree
    | false => exact Option.some.inj h ▸ .abort hmain hfree
  · next hmain =>
    rw [Option.ite_none_left_eq_some] at h
    have hserver := Bool.eq_false_iff.mpr h.1
    obtain rfl := Option.some.inj h.2
    by_cases hrunning : s.running = true
    · rw [if_pos hrunning]
      exact .leaveStop success hmain hserver hrunning
    · rw [if_neg hrunning]
      exact .leave success hmain hserver (Bool.eq_false_iff.mpr hrunning) hfree
  · next hmain =>
    rw [Option.ite_none_right_eq_some] at h
    exact Option.some.inj h.2 ▸ .destroy success hmain h.1
  · next member hmain => exact destroyStep_moves hmain h
  · exact absurd h (by simp)
  · exact absurd h (by simp)
  · exact absurd h (by simp)

theorem heartbeatStep_moves {success : Bool} (h : s.heartbeatStep success = some t) :
    Moves env s (.heartbeat success) t := by
  unfold heartbeatStep at h
  split at h
  · exact absurd h (by simp)
  · next hheartbeat => exact Option.some.inj h ▸ .test success hheartbeat
  · next hheartbeat => exact Option.some.inj h ▸ .beat success hheartbeat
  · next hheartbeat => exact Option.some.inj h ▸ .registerAgain success hheartbeat
  · next hheartbeat => exact Option.some.inj h ▸ .wake success hheartbeat
  · exact absurd h (by simp)

theorem arrive_moves {request : RunTaskRequest} {tReqId : String} (hserver : s.server = .serving) :
    Moves env s (.arrive request tReqId) (s.arrive env request tReqId) := by
  unfold arrive
  split
  · exact .turnAway request tReqId hserver
  · next task htask => exact .arrive request tReqId task hserver htask

theorem onTaskReceived_moves {k : Nat} {task : Task} {tReqId : String}
    (hcall : s.calls[k]? = some (.received task tReqId))
    (h : s.onTaskReceived env k task tReqId = some t) : Moves env s (.handle k) t := by
  unfold onTaskReceived at h
  cases hhandler : env.registry task.funcName with
  | none =>
    have hexec : env.exec.registry task.funcName = none := hhandler
    simp only [WorkerNode.onTaskReceived, hexec, List.isEmpty_nil, if_true] at h
    have hreports : WorkerNode.reports env.exec env.workerId task =
        (WorkerNode.onTaskReceived env.exec env.workerId task).1 := by
      rw [WorkerNode.reports, WorkerNode.onTaskReceived, hexec]
      exact List.append_nil _
    have hrefuse := Moves.refuse k task tReqId hcall hhandler
    rw [hreports, WorkerNode.onTaskReceived, hexec] at hrefuse
    exact Option.some.inj h ▸ hrefuse
  | some handler =>
    have hexec : env.exec.registry task.funcName = some handler := hhandler
    cases hstop : s.owner.pool.stop with
    | true =>
      have hrefused : s.owner.pool.enqueue tReqId = .error "enqueue on stopped ThreadPool" := by
        rw [ThreadPool.enqueue, if_pos hstop]
      simp only [WorkerNode.onTaskReceived, hexec, hrefused, Except.map, List.isEmpty_nil,
        if_true] at h
      exact Option.some.inj h ▸ .stopped k task tReqId _ hcall hstop
    | false =>
      obtain ⟨pool, haccepted⟩ : ∃ pool, s.owner.pool.enqueue tReqId = .ok pool := by
        rw [ThreadPool.enqueue, if_neg (Bool.eq_false_iff.mp hstop)]
        exact ⟨_, rfl⟩
      simp only [WorkerNode.onTaskReceived, hexec, haccepted, Except.map, List.isEmpty_cons,
        Bool.false_eq_true, if_false] at h
      obtain ⟨owner, howner, rfl⟩ := Option.map_eq_some_iff.mp h
      exact .enqueue k task tReqId handler owner hcall hhandler hstop howner

theorem handleStep_moves {k : Nat} (h : s.handleStep env k = some t) :
    Moves env s (.handle k) t := by
  unfold handleStep at h
  split at h
  · next task tReqId hcall => exact onTaskReceived_moves hcall h
  · next hcall => exact Option.some.inj h ▸ .answer k hcall
  · exact absurd h (by simp)

theorem reportStep_moves {i : Nat} (h : s.reportStep env i = some t) :
    Moves env s (.report i) t := by
  simp only [reportStep, Option.bind_eq_bind, Option.bind_eq_some_iff] at h
  obtain ⟨n, hn, task, htask, handler, hhandler, owner, howner, h⟩ := h
  exact Option.some.inj h ▸ .report i n task handler owner hn htask hhandler howner

theorem act_moves {a : Action} (h : s.act env a = some t) : Moves env s a t := by
  cases a with
  | signal =>
    obtain rfl := Option.some.inj h
    cases hrunning : s.running with
    | true => exact .signal hrunning
    | false => exact .ignore hrunning
  | stop => exact stopStep_moves h
  | main success =>
    rw [act, Option.ite_none_left_eq_some] at h
    refine mainStep_moves ?_ h.2
    intro honMain
    have hfree := Bool.eq_false_iff.mpr h.1
    rwa [honMain, Bool.true_and] at hfree
  | heartbeat success => exact heartbeatStep_moves h
  | arrive request tReqId =>
    rw [act, Option.ite_none_right_eq_some] at h
    exact Option.some.inj h.2 ▸ arrive_moves h.1
  | handle k => exact handleStep_moves h
  | pool a =>
    rw [act, Option.ite_none_right_eq_some] at h
    obtain ⟨owner, howner, rfl⟩ := Option.map_eq_some_iff.mp h.2
    exact .pool a owner h.1 howner
  | report i => exact reportStep_moves h
  | reported i =>
    obtain ⟨owner, howner, rfl⟩ := Option.map_eq_some_iff.mp h
    exact .reported i owner howner
  | finish i =>
    obtain ⟨owner, howner, rfl⟩ := Option.map_eq_some_iff.mp h
    exact .finish i owner howner

/-- **Inversion.** A step of the process is one of its moves. -/
theorem step_moves {a : Action} (h : s.step env a = some t) :
    s.ended = false ∧ Moves env s a t := by
  rw [step, Option.ite_none_left_eq_some] at h
  exact ⟨Bool.eq_false_iff.mpr h.1, act_moves h.2⟩

end NodeProcess

end DistTaskSystem
