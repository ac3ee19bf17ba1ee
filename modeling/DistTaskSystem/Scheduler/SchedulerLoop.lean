import DistTaskSystem.Scheduler.TaskStream
import DistTaskSystem.Scheduler.WorkerManager
import DistTaskSystem.Worker.WorkerService

/-!
# DTS — dispatching an entry

What `SchedulerLoop` does with one entry of the task stream: `RunLoop` and
`ProcessStreamEntry` look the task up, choose a worker and leave the rest to the
dispatch pool, whose threads run `DoDispatch`. The two loops differ in where
they take the worker from and in what their `catch` leaves undone (`pass`).

The connection and the JSON parser can throw out of a loop body (`LoopError`).
A stream id is a number, so `task.stream_id` is kept beside the task.

## Results

* `lookupTask_ok_iff`  — when a lookup throws.
* `handleEntry_effect` — what handling an entry does.
-/

namespace DistTaskSystem

def maxInflight : Int := 2000

/-- `BATCH_SIZE` of `RunLoop` and of `DoRescue`. -/
def readBatchSize : Nat := 20
def rescueBatchSize : Nat := 50

def minIdleMs : Nat := 60000

/-- The libraries the loop uses, and the name it reads under. -/
structure LoopEnv where
  /-- `ParseFromString` -/
  deserialize : List UInt8 → Option PbTask
  parse : String → Except JsonError Json
  dump : Json → String
  order : WorkerOrder
  consumerName : String

/-- What is thrown out of a loop body. -/
inductive LoopError where
  /-- `redis.get` -/
  | redis
  | json (error : JsonError)
deriving DecidableEq, Repr

-- ---------------------------------------------------------------------------
-- Looking a task up
-- ---------------------------------------------------------------------------

/-- `TaskSerializer::FromMetaBinary`. -/
def fromMetaBinary (deserialize : List UInt8 → Option PbTask)
    (parse : String → Except JsonError Json) (binaryData : List UInt8) :
    Except JsonError (Option Task) :=
  if binaryData = [] then .ok none
  else match deserialize binaryData with
    | none => .ok none
    | some proto => (taskFromProto parse proto).map some

/-- `GetConnection().get(key)`: unlike the wrappers, it throws. -/
def connectionGet (outcome : ReplyOutcome) (key : String) (r : Redis) :
    Except LoopError (Option (List UInt8)) :=
  if outcome = .answered then
    match (getStr key r).1 with
    | .ok value => .ok value
    | .error _ => .error .redis
  else .error .redis

/-- Steps A to C of the loop body: the task of an entry, or none if the entry is
to be skipped. -/
def lookupTask (env : LoopEnv) (get : ReplyOutcome) (entry : StreamEntry) (r : Redis) :
    Except LoopError (Option Task) :=
  match parseStreamEntry entry with
  | none => .ok none
  | some ptr =>
    match connectionGet get (taskMeta ptr.taskId) r with
    | .error e => .error e
    | .ok none => .ok none
    | .ok (some binaryData) =>
      match fromMetaBinary env.deserialize env.parse binaryData with
      | .error e => .error (.json e)
      | .ok task => .ok task

-- ---------------------------------------------------------------------------
-- Handling an entry
-- ---------------------------------------------------------------------------

/-- A call of `DoDispatch` that the pool has to make. -/
structure Dispatch where
  task : Task
  streamId : Nat
  worker : WorkerInfo

/-- The scheduler's stores, its worker table and its counter, with the queue of
the dispatch pool. -/
structure SchedulerLoop where
  redis : Redis
  db : Db
  workerManager : WorkerManager
  inflightTasks : Int := 0
  dispatchPool : List Dispatch := []

/-- What happens to the calls of a loop body. -/
structure EntryFaults where
  get : ReplyOutcome := .answered
  xack : ReplyOutcome := .answered

/-- What became of an entry. -/
inductive Handled where
  | skipped
  | dispatched (job : Dispatch)
  /-- a rescue without workers -/
  | noWorker

/-- `RedisManager::XAck` on the task stream. -/
def SchedulerLoop.ack (s : SchedulerLoop) (outcome : ReplyOutcome) (streamId : Nat) :
    SchedulerLoop :=
  { s with redis := (redisCall outcome (xack kTasks kGroupMain streamId) s.redis).2 }

/-- The body the two loops share. `select` is the worker they choose. -/
def handleEntry (env : LoopEnv) (faults : EntryFaults) (select : Option WorkerInfo)
    (entry : StreamEntry) (s : SchedulerLoop) : Except LoopError (Handled × SchedulerLoop) :=
  match lookupTask env faults.get entry s.redis with
  | .error e => .error e
  | .ok none =>
    -- `AckAndSkip`
    let s := s.ack faults.xack entry.id
    .ok (.skipped, { s with inflightTasks := s.inflightTasks - 1 })
  | .ok (some task) =>
    match select with
    | none => .ok (.noWorker, { s with inflightTasks := s.inflightTasks - 1 })
    | some worker =>
      .ok (.dispatched ⟨task, entry.id, worker⟩, { s with
        workerManager := s.workerManager.prebookTask worker.workerId 1
        dispatchPool := s.dispatchPool ++ [⟨task, entry.id, worker⟩] })

/-- The workers of one round of `RunLoop`, least loaded first. -/
structure Candidates where
  workers : List WorkerInfo
  nonempty : 0 < workers.length

/-- `workers[worker_idx % workers.size()]`. -/
def Candidates.pick (c : Candidates) (workerIdx : Nat) : WorkerInfo :=
  c.workers.get ⟨workerIdx % c.workers.length, Nat.mod_lt _ c.nonempty⟩

def SchedulerLoop.availableWorkers (env : LoopEnv) (s : SchedulerLoop) : List WorkerInfo :=
  s.workerManager.getAvailableWorkersSorted env.order s.redis.now

/-- The body of the loop of `RunLoop`. -/
def runLoopEntry (env : LoopEnv) (faults : EntryFaults) (c : Candidates) (workerIdx : Nat)
    (entry : StreamEntry) (s : SchedulerLoop) : Except LoopError (Handled × SchedulerLoop) :=
  handleEntry env faults (some (c.pick workerIdx)) entry s

/-- `ProcessStreamEntry`. -/
def processStreamEntry (env : LoopEnv) (faults : EntryFaults) (entry : StreamEntry)
    (s : SchedulerLoop) : Except LoopError (Handled × SchedulerLoop) :=
  handleEntry env faults (s.availableWorkers env).head? entry s

/-- `worker_idx` after an entry. -/
def Handled.next (workerIdx : Nat) : Handled → Nat
  | .dispatched _ => workerIdx + 1
  | _ => workerIdx

/-- A loop over a batch: what it has handled when it ends, at the end of the batch
or in the `catch` around the loop. -/
def pass (body : Nat → StreamEntry → SchedulerLoop → Except LoopError (Handled × SchedulerLoop)) :
    Nat → List StreamEntry → SchedulerLoop → List (StreamEntry × Handled) × SchedulerLoop
  | _, [], s => ([], s)
  | idx, entry :: rest, s =>
    match body idx entry s with
    | .error _ => ([], s)
    | .ok (handled, s) =>
      ((entry, handled) :: (pass body (handled.next idx) rest s).1,
        (pass body (handled.next idx) rest s).2)

/-- The loop of `RunLoop` over a batch. -/
def runLoopPass (env : LoopEnv) (c : Candidates) (batch : List StreamEntry) (s : SchedulerLoop) :
    List (StreamEntry × Handled) × SchedulerLoop :=
  pass (runLoopEntry env {} c) 0 batch s

/-- The loop of `DoRescue` over the claimed entries. -/
def rescuePass (env : LoopEnv) (claimed : List StreamEntry) (s : SchedulerLoop) :
    List (StreamEntry × Handled) × SchedulerLoop :=
  pass (fun _ => processStreamEntry env {}) 0 claimed s

-- ---------------------------------------------------------------------------
-- DoDispatch
-- ---------------------------------------------------------------------------

/-- What `DoDispatch` gets from a worker. -/
inductive Answer where
  | noStub
  /-- the status is not OK -/
  | failed
  | response (r : RunTaskResponse)
deriving DecidableEq, Repr

/-- The worker has taken the task, as far as the scheduler can tell. -/
def Answer.success : Answer → Bool
  | .response r => r.error.isNone
  | _ => false

/-- The request of `DoDispatch`. -/
def Dispatch.request (env : LoopEnv) (job : Dispatch) : RunTaskRequest :=
  ⟨some (taskToProto env.dump job.task)⟩

structure SettleFaults where
  revertTaskToPending : TxOutcome := .committed
  xack : ReplyOutcome := .answered

/-- The end of `DoDispatch`, after the call. -/
def settle (faults : SettleFaults) (job : Dispatch) (answer : Answer) (s : SchedulerLoop) :
    SchedulerLoop :=
  let s :=
    if answer.success then s.ack faults.xack job.streamId
    else { s with
      db := (revertTaskToPending faults.revertTaskToPending job.task.taskId s.db).2 }
  { s with inflightTasks := s.inflightTasks - 1 }

-- ---------------------------------------------------------------------------
-- What the functions do
-- ---------------------------------------------------------------------------

/-- The bytes hold a message that the parser throws on. -/
def PoisonedMeta (env : LoopEnv) (binaryData : List UInt8) : Prop :=
  binaryData ≠ [] ∧ ∃ proto, env.deserialize binaryData = some proto ∧ proto.Poisonous env.parse

/-- The entry points to such a meta. -/
def Poisoned (env : LoopEnv) (r : Redis) (entry : StreamEntry) : Prop :=
  ∃ ptr binaryData, parseStreamEntry entry = some ptr ∧
    (getStr (taskMeta ptr.taskId) r).1 = .ok (some binaryData) ∧ PoisonedMeta env binaryData

section Lookup

variable {env : LoopEnv} {entry : StreamEntry} {r : Redis}

theorem fromMetaBinary_ok_iff {binaryData : List UInt8} :
    (∃ task, fromMetaBinary env.deserialize env.parse binaryData = .ok task) ↔
      ¬ PoisonedMeta env binaryData := by
  unfold fromMetaBinary
  by_cases hempty : binaryData = []
  · rw [if_pos hempty]
    exact iff_of_true ⟨none, rfl⟩ fun h => h.1 hempty
  · rw [if_neg hempty]
    cases hproto : env.deserialize binaryData with
    | none => exact iff_of_true ⟨none, rfl⟩ fun ⟨_, _, h, _⟩ => nomatch hproto.symm.trans h
    | some proto =>
      have hpoison : PoisonedMeta env binaryData ↔ proto.Poisonous env.parse := by
        constructor
        · rintro ⟨-, proto', hproto', hbad⟩
          obtain rfl := Option.some.inj (hproto.symm.trans hproto')
          exact hbad
        · exact fun hbad => ⟨hempty, proto, hproto, hbad⟩
      rw [hpoison, ← taskFromProto_ok_iff]
      dsimp only
      cases taskFromProto env.parse proto with
      | ok task => exact iff_of_true ⟨some task, rfl⟩ ⟨task, rfl⟩
      | error e => exact iff_of_false (fun ⟨_, h⟩ => nomatch h) fun ⟨_, h⟩ => nomatch h

/-- **A lookup throws** exactly on a poisoned entry, as long as the GET answers. -/
theorem lookupTask_ok_iff (hget : ∀ ptr, parseStreamEntry entry = some ptr →
      ∃ value, (getStr (taskMeta ptr.taskId) r).1 = .ok value) :
    (∃ task, lookupTask env .answered entry r = .ok task) ↔ ¬ Poisoned env r entry := by
  unfold lookupTask
  cases hptr : parseStreamEntry entry with
  | none => exact iff_of_true ⟨none, rfl⟩ fun ⟨ptr, _, h, _⟩ => nomatch hptr.symm.trans h
  | some ptr =>
    obtain ⟨value, hvalue⟩ := hget ptr hptr
    have hconnection : connectionGet .answered (taskMeta ptr.taskId) r = .ok value := by
      rw [connectionGet, if_pos rfl, hvalue]
    dsimp only
    rw [hconnection]
    cases value with
    | none =>
      refine iff_of_true ⟨none, rfl⟩ ?_
      rintro ⟨ptr', binaryData, hptr', hget', -⟩
      obtain rfl := Option.some.inj (hptr.symm.trans hptr')
      exact nomatch hvalue.symm.trans hget'
    | some binaryData =>
      have hpoison : Poisoned env r entry ↔ PoisonedMeta env binaryData := by
        constructor
        · rintro ⟨ptr', binaryData', hptr', hget', hbad⟩
          obtain rfl := Option.some.inj (hptr.symm.trans hptr')
          obtain rfl := Option.some.inj (Except.ok.inj (hvalue.symm.trans hget'))
          exact hbad
        · exact fun hbad => ⟨ptr, binaryData, hptr, hvalue, hbad⟩
      rw [hpoison, ← fromMetaBinary_ok_iff]
      dsimp only
      cases fromMetaBinary env.deserialize env.parse binaryData with
      | ok task => exact iff_of_true ⟨task, rfl⟩ ⟨task, rfl⟩
      | error e => exact iff_of_false (fun ⟨_, h⟩ => nomatch h) fun ⟨_, h⟩ => nomatch h

/-- A lookup reads the metas, so it does not see what happens to the stream. -/
theorem poisoned_congr {r' : Redis} (h : ∀ k, k ≠ kTasks → r'.keys k = r.keys k) :
    Poisoned env r' entry ↔ Poisoned env r entry := by
  unfold Poisoned
  refine exists_congr fun ptr => exists_congr fun binaryData => and_congr_right fun _ => ?_
  rw [getStr_congr (h (taskMeta ptr.taskId) (by simp))]

end Lookup

-- ---------------------------------------------------------------------------
-- What handling an entry does
-- ---------------------------------------------------------------------------

/-- The outcomes of a loop body that does not throw. -/
inductive HandleEffect (env : LoopEnv) (faults : EntryFaults) (select : Option WorkerInfo)
    (entry : StreamEntry) (s : SchedulerLoop) : Handled → SchedulerLoop → Prop
  | skip (hlookup : lookupTask env faults.get entry s.redis = .ok none) :
      HandleEffect env faults select entry s .skipped
        { s.ack faults.xack entry.id with inflightTasks := s.inflightTasks - 1 }
  | dispatch (task : Task) (worker : WorkerInfo)
      (hlookup : lookupTask env faults.get entry s.redis = .ok (some task))
      (hselect : select = some worker) :
      HandleEffect env faults select entry s (.dispatched ⟨task, entry.id, worker⟩)
        { s with
          workerManager := s.workerManager.prebookTask worker.workerId 1
          dispatchPool := s.dispatchPool ++ [⟨task, entry.id, worker⟩] }
  | noWorker (task : Task)
      (hlookup : lookupTask env faults.get entry s.redis = .ok (some task))
      (hselect : select = none) :
      HandleEffect env faults select entry s .noWorker
        { s with inflightTasks := s.inflightTasks - 1 }

section Handle

variable {env : LoopEnv} {faults : EntryFaults} {select : Option WorkerInfo} {entry : StreamEntry}
  {s t : SchedulerLoop} {handled : Handled}

/-- **Inversion.** -/
theorem handleEntry_effect (h : handleEntry env faults select entry s = .ok (handled, t)) :
    HandleEffect env faults select entry s handled t := by
  unfold handleEntry at h
  split at h
  · exact nomatch h
  · next hlookup =>
    obtain ⟨rfl, rfl⟩ := Prod.mk.inj (Except.ok.inj h)
    exact .skip hlookup
  · next task hlookup =>
    cases select with
    | none =>
      obtain ⟨rfl, rfl⟩ := Prod.mk.inj (Except.ok.inj h)
      exact .noWorker task hlookup rfl
    | some worker =>
      obtain ⟨rfl, rfl⟩ := Prod.mk.inj (Except.ok.inj h)
      exact .dispatch task worker hlookup rfl

theorem HandleEffect.lookup (h : HandleEffect env faults select entry s handled t) :
    ∃ task, lookupTask env faults.get entry s.redis = .ok task := by
  cases h with
  | skip hlookup => exact ⟨_, hlookup⟩
  | dispatch task worker hlookup hselect => exact ⟨_, hlookup⟩
  | noWorker task hlookup hselect => exact ⟨_, hlookup⟩

/-- A body throws exactly if its lookup does. -/
theorem handleEntry_ok_iff : (∃ result, handleEntry env faults select entry s = .ok result) ↔
    ∃ task, lookupTask env faults.get entry s.redis = .ok task := by
  unfold handleEntry
  split
  · next e hlookup =>
    exact iff_of_false (fun ⟨_, h⟩ => nomatch h) fun ⟨_, h⟩ => nomatch hlookup.symm.trans h
  · next hlookup => exact iff_of_true ⟨_, rfl⟩ ⟨_, hlookup⟩
  · next task hlookup =>
    refine iff_of_true ?_ ⟨_, hlookup⟩
    split
    · exact ⟨_, rfl⟩
    · exact ⟨_, rfl⟩

theorem handleEntry_error {e : LoopError} (h : handleEntry env faults select entry s = .error e) :
    lookupTask env faults.get entry s.redis = .error e := by
  unfold handleEntry at h
  split at h
  · next hlookup =>
    rw [hlookup, Except.error.inj h]
  · exact nomatch h
  · split at h <;> exact nomatch h

/-- The end of a dispatch leaves the queue, and counts itself out. -/
@[simp] theorem settle_dispatchPool (faults : SettleFaults) (job : Dispatch) (answer : Answer) :
    (settle faults job answer s).dispatchPool = s.dispatchPool := by
  rw [settle]
  split <;> rfl

@[simp] theorem settle_inflightTasks (faults : SettleFaults) (job : Dispatch) (answer : Answer) :
    (settle faults job answer s).inflightTasks = s.inflightTasks - 1 := by
  rw [settle]
  split <;> rfl

@[simp] theorem settle_workerManager (faults : SettleFaults) (job : Dispatch) (answer : Answer) :
    (settle faults job answer s).workerManager = s.workerManager := by
  rw [settle]
  split <;> rfl

/-- An acknowledgement touches the task stream only. -/
theorem ack_keys (s : SchedulerLoop) (outcome : ReplyOutcome) (streamId : Nat) {k : String}
    (hk : k ≠ kTasks) : (s.ack outcome streamId).redis.keys k = s.redis.keys k := by
  show (redisCall outcome (xack kTasks kGroupMain streamId) s.redis).2.keys k = _
  rw [redisCall_state]
  split
  · rfl
  · exact onKey_frame hk _

theorem ack_now (s : SchedulerLoop) (outcome : ReplyOutcome) (streamId : Nat) :
    (s.ack outcome streamId).redis.now = s.redis.now := by
  show (redisCall outcome (xack kTasks kGroupMain streamId) s.redis).2.now = _
  rw [redisCall_state]
  split
  · rfl
  · exact onKey_now _ _ _

end Handle

end DistTaskSystem
