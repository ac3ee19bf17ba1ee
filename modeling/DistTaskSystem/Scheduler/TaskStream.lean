import DistTaskSystem.Common.ConsumerGroup
import DistTaskSystem.Scheduler.SchedulerService

/-!
# DTS — the task stream and its consumer group

The api-server adds the root tasks of a job to the task stream, a scheduler
creates the consumer group when it starts and reads through it. The two are
separate processes: `TaskStream` is the system of their commands in any order.
-/

namespace DistTaskSystem

-- ---------------------------------------------------------------------------
-- Starting a scheduler
-- ---------------------------------------------------------------------------

/-- `RedisManager::XGroupCreate`: a group that exists already counts as a
success. -/
def xGroupCreate (outcome : ReplyOutcome) (key group : String) (start : StartId) (r : Redis) :
    Bool × Redis :=
  match outcome with
  | .answered =>
    match xgroupCreate key group start r with
    | (.ok (), r') => (true, r')
    | (.error .busyGroup, r') => (true, r')
    | (.error _, r') => (false, r')
  | .lost => (false, (xgroupCreate key group start r).2)
  | .refused => (false, r)

/-- `SchedulerLoop::Start` up to the thread: the answer is not looked at. -/
def startGroup (outcome : ReplyOutcome) (r : Redis) : Redis :=
  (xGroupCreate outcome kTasks kGroupMain .last r).2

theorem startGroup_eq (outcome : ReplyOutcome) (r : Redis) :
    startGroup outcome r =
      if outcome = .refused then r else (xgroupCreate kTasks kGroupMain .last r).2 := by
  unfold startGroup xGroupCreate
  cases outcome with
  | answered =>
    rw [if_neg (by decide)]
    generalize xgroupCreate kTasks kGroupMain .last r = result
    obtain ⟨answer, r'⟩ := result
    cases answer with
    | ok u => rfl
    | error e => cases e <;> rfl
  | lost => rfl
  | refused => rfl

-- ---------------------------------------------------------------------------
-- The system
-- ---------------------------------------------------------------------------

/-- The server, with the ids of the entries added to the task stream and of the
pending entries acknowledged so far: the lists are kept for the statements, no
command reads them. -/
structure TaskStream where
  redis : Redis
  added : List Nat := []
  acked : List Nat := []

inductive StreamAction where
  /-- the XADD of a root task by the api-server -/
  | submit (taskId jobId : String)
  /-- a scheduler starts or is started again -/
  | start (outcome : ReplyOutcome)
  | read (consumer : String) (count : Nat) (outcome : ReplyOutcome)
  | ack (id : Nat) (outcome : ReplyOutcome)
  /-- time passes -/
  | pass (ms : Nat)

namespace TaskStream

def started (redis : Redis) : TaskStream := { redis := redis }

def step (s : TaskStream) : StreamAction → Option TaskStream
  | .submit taskId jobId =>
    let cmd := xadd kTasks (toXAddArgs taskId jobId)
    some { s with
      redis := (cmd s.redis).2
      added := s.added ++ (cmd s.redis).1.toOption.toList }
  | .start outcome => some { s with redis := startGroup outcome s.redis }
  | .read consumer count outcome =>
    some { s with
      redis := (redisCall outcome (xreadgroup kGroupMain consumer kTasks count) s.redis).2 }
  | .ack id outcome =>
    let cmd := xack kTasks kGroupMain id
    some { s with
      redis := (redisCall outcome cmd s.redis).2
      acked :=
        if outcome ≠ .refused ∧ 0 < ((cmd s.redis).1.toOption.getD 0) then s.acked ++ [id]
        else s.acked }
  | .pass ms => some { s with redis := s.redis.advance ms }

end TaskStream

end DistTaskSystem
