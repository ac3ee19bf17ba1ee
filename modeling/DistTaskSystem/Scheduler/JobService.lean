import DistTaskSystem.ApiServer.TaskSubmitter
import DistTaskSystem.Scheduler.Reporting

/-!
# DTS — everything that writes the stores

The api-server and the scheduler share one database and one Redis. Jobs are
written by the flusher threads of the api-server; after that a row of the task
table changes through `UpdateTaskStatus`, the thread of `DbBatcher`, a dispatch
that failed, and the patrol. `UpdateTaskToRunning` has no caller.
-/

namespace DistTaskSystem

/-- What a deployment brings along: `jsonb`, the serializer of metas, and the service with
both of its collaborators, as `main` builds it. -/
structure JobService where
  jsonbIn : String → Option String
  serialize : PbTask → List UInt8
  svc : SchedulerService
  hasRepository : svc.hasRepository = true
  hasBatcher : svc.hasBatcher = true

inductive StoreAction where
  /-- a flusher thread processes a batch -/
  | submit (subs : List Submission) (faults : BatchFaults) (nowTs : Int)
  /-- a report, or a step of the flush thread -/
  | reporting (a : Reporting.Action)
  /-- `DoDispatch` could not hand over the task -/
  | revert (taskId : String) (outcome : TxOutcome)
  /-- the patrol found a worker dead -/
  | requeue (workerId : String) (outcome : TxOutcome)
  | pass (ms : Nat)

namespace Reporting

/-- The table is replaced. -/
def setDb (s : Reporting) (db : Db) : Reporting := { s with batcher := { s.batcher with db := db } }

section SetDb

variable (s : Reporting) (db : Db)

@[simp] theorem setDb_db : (s.setDb db).batcher.db = db := rfl

@[simp] theorem setDb_queue : (s.setDb db).batcher.queue = s.batcher.queue := rfl

@[simp] theorem setDb_batch : (s.setDb db).batcher.batch = s.batcher.batch := rfl

@[simp] theorem setDb_redis : (s.setDb db).redis = s.redis := rfl

end SetDb

end Reporting

namespace JobService

variable (env : JobService)

def step (s : Reporting) : StoreAction → Option Reporting
  | .submit subs faults nowTs =>
    let stores := processBatch env.jsonbIn env.serialize faults nowTs (subs.map Submission.item)
      s.batcher.db s.redis
    some { s.setDb stores.1 with redis := stores.2 }
  | .reporting a => s.step env.svc env.jsonbIn a
  | .revert taskId outcome => some (s.setDb (revertTaskToPending outcome taskId s.batcher.db).2)
  | .requeue workerId outcome =>
    some (s.setDb (requeueOrphanedTasks outcome workerId s.batcher.db).2)
  | .pass ms => some { s with redis := s.redis.advance ms }

end JobService

end DistTaskSystem
