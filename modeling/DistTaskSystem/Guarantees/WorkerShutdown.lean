import DistTaskSystem.Worker.NodeProcess
import DistTaskSystem.Guarantees.MemberLifetime

/-!
# DTS — how a worker process ends

The gRPC server answers its calls before it is down, and only then does the main thread
leave `Await`. So `OnTaskReceived` never finds a pool that was stopped, and what a process
that exits has received, it has executed and reported. But the pool is the last member that
the destructor comes to: the reports of the jobs that have not ended by then go through a
`SchedulerClient` that has been destroyed.

## Results

* `ordered_step`    — the order in which the threads leave the node.
* `booked_step`     — what becomes of the tasks.
* `worker_shutdown` — both, for every run.
-/

namespace DistTaskSystem

/-- The heartbeat thread has not been made. -/
def NodeMain.starting : NodeMain → Bool
  | .launched | .binding | .registering => true
  | _ => false

/-- The destructor has begun. -/
def NodeMain.destructing : NodeMain → Bool
  | .stopping | .destroying _ | .exited | .terminated => true
  | _ => false

/-- `heartbeat_thread_` has been destroyed. -/
def NodeMain.pastThread : NodeMain → Bool
  | .destroying .heartbeatThread => false
  | .destroying _ | .exited => true
  | _ => false

/-- `scheduler_client_` has been destroyed. -/
def NodeMain.pastClient : NodeMain → Bool
  | .destroying .threadPool | .exited => true
  | _ => false

namespace NodeProcess

open Runs

variable {env : NodeEnv} {s t : NodeProcess} {a : Action} {actions : List Action}

-- ---------------------------------------------------------------------------
-- The order of the end
-- ---------------------------------------------------------------------------

/-- Who is still in the node. -/
structure Ordered (s : NodeProcess) : Prop where
  settled : s.owner.Settled
  running : s.running = true → s.stop = .notCalled
  launched : s.main = .launched → s.stop = .notCalled ∧ s.running = false
  unbuilt : s.main = .launched ∨ s.main = .binding → s.server = .unbuilt
  closing : s.stop = .shuttingDown → s.server = .closing
  down : s.server = .down → s.stop = .joining ∨ s.stop = .returned
  answered : s.server.isUp = false → s.calls.all RunTaskPoint.isReturned = true
  alone : s.main.destructing = true → s.server.isUp = false
  freed : s.owner.freed = s.main.pastClient
  exited : s.main = .exited → s.owner.pool.destructor = .returned
  unstarted : s.main.starting = true → s.heartbeat = .unstarted
  started : s.main = .awaiting ∨ s.main.destructing = true → s.heartbeat ≠ .unstarted
  joined : s.joined = true → s.heartbeat = .exited
  past : s.main.pastThread = true → s.heartbeat = .exited

theorem pastClient_destructing {m : NodeMain} (h : m.pastClient = true) :
    m.destructing = true ∧ m.pastThread = true := by
  cases m with
  | destroying member => cases member <;> first | exact ⟨rfl, rfl⟩ | exact absurd h (by decide)
  | exited => exact ⟨rfl, rfl⟩
  | _ => exact absurd h (by decide)

theorem Ordered.serverUp {k : Nat} {call : RunTaskPoint} (hs : s.Ordered)
    (hcall : s.calls[k]? = some call) (hreturned : call.isReturned = false) :
    s.server.isUp = true := by
  by_contra hdown
  rw [Bool.not_eq_true] at hdown
  have hall := List.all_eq_true.mp (hs.answered hdown) call (List.mem_of_getElem? hcall)
  exact absurd (hreturned.symm.trans hall) (by decide)

/-- A call that has not returned is one of a node that nothing was taken from. -/
theorem Ordered.intact {k : Nat} {call : RunTaskPoint} (hs : s.Ordered)
    (hcall : s.calls[k]? = some call) (hreturned : call.isReturned = false) :
    s.owner.freed = false ∧ s.owner.pool.stop = false := by
  have hserver := hs.serverUp hcall hreturned
  have hfreed : s.owner.freed = false := by
    rw [hs.freed, Bool.eq_false_iff]
    intro hpast
    exact absurd (hserver.symm.trans (hs.alone (pastClient_destructing hpast).1)) (by decide)
  refine ⟨hfreed, Bool.eq_false_iff.mpr fun hstop => ?_⟩
  have hcalled := hs.settled.awake.stopped.mp hstop
  exact absurd (hfreed.symm.trans (hs.settled.order hcalled)) (by decide)

/-- A step of the pool. -/
theorem settled_poolStep {owner : PoolOwner} {a : ThreadAction} (hs : s.owner.Settled)
    (hallows : s.owner.allows a = true) (h : s.owner.poolStep a = some owner) :
    owner.Settled ∧ owner.freed = s.owner.freed ∧ s.owner.pool.step a = some owner.pool := by
  obtain ⟨pool, hpool, rfl⟩ := Option.map_eq_some_iff.mp h
  exact ⟨hs.pool hallows hpool, rfl, hpool⟩

/-- What a job does leaves the member as it is. -/
theorem use_freed {i : Nat} {u v : PoolOwner} (h : u.step (.use i) = some v) :
    v.freed = u.freed := by
  cases PoolOwner.step_moves h with
  | use i n hn hphase => rfl

theorem leave_freed {i : Nat} {u v : PoolOwner} (h : u.step (.leave i) = some v) :
    v.freed = u.freed := by
  cases PoolOwner.step_moves h with
  | leave i n hn hphase => rfl

theorem finish_freed {a : ThreadAction} {u v : PoolOwner} (h : u.step (.pool a) = some v) :
    v.freed = u.freed := by
  cases PoolOwner.step_moves h with
  | pool a pool hallows hpool => rfl

theorem allows_ofThreads {owner : PoolOwner} {a : ThreadAction} (ha : ofThreads a = true) :
    owner.allows a = true := by
  cases a <;> first | rfl | exact absurd ha Bool.false_ne_true

/-- The calls go on, or there are more of them. -/
theorem Ordered.call {calls : List RunTaskPoint} (hs : s.Ordered)
    (hserver : s.server.isUp = true) : Ordered { s with calls := calls } :=
  { hs with answered := fun hdown => absurd (hserver.symm.trans hdown) (by decide) }

/-- The pool moves, and nothing else. -/
theorem Ordered.own {owner : PoolOwner} (hs : s.Ordered) (howner : owner.Settled)
    (hfreed : owner.freed = s.owner.freed) (hmain : s.main ≠ .exited) :
    Ordered { s with owner := owner } :=
  { hs with
    settled := howner
    freed := hfreed.trans hs.freed
    exited := fun hexited => absurd hexited hmain }

theorem main_ne_exited (hended : s.ended = false) : s.main ≠ .exited := by
  intro hexited
  rw [ended, hexited] at hended
  exact absurd hended (by decide)

/-- The main thread, before the destructor. -/
theorem ordered_start (hs : s.Ordered) (hmain : s.main = .launched) :
    Ordered { s with running := true, main := .binding } where
  settled := hs.settled
  running := fun _ => (hs.launched hmain).1
  launched := fun h => absurd (show NodeMain.binding = .launched from h) (by decide)
  unbuilt := fun _ => hs.unbuilt (.inl hmain)
  closing := hs.closing
  down := hs.down
  answered := hs.answered
  alone := fun h => absurd h Bool.false_ne_true
  freed := hs.freed.trans (by rw [hmain]; rfl)
  exited := fun h => absurd (show NodeMain.binding = .exited from h) (by decide)
  unstarted := fun _ => hs.unstarted (by rw [hmain]; rfl)
  started := fun h => absurd (show NodeMain.binding = .awaiting from
    h.resolve_right Bool.false_ne_true) (by decide)
  joined := hs.joined
  past := fun h => absurd h Bool.false_ne_true

theorem ordered_bind {server : NodeServer} (hs : s.Ordered) (hmain : s.main = .binding)
    (hserver : server ≠ .down) : Ordered { s with server := server, main := .registering } where
  settled := hs.settled
  running := hs.running
  launched := fun h => absurd (show NodeMain.registering = .launched from h) (by decide)
  unbuilt := fun h => absurd (show NodeMain.registering = .launched ∨
    NodeMain.registering = .binding from h) (by decide)
  closing := fun h => absurd ((hs.unbuilt (.inr hmain)).symm.trans (hs.closing h)) (by decide)
  down := fun h => absurd h hserver
  answered := fun _ => hs.answered (by rw [hs.unbuilt (.inr hmain)]; rfl)
  alone := fun h => absurd h Bool.false_ne_true
  freed := hs.freed.trans (by rw [hmain]; rfl)
  exited := fun h => absurd (show NodeMain.registering = .exited from h) (by decide)
  unstarted := fun _ => hs.unstarted (by rw [hmain]; rfl)
  started := fun h => absurd (show NodeMain.registering = .awaiting from
    h.resolve_right Bool.false_ne_true) (by decide)
  joined := hs.joined
  past := fun h => absurd h Bool.false_ne_true

theorem ordered_registered (hs : s.Ordered) (hmain : s.main = .registering) :
    Ordered { s with heartbeat := .testing, main := .awaiting } where
  settled := hs.settled
  running := hs.running
  launched := fun h => absurd (show NodeMain.awaiting = .launched from h) (by decide)
  unbuilt := fun h => absurd (show NodeMain.awaiting = .launched ∨
    NodeMain.awaiting = .binding from h) (by decide)
  closing := hs.closing
  down := hs.down
  answered := hs.answered
  alone := fun h => absurd h Bool.false_ne_true
  freed := hs.freed.trans (by rw [hmain]; rfl)
  exited := fun h => absurd (show NodeMain.awaiting = .exited from h) (by decide)
  unstarted := fun h => absurd h Bool.false_ne_true
  started := fun _ h => absurd (show HeartbeatPoint.testing = .unstarted from h) (by decide)
  joined := fun h => absurd ((hs.unstarted (by rw [hmain]; rfl)).symm.trans (hs.joined h))
    (by decide)
  past := fun h => absurd h Bool.false_ne_true

theorem ordered_abort (hs : s.Ordered) (hmain : s.main = .registering) :
    Ordered { s with main := .aborted } where
  settled := hs.settled
  running := hs.running
  launched := fun h => absurd (show NodeMain.aborted = .launched from h) (by decide)
  unbuilt := fun h => absurd (show NodeMain.aborted = .launched ∨
    NodeMain.aborted = .binding from h) (by decide)
  closing := hs.closing
  down := hs.down
  answered := hs.answered
  alone := fun h => absurd h Bool.false_ne_true
  freed := hs.freed.trans (by rw [hmain]; rfl)
  exited := fun h => absurd (show NodeMain.aborted = .exited from h) (by decide)
  unstarted := fun h => absurd h Bool.false_ne_true
  started := fun h => absurd (show NodeMain.aborted = .awaiting from
    h.resolve_right Bool.false_ne_true) (by decide)
  joined := hs.joined
  past := fun h => absurd h Bool.false_ne_true

/-- The main thread in the destructor. -/
theorem Ordered.destroy {m : NodeMain} {owner : PoolOwner} (hs : s.Ordered)
    (howner : owner.Settled) (hfreed : owner.freed = m.pastClient) (hdown : s.server.isUp = false)
    (hm : m.destructing = true) (hheartbeat : s.heartbeat ≠ .unstarted)
    (hexited : m = .exited → owner.pool.destructor = .returned)
    (hpast : m.pastThread = true → s.heartbeat = .exited) :
    Ordered { s with owner := owner, main := m } where
  settled := howner
  running := hs.running
  launched := by
    rintro rfl
    exact absurd hm Bool.false_ne_true
  unbuilt := by
    rintro (rfl | rfl)
    · exact absurd hm Bool.false_ne_true
    · exact absurd hm Bool.false_ne_true
  closing := hs.closing
  down := hs.down
  answered := hs.answered
  alone := fun _ => hdown
  freed := hfreed
  exited := hexited
  unstarted := by
    intro hstarting
    cases m <;>
      first | exact absurd hm Bool.false_ne_true | exact absurd hstarting Bool.false_ne_true
  started := fun _ => hheartbeat
  joined := hs.joined
  past := hpast

/-- The main thread in the destructor, before `scheduler_client_`. -/
theorem Ordered.onward {m m' : NodeMain} (hs : s.Ordered) (hmain : s.main = m)
    (hm : m.destructing = true) (hearly : m.pastClient = false) (hm' : m'.destructing = true)
    (hearly' : m'.pastClient = false) (hpast : m'.pastThread = true → s.heartbeat = .exited) :
    Ordered { s with main := m' } := by
  subst hmain
  refine hs.destroy hs.settled ?_ (hs.alone hm) hm' (hs.started (.inr hm)) ?_ hpast
  · rw [hs.freed, hearly, hearly']
  · rintro rfl
    exact absurd hearly' (by decide)

/-- `Stop` goes on. -/
theorem Ordered.stopTo {stop : StopPoint} (hs : s.Ordered) (hcalled : s.stop ≠ .notCalled)
    (hshuttingDown : stop ≠ .shuttingDown)
    (hdown : s.server = .down → stop = .joining ∨ stop = .returned) :
    Ordered { s with stop := stop } :=
  { hs with
    running := fun hrunning => absurd (hs.running hrunning) hcalled
    launched := fun hmain => absurd (hs.launched hmain).1 hcalled
    closing := fun h => absurd h hshuttingDown
    down := hdown }

/-- The heartbeat thread goes on. -/
theorem Ordered.beat {heartbeat : HeartbeatPoint} (hs : s.Ordered)
    (hheartbeat : s.heartbeat ≠ .exited ∧ s.heartbeat ≠ .unstarted)
    (hstarted : heartbeat ≠ .unstarted) : Ordered { s with heartbeat := heartbeat } :=
  { hs with
    unstarted := fun h => absurd (hs.unstarted h) hheartbeat.2
    started := fun _ => hstarted
    joined := fun h => absurd (hs.joined h) hheartbeat.1
    past := fun h => absurd (hs.past h) hheartbeat.1 }

/-- **Step lemma.** -/
theorem ordered_step (hs : s.Ordered) (h : s.step env a = some t) : t.Ordered := by
  obtain ⟨hended, hmoves⟩ := step_moves h
  have hnotExited := main_ne_exited hended
  cases hmoves with
  | ignore hrunning => exact hs
  | signal hrunning =>
    have hstop := hs.running hrunning
    refine { hs with
      running := fun h => absurd h Bool.false_ne_true
      launched := ?_
      closing := fun h => absurd (show StopPoint.called = .shuttingDown from h) (by decide)
      down := ?_ }
    · intro hmain
      exact absurd (hrunning.symm.trans (hs.launched hmain).2) (by decide)
    · intro hdown
      have hbefore := hs.down hdown
      rw [hstop] at hbefore
      exact absurd hbefore (by decide)
  | stopNull hstop hserver =>
    exact hs.stopTo (by rw [hstop]; decide) (fun h => absurd h (by decide)) fun _ => .inl rfl
  | shutdown hstop hserver =>
    have hup : s.server.isUp = true := by
      cases hbefore : s.server with
      | down => exact absurd (hstop ▸ hs.down hbefore) (by decide)
      | serving => rfl
      | closing => rfl
      | unbuilt => exact absurd (hbefore ▸ hserver) (by decide)
      | failed => exact absurd (hbefore ▸ hserver) (by decide)
    have hearly : s.main.destructing = false := Bool.eq_false_iff.mpr fun hdestructing =>
      absurd (hup.symm.trans (hs.alone hdestructing)) (by decide)
    have hon : Ordered { s with stop := .joining } :=
      hs.stopTo (by rw [hstop]; decide) (fun h => absurd h (by decide)) fun _ => .inl rfl
    exact { hon with
      launched := fun hmain => absurd (hstop.symm.trans (hs.launched hmain).1) (by decide)
      running := fun hrunning => absurd (hstop.symm.trans (hs.running hrunning)) (by decide)
      unbuilt := fun hmain => absurd (hs.unbuilt hmain ▸ hserver) (by decide)
      closing := fun _ => rfl
      down := fun h => absurd (show NodeServer.closing = .down from h) (by decide)
      answered := fun h => absurd h.symm Bool.false_ne_true
      alone := fun h => absurd (hearly.symm.trans h) (by decide) }
  | down hstop hcalls =>
    have hclosing := hs.closing hstop
    have hon : Ordered { s with stop := .joining } :=
      hs.stopTo (by rw [hstop]; decide) (fun h => absurd h (by decide)) fun _ => .inl rfl
    exact { hon with
      unbuilt := fun hmain => absurd ((hs.unbuilt hmain).symm.trans hclosing) (by decide)
      closing := fun h => absurd (show StopPoint.joining = .shuttingDown from h) (by decide)
      down := fun _ => .inl rfl
      answered := fun _ => hcalls
      alone := fun _ => rfl }
  | joinNothing hstop hheartbeat =>
    exact hs.stopTo (by rw [hstop]; decide) (fun h => absurd h (by decide)) fun _ => .inr rfl
  | join hstop hheartbeat =>
    have hjoined : Ordered { s with stop := .returned } :=
      hs.stopTo (by rw [hstop]; decide) (fun h => absurd h (by decide)) fun _ => .inr rfl
    exact { hjoined with joined := fun _ => hheartbeat }
  | start success hmain => exact ordered_start hs hmain
  | bind success hmain hfree =>
    refine ordered_bind hs hmain ?_
    cases success <;> decide
  | registered hmain hfree => exact ordered_registered hs hmain
  | abort hmain hfree => exact ordered_abort hs hmain
  | leaveStop success hmain hserver hrunning =>
    have hstop := hs.running hrunning
    have hfreed : s.owner.freed = false := hs.freed.trans (by rw [hmain]; rfl)
    have hon : Ordered { s with owner := s.owner, main := .stopping } :=
      hs.destroy hs.settled hfreed hserver rfl (hs.started (.inl hmain))
        (fun h => absurd h (by decide)) fun h => absurd h Bool.false_ne_true
    refine { hon with
      running := fun h => absurd h Bool.false_ne_true
      launched := fun h => absurd (show NodeMain.stopping = .launched from h) (by decide)
      closing := fun h => absurd (show StopPoint.called = .shuttingDown from h) (by decide)
      down := fun hdown => absurd (hstop ▸ hs.down hdown) (by decide) }
  | leave success hmain hserver hrunning hfree =>
    have hfreed : s.owner.freed = false := hs.freed.trans (by rw [hmain]; rfl)
    exact hs.destroy hs.settled hfreed hserver rfl (hs.started (.inl hmain))
      (fun h => absurd h (by decide)) fun h => absurd h Bool.false_ne_true
  | destroy success hmain hstop =>
    exact hs.onward hmain rfl rfl rfl rfl fun h => absurd h Bool.false_ne_true
  | destroyThread success hmain hjoined =>
    have hstarted := hs.started (.inr (by rw [hmain]; rfl))
    exact hs.onward hmain rfl rfl rfl rfl fun _ => hs.joined (hjoined.resolve_left hstarted)
  | terminate success hmain hjoined =>
    exact hs.onward hmain rfl rfl rfl rfl fun h => absurd h Bool.false_ne_true
  | destroyServer success hmain =>
    exact hs.onward hmain rfl rfl rfl rfl fun _ => hs.past (by rw [hmain]; rfl)
  | destroyService success hmain =>
    exact hs.onward hmain rfl rfl rfl rfl fun _ => hs.past (by rw [hmain]; rfl)
  | free success owner hmain howner =>
    have hdestructing : s.main.destructing = true := by rw [hmain]; rfl
    have hfreed : owner.freed = true := by
      cases PoolOwner.step_moves howner with
      | free hfreed => rfl
    exact hs.destroy (PoolOwner.settled_step hs.settled howner) hfreed (hs.alone hdestructing) rfl
      (hs.started (.inr hdestructing)) (fun h => absurd h (by decide))
      fun _ => hs.past (by rw [hmain]; rfl)
  | drain success a owner hmain ha howner =>
    have hfreed : s.owner.freed = true := hs.freed.trans (by rw [hmain]; rfl)
    have hallows : s.owner.allows a = true := by
      rcases ha with rfl | rfl
      · exact hfreed
      · rfl
    obtain ⟨hsettled, hsame, -⟩ := settled_poolStep hs.settled hallows howner
    exact hs.own hsettled hsame hnotExited
  | exit success owner hmain howner =>
    have hdestructing : s.main.destructing = true := by rw [hmain]; rfl
    have hfreed : s.owner.freed = true := hs.freed.trans (by rw [hmain]; rfl)
    obtain ⟨hsettled, hsame, hpool⟩ := settled_poolStep hs.settled rfl howner
    refine hs.destroy hsettled (hsame.trans hfreed) (hs.alone hdestructing) rfl
      (hs.started (.inr hdestructing)) (fun _ => ?_) fun _ => hs.past (by rw [hmain]; rfl)
    generalize hnext : owner.pool = next at hpool
    cases ThreadPool.step_moves hpool with
    | join hdestructor hexited => rfl
  | test success hheartbeat =>
    refine hs.beat (by rw [hheartbeat]; decide) ?_
    cases s.running <;> decide
  | beat success hheartbeat =>
    refine hs.beat (by rw [hheartbeat]; decide) ?_
    cases success <;> decide
  | registerAgain success hheartbeat => exact hs.beat (by rw [hheartbeat]; decide) (by decide)
  | wake success hheartbeat => exact hs.beat (by rw [hheartbeat]; decide) (by decide)
  | turnAway request tReqId hserver =>
    exact hs.call (by rw [hserver]; rfl)
  | arrive request tReqId task hserver htask =>
    have hcalled : Ordered { s with calls := s.calls ++ [.received task tReqId] } :=
      hs.call (by rw [hserver]; rfl)
    exact { hcalled with }
  | refuse k task tReqId hcall hhandler =>
    have hcalled : Ordered { s with calls := s.calls.set k .reporting } :=
      hs.call (hs.serverUp hcall rfl)
    exact { hcalled with }
  | stopped k task tReqId request hcall hstop =>
    have hcalled : Ordered { s with calls := s.calls.set k .reporting } :=
      hs.call (hs.serverUp hcall rfl)
    exact { hcalled with }
  | enqueue k task tReqId handler owner hcall hhandler hstop howner =>
    have hallows : s.owner.allows (.enqueue (.outside tReqId)) = true := by
      rw [PoolOwner.allows, (hs.intact hcall rfl).1]
      rfl
    obtain ⟨hsettled, hsame, -⟩ := settled_poolStep hs.settled hallows howner
    have howned := hs.own hsettled hsame hnotExited
    have hcalled : Ordered { s with owner := owner, calls := s.calls.set k .returned } :=
      howned.call (hs.serverUp hcall rfl)
    exact { hcalled with }
  | answer k hcall => exact hs.call (hs.serverUp hcall rfl)
  | pool a owner ha howner =>
    obtain ⟨hsettled, hsame, -⟩ := settled_poolStep hs.settled (allows_ofThreads ha) howner
    exact hs.own hsettled hsame hnotExited
  | report i n task handler owner hn htask hhandler howner =>
    have howned := hs.own (PoolOwner.settled_step hs.settled howner) (use_freed howner) hnotExited
    exact { howned with }
  | reported i owner howner =>
    exact hs.own (PoolOwner.settled_step hs.settled howner) (leave_freed howner) hnotExited
  | finish i owner howner =>
    exact hs.own (PoolOwner.settled_step hs.settled howner) (finish_freed howner) hnotExited

-- ---------------------------------------------------------------------------
-- What becomes of the tasks
-- ---------------------------------------------------------------------------

/-- What the jobs execute that have begun their report. -/
def begun (s : NodeProcess) : List Task := s.owner.begun.filterMap fun n => s.jobs[n]?

/-- A task that was received is at `OnTaskReceived`, was refused or is a job, and the
reports are those of the tasks refused and of the jobs that have begun theirs. -/
structure Booked (env : NodeEnv) (s : NodeProcess) : Prop where
  counted : s.jobs.length = s.owner.pool.nextId
  received : s.received.Perm (s.calls.filterMap RunTaskPoint.task? ++ (s.refused ++ s.jobs))
  reported : s.reported.Perm
    ((s.refused ++ s.begun).flatMap (WorkerNode.reports env.exec env.workerId))

/-- `OnTaskReceived` is done with a task. -/
theorem calls_drop {calls : List RunTaskPoint} {k : Nat} {task : Task} {tReqId : String}
    {x : RunTaskPoint} (hcall : calls[k]? = some (.received task tReqId)) (hx : x.task? = none) :
    (calls.filterMap RunTaskPoint.task?).Perm
      (task :: (calls.set k x).filterMap RunTaskPoint.task?) := by
  obtain ⟨rest, hs, ht⟩ := Parties.perm_set RunTaskPoint.task? hcall
  have hdropped := ht x
  rw [hx] at hdropped
  exact hs.trans (hdropped.symm.cons task)

/-- A call without a task goes on. -/
theorem calls_same {calls : List RunTaskPoint} {k : Nat} {call x : RunTaskPoint}
    (hcall : calls[k]? = some call) (hnone : call.task? = none) (hx : x.task? = none) :
    ((calls.set k x).filterMap RunTaskPoint.task?).Perm
      (calls.filterMap RunTaskPoint.task?) := by
  obtain ⟨rest, hs, ht⟩ := Parties.perm_set RunTaskPoint.task? hcall
  have hsame := ht x
  rw [hx] at hsame
  rw [hnone] at hs
  exact hsame.trans hs.symm

/-- The report of a job is the one of its task. -/
theorem reports_job {task : Task} {handler : WorkerNode.TaskHandler}
    (hhandler : env.registry task.funcName = some handler) :
    WorkerNode.reports env.exec env.workerId task =
      [WorkerNode.executeJob env.exec task handler] := by
  have hexec : env.exec.registry task.funcName = some handler := hhandler
  rw [WorkerNode.reports, WorkerNode.onTaskReceived, hexec]
  rfl

/-- The pool moves, and nobody enqueues. -/
theorem Booked.own {owner : PoolOwner} (hs : Booked env s)
    (hnext : owner.pool.nextId = s.owner.pool.nextId) (hbegun : owner.begun.Perm s.owner.begun) :
    Booked env { s with owner := owner } where
  counted := hs.counted.trans hnext.symm
  received := hs.received
  reported := by
    refine hs.reported.trans (List.Perm.flatMap_right _ (List.Perm.append_left _ ?_))
    exact (hbegun.filterMap _).symm

/-- A step of the pool in which nobody enqueues. -/
theorem nextId_poolStep {owner : PoolOwner} {a : ThreadAction} (h : s.owner.poolStep a = some owner)
    (ha : ∀ caller, a ≠ .enqueue caller) : owner.pool.nextId = s.owner.pool.nextId := by
  obtain ⟨pool, hpool, rfl⟩ := Option.map_eq_some_iff.mp h
  rcases (PoolOwner.pool_effect hpool).1 with hsame | ⟨-, caller, hcaller⟩
  · exact hsame
  · exact absurd hcaller (ha caller)

/-- The threads of the pool do not enqueue. -/
theorem ofThreads_ne {a : ThreadAction} (ha : ofThreads a = true) (caller : Caller) :
    a ≠ .enqueue caller := by
  rintro rfl
  exact Bool.false_ne_true ha

/-- A task is refused, and reported at once. -/
theorem Booked.refuse {k : Nat} {task : Task} {tReqId : String} (hs : Booked env s)
    (hcall : s.calls[k]? = some (.received task tReqId)) : Booked env { s with
      calls := s.calls.set k .reporting
      refused := s.refused ++ [task]
      reported := s.reported ++ WorkerNode.reports env.exec env.workerId task } where
  counted := hs.counted
  received := by
    have hdrop : (s.calls.filterMap RunTaskPoint.task?).Perm
        (task :: (s.calls.set k .reporting).filterMap RunTaskPoint.task?) := calls_drop hcall rfl
    refine hs.received.trans ((hdrop.append_right _).trans ?_)
    refine List.perm_middle.symm.trans (List.Perm.append_left _ ?_)
    show (task :: (s.refused ++ s.jobs)).Perm (s.refused ++ [task] ++ s.jobs)
    rw [List.append_assoc]
    exact List.perm_middle.symm
  reported := by
    show (s.reported ++ _).Perm ((s.refused ++ [task] ++ s.begun).flatMap _)
    rw [List.append_assoc, List.singleton_append]
    refine List.Perm.trans ?_ (List.perm_middle.symm.flatMap_right _)
    rw [List.flatMap_cons]
    exact (hs.reported.append_right _).trans List.perm_append_comm

/-- A task becomes a job. -/
theorem Booked.enqueue {k : Nat} {task : Task} {tReqId : String} {owner : PoolOwner}
    (hs : Booked env s) (hsettled : s.owner.Settled)
    (hcall : s.calls[k]? = some (.received task tReqId)) (hstop : s.owner.pool.stop = false)
    (howner : s.owner.poolStep (.enqueue (.outside tReqId)) = some owner) : Booked env { s with
      owner := owner
      calls := s.calls.set k .returned
      jobs := s.jobs ++ [task] } := by
  have hbegun := PoolOwner.begun_pool howner
  obtain ⟨pool, hpool, rfl⟩ := Option.map_eq_some_iff.mp howner
  have hnext : pool.nextId = s.owner.pool.nextId + 1 := by
    cases ThreadPool.step_moves hpool with
    | refuse caller tReqId hcaller hstopped => exact absurd (hstop.symm.trans hstopped) (by decide)
    | accept caller tReqId hcaller hstop => rfl
  constructor
  · show (s.jobs ++ [task]).length = pool.nextId
    rw [List.length_append, List.length_singleton, hs.counted, hnext]
  · have hdrop : (s.calls.filterMap RunTaskPoint.task?).Perm
        (task :: (s.calls.set k .returned).filterMap RunTaskPoint.task?) := calls_drop hcall rfl
    refine hs.received.trans ((hdrop.append_right _).trans ?_)
    refine List.perm_middle.symm.trans (List.Perm.append_left _ ?_)
    show (task :: (s.refused ++ s.jobs)).Perm (s.refused ++ (s.jobs ++ [task]))
    rw [← List.append_assoc]
    exact (List.perm_append_singleton _ _).symm
  · refine hs.reported.trans (List.Perm.flatMap_right _ (List.Perm.append_left _ ?_))
    refine List.Perm.trans ?_ (hbegun.filterMap _).symm
    -- a job that has begun was there before
    refine List.Perm.of_eq (List.filterMap_congr fun n hn => ?_)
    obtain ⟨phase, hphase, -⟩ := PoolOwner.mem_begun.mp hn
    have hlt : n < s.jobs.length := by
      rw [hs.counted, ← hsettled.phased]
      exact (List.getElem?_eq_some_iff.mp hphase).1
    exact (List.getElem?_append_left hlt).symm

/-- A job begins its report. -/
theorem Booked.report {i n : Nat} {task : Task} {handler : WorkerNode.TaskHandler}
    {owner : PoolOwner} (hs : Booked env s) (hn : s.owner.pool.callable? i = some n)
    (htask : s.jobs[n]? = some task) (hhandler : env.registry task.funcName = some handler)
    (howner : s.owner.step (.use i) = some owner) : Booked env { s with
      owner := owner
      reported := s.reported ++ [WorkerNode.executeJob env.exec task handler] } := by
  obtain ⟨n', hn', hbegun, hpool⟩ := PoolOwner.begun_use howner
  obtain rfl : n = n' := Option.some.inj (hn.symm.trans hn')
  refine ⟨hs.counted.trans (by rw [hpool]), hs.received, ?_⟩
  have hjobs : (owner.begun.filterMap fun n => s.jobs[n]?).Perm (task :: s.begun) := by
    refine (hbegun.filterMap _).trans ?_
    rw [List.filterMap_cons, htask]
    exact List.Perm.refl _
  show (s.reported ++ _).Perm
    ((s.refused ++ owner.begun.filterMap fun n => s.jobs[n]?).flatMap _)
  refine List.Perm.trans ?_ ((hjobs.append_left _).flatMap_right _).symm
  refine List.Perm.trans ?_ (List.perm_middle.symm.flatMap_right _)
  rw [List.flatMap_cons, reports_job hhandler]
  exact (hs.reported.append_right _).trans List.perm_append_comm

/-- **Step lemma.** -/
theorem booked_step (hordered : s.Ordered) (hs : Booked env s) (h : s.step env a = some t) :
    Booked env t := by
  obtain ⟨-, hmoves⟩ := step_moves h
  cases hmoves with
  | free success owner hmain howner =>
    have howned : Booked env { s with owner := owner } := by
      cases PoolOwner.step_moves howner with
      | free hfreed => exact hs.own rfl (List.Perm.refl _)
    exact { howned with }
  | drain success a owner hmain ha howner =>
    refine hs.own (nextId_poolStep howner ?_) (PoolOwner.begun_pool howner)
    rintro caller rfl
    exact absurd ha (by simp)
  | exit success owner hmain howner =>
    have howned := hs.own (nextId_poolStep howner fun caller => by simp)
      (PoolOwner.begun_pool howner)
    exact { howned with }
  | turnAway request tReqId hserver =>
    refine ⟨hs.counted, ?_, hs.reported⟩
    have hnone : [RunTaskPoint.returned].filterMap RunTaskPoint.task? = [] := rfl
    show s.received.Perm ((s.calls ++ [RunTaskPoint.returned]).filterMap RunTaskPoint.task? ++
      (s.refused ++ s.jobs))
    rw [List.filterMap_append, hnone, List.append_nil]
    exact hs.received
  | arrive request tReqId task hserver htask =>
    refine ⟨hs.counted, ?_, hs.reported⟩
    show (s.received ++ [task]).Perm ((s.calls ++ [_]).filterMap _ ++ _)
    rw [List.filterMap_append, List.append_assoc]
    refine (List.perm_append_singleton _ _).trans ((hs.received.cons task).trans ?_)
    exact List.perm_middle.symm
  | refuse k task tReqId hcall hhandler => exact hs.refuse hcall
  | stopped k task tReqId request hcall hstop =>
    exact absurd ((hordered.intact hcall rfl).2.symm.trans hstop) (by decide)
  | enqueue k task tReqId handler owner hcall hhandler hstop howner =>
    exact hs.enqueue hordered.settled hcall hstop howner
  | answer k hcall =>
    refine ⟨hs.counted, hs.received.trans ?_, hs.reported⟩
    exact ((calls_same hcall rfl rfl).append_right _).symm
  | pool a owner ha howner =>
    exact hs.own (nextId_poolStep howner (ofThreads_ne ha)) (PoolOwner.begun_pool howner)
  | report i n task handler owner hn htask hhandler howner =>
    exact hs.report hn htask hhandler howner
  | reported i owner howner =>
    obtain ⟨hbegun, hpool⟩ := PoolOwner.begun_leave howner
    exact hs.own (by rw [hpool]) hbegun
  | finish i owner howner =>
    rw [PoolOwner.step, Option.ite_none_right_eq_some] at howner
    exact hs.own (nextId_poolStep howner.2 fun caller => by simp) (PoolOwner.begun_pool howner.2)
  | _ => exact { hs with }

-- ---------------------------------------------------------------------------
-- Every run
-- ---------------------------------------------------------------------------

theorem ordered_launch {threads : Nat} (hthreads : 0 < threads) : (launch threads).Ordered where
  settled := PoolOwner.settled_construct hthreads
  running := fun h => absurd h Bool.false_ne_true
  launched := fun _ => ⟨rfl, rfl⟩
  unbuilt := fun _ => rfl
  closing := fun h => absurd (show StopPoint.notCalled = .shuttingDown from h) (by decide)
  down := fun h => absurd (show NodeServer.unbuilt = .down from h) (by decide)
  answered := fun _ => rfl
  alone := fun h => absurd h Bool.false_ne_true
  freed := rfl
  exited := fun h => absurd (show NodeMain.launched = .exited from h) (by decide)
  unstarted := fun _ => rfl
  started := fun h => absurd (show NodeMain.launched = .awaiting from
    h.resolve_right Bool.false_ne_true) (by decide)
  joined := fun h => absurd h Bool.false_ne_true
  past := fun h => absurd h Bool.false_ne_true

theorem booked_launch (env : NodeEnv) (threads : Nat) : Booked env (launch threads) :=
  ⟨rfl, List.Perm.refl _, List.Perm.refl _⟩

/-- The invariants of every run. -/
theorem reached {threads : Nat} (hthreads : 0 < threads)
    (hrun : run (step env) (launch threads) actions = some s) : s.Ordered ∧ Booked env s :=
  run_invariant (P := fun u => u.Ordered ∧ Booked env u)
    (fun _ _ _ hu hstep => ⟨ordered_step hu.1 hstep, booked_step hu.1 hu.2 hstep⟩) hrun
    ⟨ordered_launch hthreads, booked_launch env threads⟩

/-- A list is what stands under its numbers. -/
theorem filterMap_numbers {α : Type} (l : List α) :
    ((List.range l.length).filterMap fun n => l[n]?) = l := by
  induction l with
  | nil => rfl
  | cons x l ih =>
    rw [List.length_cons, List.range_succ_eq_map, List.filterMap_cons, List.filterMap_map]
    exact congrArg (x :: ·) ih

/-- Every job has begun its report. -/
theorem begun_all (hs : s.Ordered) (hbooked : Booked env s)
    (hreturned : s.owner.pool.destructor = .returned) : s.begun.Perm s.jobs := by
  obtain ⟨-, hdone, -⟩ := hs.settled.drained hreturned
  have hall : s.owner.begun.Perm (List.range s.jobs.length) := by
    refine (List.perm_ext_iff_of_nodup (PoolOwner.numbered_nodup _) List.nodup_range).mpr ?_
    intro n
    show n ∈ s.owner.begun ↔ n ∈ List.range s.jobs.length
    rw [PoolOwner.mem_begun, List.mem_range, hbooked.counted]
    constructor
    · rintro ⟨phase, hphase, -⟩
      exact (List.getElem?_eq_some_iff.mp hphase).1.trans_eq hs.settled.phased
    · intro hn
      exact ⟨.done, hdone n hn, by decide⟩
  exact (hall.filterMap _).trans (List.Perm.of_eq (filterMap_numbers s.jobs))

/-- What is promised about a worker process. -/
structure Closes (env : NodeEnv) (s : NodeProcess) : Prop where
  /-- nobody but the jobs is in a node that something was taken from, or in a stopped pool -/
  intact : s.owner.freed = true ∨ s.owner.pool.stop = true →
    s.heartbeat = .exited ∧ s.calls.all RunTaskPoint.isReturned = true
  /-- a report with a client that is gone is one of a job that was late -/
  late : ∀ n ∈ s.owner.dangling, n ∈ s.owner.left
  /-- a process that has exited has executed every job once and reported every task once,
  and the late jobs are those that used a client that was gone -/
  complete : s.main = .exited → s.owner.pool.AllRun ∧
    s.reported.Perm (s.received.flatMap (WorkerNode.reports env.exec env.workerId)) ∧
    s.owner.dangling.Perm s.owner.left

/-- **How a worker process ends.** In every run, whenever the signals come. -/
theorem worker_shutdown {threads : Nat} (hthreads : 0 < threads)
    (hrun : run (step env) (launch threads) actions = some s) : Closes env s := by
  obtain ⟨hordered, hbooked⟩ := reached hthreads hrun
  refine ⟨?_, hordered.settled.dangles, ?_⟩
  · intro hgone
    have hfreed : s.owner.freed = true := by
      rcases hgone with hfreed | hstop
      · exact hfreed
      · exact hordered.settled.order (hordered.settled.awake.stopped.mp hstop)
    obtain ⟨hdestructing, hpast⟩ := pastClient_destructing (hordered.freed.symm.trans hfreed)
    exact ⟨hordered.past hpast, hordered.answered (hordered.alone hdestructing)⟩
  · intro hexited
    have hreturned := hordered.exited hexited
    obtain ⟨hallRun, -, hdangling⟩ := hordered.settled.drained hreturned
    refine ⟨hallRun, ?_, hdangling⟩
    have hdown : s.server.isUp = false := hordered.alone (by rw [hexited]; rfl)
    have hcalls : s.calls.filterMap RunTaskPoint.task? = [] := by
      rw [List.filterMap_eq_nil_iff]
      intro call hcall
      have hcallReturned := List.all_eq_true.mp (hordered.answered hdown) call hcall
      cases call with
      | returned => rfl
      | received task tReqId => exact absurd hcallReturned Bool.false_ne_true
      | reporting => exact absurd hcallReturned Bool.false_ne_true
    have hreceived := hbooked.received
    rw [hcalls, List.nil_append] at hreceived
    refine hbooked.reported.trans (List.Perm.flatMap_right _ ?_)
    exact ((begun_all hordered hbooked hreturned).append_left _).trans hreceived.symm

/-- A worker that knows one function, with its signal handler on the main thread. -/
def echoNode : NodeEnv where
  workerId := "w"
  registry funcName := if funcName = "echo" then some .returned else none
  dump _ := .ok "{}"
  parse _ := .ok (.object [])
  onMain := true

def echoTask : PbTask := { taskId := "t", jobId := "j", funcName := "echo" }

/-- The process starts and is given a task, -/
def startWithTask : List Action :=
  [.main true, .main true, .main true, .arrive ⟨some echoTask⟩ "req-1", .handle 0,
    .pool (.notify none), .pool (.test 0), .pool (.begin 0)]

/-- which it executes while it is shut down. -/
def lateJob : List Action :=
  startWithTask ++ [.signal, .stop, .stop, .heartbeat true, .stop, .main true, .main true,
    .main true, .main true, .main true, .main true, .report 0, .reported 0, .finish 0,
    .pool (.clear 0), .main true, .pool (.test 0), .main true]

/-- A job that is late. -/
theorem worker_shutdown_late : ∃ s, run (step echoNode) (launch 1) lateJob = some s ∧
    s.main = .exited ∧ s.owner.dangling = [0] ∧ s.received.length = 1 ∧ Closes echoNode s := by
  have hend : ((run (step echoNode) (launch 1) lateJob).any fun s =>
      s.main = .exited ∧ s.owner.dangling = [0] ∧ s.received.length = 1) = true := by
    decide
  obtain ⟨s, hrun, hs⟩ := (Option.any_eq_true _ _).mp hend
  obtain ⟨hexited, hdangling, hreceived⟩ := of_decide_eq_true hs
  exact ⟨s, hrun, hexited, hdangling, hreceived, worker_shutdown Nat.one_pos hrun⟩

end NodeProcess

end DistTaskSystem
