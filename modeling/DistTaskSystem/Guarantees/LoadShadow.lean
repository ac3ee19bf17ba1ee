import DistTaskSystem.Guarantees.InflightAccounting
import Mathlib.Data.List.Count

/-!
# DTS — the load shadow

`running_task_count` is meant to shadow the work a worker has been given. Beside
the cluster this module keeps the ledger that the counter is compared with: a
booking for each PrebookTask, closed by the dispatch that fails or by a processed
report of its task. Bookings are the only thing the counter follows. A heartbeat
sets it to the constant that `HeartbeatLoop` sends, and neither DoDispatch nor
UpdateTaskStatus touches it, so the two part at the first heartbeat that finds work
outstanding and at the first booking that is closed.

## Results

* `Shadows.prebookTask`, `Shadows.handleHeartbeat_iff`, … — each operation.
* `step_shadows`     — which steps keep the counters right.
* `load_shadow_iff`  — in which runs they are right all the way.
-/

namespace DistTaskSystem

open Cluster Runs

-- ---------------------------------------------------------------------------
-- The ledger
-- ---------------------------------------------------------------------------

/-- A call of PrebookTask, with the entry it is for. -/
structure Booking where
  taskId : String
  streamId : Nat
  workerId : String
deriving DecidableEq, Repr

def Dispatch.booking (job : Dispatch) : Booking :=
  ⟨job.task.taskId, job.streamId, job.worker.workerId⟩

/-- The bookings on a worker. -/
def bookedOn (bookings : List Booking) (workerId : String) : Nat :=
  bookings.countP fun b => b.workerId = workerId

/-- A cluster, with the bookings that are open and the ids that HandleRegister was called
with. No function of the cluster reads the two lists. -/
structure LoadShadow where
  cluster : Cluster
  bookings : List Booking := []
  registrations : List String := []

/-- `running_tasks` of `HeartbeatLoop`. -/
def heartbeatRunningTasks : Int := 0

/-- The heartbeats are those of `HeartbeatLoop`. -/
def Cluster.Action.asSent : Cluster.Action → Bool
  | .world (.heartbeat _ runningTaskCount) => runningTaskCount = heartbeatRunningTasks
  | _ => true

namespace LoadShadow

/-- The job of a dispatch that fails. -/
def failedJob (s : Cluster) (i : Nat) : Option Dispatch :=
  match s.running[i]? with
  | some ⟨job, some answer⟩ => if answer.success then none else some job
  | _ => none

/-- The task of a report. -/
def reportedTask (s : Cluster) (j k : Nat) : Option Task :=
  (s.nodes[j]?).bind fun node => node.held[k]?

/-- The ledger after a step from `s` to `t`. The loop thread books a worker whenever it
enqueues a dispatch. -/
def nextBookings (bookings : List Booking) (s t : Cluster) : Cluster.Action → List Booking
  | .loop _ => bookings ++
      (t.loop.dispatchPool.drop s.loop.dispatchPool.length).map Dispatch.booking
  | .pool (.settle i _) =>
    match failedJob s i with
    | some job => bookings.erase job.booking
    | none => bookings
  | .world (.report j k true) =>
    match reportedTask s j k with
    | some task => bookings.filter fun b => b.taskId ≠ task.taskId
    | none => bookings
  | _ => bookings

def nextRegistrations (registrations : List String) (s : Cluster) : Cluster.Action → List String
  | .world (.register j) => registrations ++ (s.nodes[j]?.map WorkerNode.workerId).toList
  | _ => registrations

def step (env : LoopEnv) (s : LoadShadow) (a : Cluster.Action) : Option LoadShadow :=
  if a.asSent then
    (s.cluster.step env a).map fun t =>
      ⟨t, nextBookings s.bookings s.cluster t a, nextRegistrations s.registrations s.cluster a⟩
  else none

-- ---------------------------------------------------------------------------
-- The property, and the steps that keep it
-- ---------------------------------------------------------------------------

/-- The counter of each registered worker that has not registered again is the number of
the bookings on it. -/
def Shadows (m : WorkerManager) (bookings : List Booking) (registrations : List String) : Prop :=
  ∀ w ∈ m.workers, registrations.count w.workerId = 1 →
    w.runningTaskCount = bookedOn bookings w.workerId

/-- A worker the counter is compared for. -/
def Followed (m : WorkerManager) (registrations : List String) (workerId : String) : Prop :=
  m.Registered workerId ∧ registrations.count workerId = 1

def InStep (s : LoadShadow) : Prop :=
  Shadows s.cluster.loop.workerManager s.bookings s.registrations

instance (s : LoadShadow) : Decidable s.InStep :=
  inferInstanceAs (Decidable (∀ w ∈ s.cluster.loop.workerManager.workers,
    s.registrations.count w.workerId = 1 → w.runningTaskCount = bookedOn s.bookings w.workerId))

/-- A heartbeat finds no work outstanding on a worker that is followed, and a dispatch
that fails or a report that is processed closes no booking on one. -/
def Harmless (s : LoadShadow) : Cluster.Action → Prop
  | .world (.heartbeat j _) => ∀ node ∈ s.cluster.nodes[j]?,
      Followed s.cluster.loop.workerManager s.registrations node.workerId →
        bookedOn s.bookings node.workerId = 0
  | .pool (.settle i _) => ∀ job ∈ failedJob s.cluster i, job.booking ∈ s.bookings →
      ¬ Followed s.cluster.loop.workerManager s.registrations job.worker.workerId
  | .world (.report j k true) => ∀ task ∈ reportedTask s.cluster j k, ∀ b ∈ s.bookings,
      b.taskId = task.taskId →
        ¬ Followed s.cluster.loop.workerManager s.registrations b.workerId
  | _ => True

/-- What is known of the ids. -/
structure Known (s : LoadShadow) : Prop where
  registered : ∀ id, s.cluster.loop.workerManager.Registered id → id ∈ s.registrations
  booked : ∀ b ∈ s.bookings, b.workerId ∈ s.registrations
  candidates : ∀ c workerIdx entries, s.cluster.work = .batch c workerIdx entries →
    ∀ w ∈ c.workers, w.workerId ∈ s.registrations

-- ---------------------------------------------------------------------------
-- The operations of the manager
-- ---------------------------------------------------------------------------

section Operations

variable {m : WorkerManager} {bookings bookings' : List Booking} {registrations : List String}
  {workerId : String}

theorem bookedOn_append (bookings bookings' : List Booking) (workerId : String) :
    bookedOn (bookings ++ bookings') workerId =
      bookedOn bookings workerId + bookedOn bookings' workerId :=
  List.countP_append

theorem bookedOn_eq_zero :
    bookedOn bookings workerId = 0 ↔ ∀ b ∈ bookings, b.workerId ≠ workerId := by
  rw [bookedOn, List.countP_eq_zero]
  simp only [decide_eq_true_eq]

/-- **PrebookTask** counts the booking it makes. -/
theorem Shadows.prebookTask (h : Shadows m bookings registrations) (b : Booking) :
    Shadows (m.prebookTask b.workerId 1) (bookings ++ [b]) registrations := by
  intro w hw honce
  obtain ⟨v, hv, rfl⟩ := List.mem_map.mp hw
  rw [bookedOn_append]
  by_cases hid : v.workerId = b.workerId
  · rw [if_pos hid] at honce ⊢
    have hone : bookedOn [b] v.workerId = 1 := by simp [bookedOn, hid]
    show v.runningTaskCount + 1 = _
    rw [h v hv honce, hone]
    rfl
  · rw [if_neg hid] at honce ⊢
    have hzero : bookedOn [b] v.workerId = 0 := by simp [bookedOn, Ne.symm hid]
    rw [h v hv honce, hzero]
    rfl

/-- **A heartbeat** is right if there is no work outstanding. -/
theorem Shadows.handleHeartbeat_iff (h : Shadows m bookings registrations) (workerId : String)
    (now : Nat) :
    Shadows (m.handleHeartbeat workerId heartbeatRunningTasks now).2 bookings registrations ↔
      (Followed m registrations workerId → bookedOn bookings workerId = 0) := by
  rw [WorkerManager.handleHeartbeat]
  by_cases hreg : m.Registered workerId
  · rw [if_pos hreg]
    constructor
    · rintro hafter ⟨-, honce⟩
      obtain ⟨v, hv, rfl⟩ := List.mem_map.mp hreg
      have hset := hafter _ (List.mem_map_of_mem hv)
      rw [if_pos rfl] at hset
      exact (Int.natCast_eq_zero.mp (hset honce).symm)
    · intro hzero w hw honce
      obtain ⟨v, hv, rfl⟩ := List.mem_map.mp hw
      by_cases hid : v.workerId = workerId
      · rw [if_pos hid] at honce ⊢
        show heartbeatRunningTasks = (bookedOn bookings v.workerId : Int)
        rw [hid, hzero ⟨hreg, hid ▸ honce⟩]
        rfl
      · rw [if_neg hid] at honce ⊢
        exact h v hv honce
  · rw [if_neg hreg]
    exact iff_of_true h fun hfollowed => absurd hfollowed.1 hreg

/-- **HandleRegister** starts a worker at zero, and a second time it takes it out of what
is followed. -/
theorem Shadows.handleRegister (h : Shadows m bookings registrations)
    (hregistered : ∀ id, m.Registered id → id ∈ registrations)
    (hbooked : ∀ b ∈ bookings, b.workerId ∈ registrations) (workerId address : String)
    (now : Nat) :
    Shadows (m.handleRegister workerId address now) bookings (registrations ++ [workerId]) := by
  have hother : ∀ v : WorkerInfo, v.workerId ≠ workerId →
      (registrations ++ [workerId]).count v.workerId = registrations.count v.workerId := by
    intro v hid
    rw [List.count_append, List.count_singleton, if_neg (by simpa using Ne.symm hid)]
    rfl
  rw [WorkerManager.handleRegister]
  by_cases hreg : m.Registered workerId
  · rw [dif_pos hreg]
    intro w hw honce
    obtain ⟨v, hv, rfl⟩ := List.mem_map.mp hw
    by_cases hid : v.workerId = workerId
    · rw [if_pos hid] at honce
      -- this is not its first registration
      have hbefore : 0 < registrations.count workerId :=
        List.count_pos_iff.mpr (hregistered workerId hreg)
      have htwice : registrations.count workerId + 1 = 1 := by
        have hcount : (registrations ++ [workerId]).count v.workerId = 1 := honce
        rwa [hid, List.count_append, List.count_singleton_self] at hcount
      omega
    · rw [if_neg hid] at honce ⊢
      rw [hother v hid] at honce
      exact h v hv honce
  · rw [dif_neg hreg]
    intro w hw honce
    rcases List.mem_append.mp hw with hold | hnew
    · have hid : w.workerId ≠ workerId := by
        intro hid
        exact hreg (hid ▸ List.mem_map_of_mem hold)
      rw [hother w hid] at honce
      exact h w hold honce
    · obtain rfl := List.mem_singleton.mp hnew
      -- a worker that has never registered has not been booked
      have hfirst : workerId ∉ registrations := by
        have hcount : registrations.count workerId + 1 = 1 := by
          rwa [List.count_append, List.count_singleton_self] at honce
        exact List.count_eq_zero.mp (by omega)
      have hzero : bookedOn bookings workerId = 0 :=
        bookedOn_eq_zero.mpr fun b hb hid => hfirst (hid ▸ hbooked b hb)
      show (0 : Int) = (bookedOn bookings workerId : Int)
      rw [hzero]
      rfl

/-- **The patrol** removes workers. -/
theorem Shadows.pruneDeadWorkers (h : Shadows m bookings registrations) (now : Nat) :
    Shadows (m.pruneDeadWorkers now).2 bookings registrations :=
  fun w hw honce => h w (List.mem_of_mem_filter hw) honce

/-- **A ledger that changes** without the counters is right where it has not changed. -/
theorem Shadows.ledger_iff (h : Shadows m bookings registrations) :
    Shadows m bookings' registrations ↔ ∀ workerId, Followed m registrations workerId →
      bookedOn bookings' workerId = bookedOn bookings workerId := by
  constructor
  · rintro h' _ ⟨hreg, honce⟩
    obtain ⟨w, hw, rfl⟩ := List.mem_map.mp hreg
    exact Int.natCast_inj.mp ((h' w hw honce).symm.trans (h w hw honce))
  · intro hsame w hw honce
    rw [h w hw honce, hsame w.workerId ⟨List.mem_map_of_mem hw, honce⟩]

/-- A booking less on a worker. -/
theorem bookedOn_erase (b : Booking) (workerId : String) :
    bookedOn (bookings.erase b) workerId =
      bookedOn bookings workerId - if b ∈ bookings ∧ b.workerId = workerId then 1 else 0 := by
  by_cases hb : b ∈ bookings
  · have hperm := (List.perm_cons_erase hb).countP_eq fun b' => decide (b'.workerId = workerId)
    rw [List.countP_cons] at hperm
    simp only [bookedOn, hperm, hb, true_and, decide_eq_true_eq]
    omega
  · rw [List.erase_of_not_mem hb, if_neg fun h => hb h.1, Nat.sub_zero]

theorem bookedOn_filter (q : Booking → Bool) (workerId : String) :
    bookedOn (bookings.filter q) workerId = bookedOn bookings workerId ↔
      ∀ b ∈ bookings, b.workerId = workerId → q b = true := by
  have hsplit := bookings.countP_eq_countP_filter_add
    (fun b => decide (b.workerId = workerId)) q
  rw [bookedOn, bookedOn, hsplit, left_eq_add, List.countP_eq_zero]
  simp only [List.mem_filter, decide_eq_true_eq, Bool.not_eq_true', and_imp]
  refine forall₂_congr fun b _ => ?_
  cases q b <;> simp

/-- **A failed dispatch** closes its booking, and nobody tells the counter. -/
theorem Shadows.erase_iff (h : Shadows m bookings registrations) (b : Booking) :
    Shadows m (bookings.erase b) registrations ↔
      (b ∈ bookings → ¬ Followed m registrations b.workerId) := by
  rw [h.ledger_iff]
  constructor
  · intro hsame hb hfollowed
    have hpos : bookedOn bookings b.workerId ≠ 0 := by
      rw [Ne, bookedOn_eq_zero]
      exact fun hnone => hnone b hb rfl
    have heq := hsame b.workerId hfollowed
    rw [bookedOn_erase, if_pos ⟨hb, rfl⟩] at heq
    omega
  · intro hnot workerId hfollowed
    rw [bookedOn_erase, if_neg, Nat.sub_zero]
    rintro ⟨hb, rfl⟩
    exact hnot hb hfollowed

/-- **A processed report** closes the bookings of its task, and nobody tells the counter. -/
theorem Shadows.filter_iff (h : Shadows m bookings registrations) (taskId : String) :
    Shadows m (bookings.filter fun b => b.taskId ≠ taskId) registrations ↔
      ∀ b ∈ bookings, b.taskId = taskId → ¬ Followed m registrations b.workerId := by
  rw [h.ledger_iff]
  simp only [bookedOn_filter, decide_eq_true_eq]
  constructor
  · intro hsame b hb htask hfollowed
    exact hsame b.workerId hfollowed b hb rfl htask
  · intro hnot workerId hfollowed b hb hid htask
    exact hnot b hb htask (hid ▸ hfollowed)

end Operations

-- ---------------------------------------------------------------------------
-- What the loop thread books
-- ---------------------------------------------------------------------------

section Loop

variable {env : LoopEnv} {s t : Cluster} {a : LoopAction}

/-- The worker of a dispatch comes from the candidates of the batch, or from the table. -/
def Chosen (s : Cluster) (w : WorkerInfo) : Prop :=
  (∃ c workerIdx entries, s.work = .batch c workerIdx entries ∧ w ∈ c.workers) ∨
    w ∈ s.loop.workerManager.workers

/-- A step of the loop thread books nothing, or the worker of the dispatch it enqueues. -/
inductive Books (s t : Cluster) : Prop
  | nothing (hmanager : t.loop.workerManager = s.loop.workerManager)
      (hpool : t.loop.dispatchPool = s.loop.dispatchPool)
  | one (job : Dispatch) (hchosen : Chosen s job.worker)
      (hmanager : t.loop.workerManager =
        s.loop.workerManager.prebookTask job.worker.workerId 1)
      (hpool : t.loop.dispatchPool = s.loop.dispatchPool ++ [job])

theorem mem_of_mem_available {w : WorkerInfo} (h : w ∈ s.loop.availableWorkers env) :
    w ∈ s.loop.workerManager.workers :=
  List.mem_of_mem_filter ((env.order.perm _).mem_iff.mp h)

theorem handleEffect_books {faults : EntryFaults} {select : Option WorkerInfo}
    {entry : StreamEntry} {handled : Handled} {loop : SchedulerLoop} {work : LoopWork}
    (heffect : HandleEffect env faults select entry s.loop handled loop)
    (hselect : ∀ w ∈ select, Chosen s w) : Books s { s with loop := loop, work := work } := by
  cases heffect with
  | skip hlookup => exact .nothing rfl rfl
  | noWorker task hlookup hnone => exact .nothing rfl rfl
  | dispatch task worker hlookup hworker =>
    exact .one ⟨task, entry.id, worker⟩ (hselect worker hworker) rfl rfl

theorem loopStep_books (h : s.loopStep env a = some t) : Books s t := by
  cases loopStep_moves h with
  | handled faults c workerIdx entry rest handled loop hwork heffect =>
    refine handleEffect_books heffect fun w hw => .inl ⟨c, workerIdx, _, hwork, ?_⟩
    obtain rfl := Option.some.inj hw
    exact List.get_mem _ _
  | rescued faults entry rest handled loop hwork heffect =>
    exact handleEffect_books heffect fun w hw =>
      .inr (mem_of_mem_available (List.mem_of_mem_head? hw))
  | busy hwork hfull => exact .nothing rfl rfl
  | toScan hwork hroom hdue => exact .nothing rfl rfl
  | toPull hwork hroom => exact .nothing rfl rfl
  | scanned outcome call hwork hcall => exact .nothing rfl rfl
  | claimed outcome ids call hwork hcall => exact .nothing rfl rfl
  | noWorkers outcome hwork hnone => exact .nothing rfl rfl
  | pulled outcome c call hwork hworkers hcall => exact .nothing rfl rfl
  | thrown faults c workerIdx entry rest e hwork hthrow => exact .nothing rfl rfl
  | rescueThrown faults entry rest e hwork hthrow => exact .nothing rfl rfl

theorem rescueRest_ne_batch (entries : List StreamEntry) (c : Candidates) (workerIdx : Nat)
    (batch : List StreamEntry) : LoopWork.rescueRest entries ≠ .batch c workerIdx batch := by
  cases entries <;> exact nofun

theorem candidates_of_batchRest {c c' : Candidates} {workerIdx workerIdx' : Nat}
    {entries entries' : List StreamEntry}
    (h : LoopWork.batchRest c workerIdx entries = .batch c' workerIdx' entries') : c' = c := by
  cases entries with
  | nil => exact nomatch h
  | cons entry rest => exact (LoopWork.batch.inj h).1.symm

/-- The candidates of a batch are workers of the table, when it is pulled. -/
theorem loopStep_candidates (h : s.loopStep env a = some t) {c : Candidates} {workerIdx : Nat}
    {entries : List StreamEntry} (hbatch : t.work = .batch c workerIdx entries)
    {w : WorkerInfo} (hw : w ∈ c.workers) : Chosen s w := by
  cases loopStep_moves h with
  | pulled outcome c' call hwork hworkers hcall =>
    obtain rfl := candidates_of_batchRest hbatch
    rw [hworkers] at hw
    exact .inr (mem_of_mem_available hw)
  | handled faults c' workerIdx' entry rest handled loop hwork heffect =>
    obtain rfl := candidates_of_batchRest hbatch
    exact .inl ⟨_, _, _, hwork, hw⟩
  | scanned outcome call hwork hcall =>
    have hnot : (if idleIds call.1 = [] then LoopWork.pull else .claim (idleIds call.1)) ≠
        .batch c workerIdx entries := by
      split <;> exact nofun
    exact absurd hbatch hnot
  | claimed outcome ids call hwork hcall => exact absurd hbatch (rescueRest_ne_batch _ _ _ _)
  | rescued faults entry rest handled loop hwork heffect =>
    exact absurd hbatch (rescueRest_ne_batch _ _ _ _)
  | busy hwork hfull => exact nomatch hwork.symm.trans hbatch
  | toScan hwork hroom hdue => exact nomatch hbatch
  | toPull hwork hroom => exact nomatch hbatch
  | noWorkers outcome hwork hnone => exact nomatch hbatch
  | thrown faults c' workerIdx' entry rest e hwork hthrow => exact nomatch hbatch
  | rescueThrown faults entry rest e hwork hthrow => exact nomatch hbatch

end Loop

-- ---------------------------------------------------------------------------
-- A step
-- ---------------------------------------------------------------------------

section Step

variable {env : LoopEnv} {s t : LoadShadow} {a : Cluster.Action}

theorem step_some (h : step env s a = some t) : a.asSent = true ∧
    ∃ c, s.cluster.step env a = some c ∧
      t = ⟨c, nextBookings s.bookings s.cluster c a,
        nextRegistrations s.registrations s.cluster a⟩ := by
  rw [step, Option.ite_none_right_eq_some] at h
  obtain ⟨hsent, h⟩ := h
  obtain ⟨c, hc, ht⟩ := Option.map_eq_some_iff.mp h
  exact ⟨hsent, c, hc, ht.symm⟩

theorem nextBookings_nothing {bookings : List Booking} {c c' : Cluster} (a : LoopAction)
    (hpool : c'.loop.dispatchPool = c.loop.dispatchPool) :
    nextBookings bookings c c' (.loop a) = bookings := by
  rw [nextBookings, hpool, List.drop_length]
  exact List.append_nil _

theorem nextBookings_one {bookings : List Booking} {c c' : Cluster} (a : LoopAction)
    {job : Dispatch} (hpool : c'.loop.dispatchPool = c.loop.dispatchPool ++ [job]) :
    nextBookings bookings c c' (.loop a) = bookings ++ [job.booking] := by
  rw [nextBookings, hpool, List.drop_left]
  rfl

/-- A worker that is chosen has registered. -/
theorem Known.chosen (h : Known s) {w : WorkerInfo} (hchosen : Chosen s.cluster w) :
    w.workerId ∈ s.registrations := by
  rcases hchosen with ⟨c, workerIdx, entries, hwork, hw⟩ | hw
  · exact h.candidates c workerIdx entries hwork w hw
  · exact h.registered _ (List.mem_map_of_mem hw)

/-- The pool does not touch the manager, and closes at most one booking. -/
theorem poolStep_manager {c c' : Cluster} {a : PoolAction} (h : c.poolStep env a = some c') :
    c'.loop.workerManager = c.loop.workerManager ∧ c'.work = c.work := by
  cases poolStep_moves h with
  | start job rest hpool hfree => exact ⟨rfl, rfl⟩
  | fail i call job answer hrunning hfail => exact ⟨rfl, rfl⟩
  | execute i call job j node hrunning hnode halive haddress hstub htarget => exact ⟨rfl, rfl⟩
  | settle i faults job answer hrunning => exact ⟨settle_workerManager _ _ _, rfl⟩

theorem nextBookings_subset {bookings : List Booking} {c c' : Cluster}
    (h : ∀ a', a ≠ .loop a') : nextBookings bookings c c' a ⊆ bookings := by
  unfold nextBookings
  split
  · next a' => exact absurd rfl (h a')
  · split
    · exact List.erase_subset
    · exact List.Subset.refl _
  · split
    · exact List.filter_subset_self _
    · exact List.Subset.refl _
  · exact List.Subset.refl _

theorem Known.loop {a : LoopAction} {c : Cluster} (h : Known s)
    (hc : s.cluster.loopStep env a = some c) :
    Known ⟨c, nextBookings s.bookings s.cluster c (.loop a), s.registrations⟩ := by
  have hcandidates : ∀ c' workerIdx entries, c.work = .batch c' workerIdx entries →
      ∀ w ∈ c'.workers, w.workerId ∈ s.registrations := by
    intro c' workerIdx entries hbatch w hw
    exact h.chosen (loopStep_candidates hc hbatch hw)
  cases loopStep_books hc with
  | nothing hmanager hpool =>
    rw [nextBookings_nothing a hpool]
    exact ⟨fun id hid => h.registered id (hmanager ▸ hid), h.booked, hcandidates⟩
  | one job hchosen hmanager hpool =>
    rw [nextBookings_one a hpool]
    refine ⟨fun id hid => h.registered id ?_, fun b hb => ?_, hcandidates⟩
    · have hid' : c.loop.workerManager.Registered id := hid
      rw [hmanager] at hid'
      exact WorkerManager.registered_prebookTask.mp hid'
    · rcases List.mem_append.mp hb with hold | hnew
      · exact h.booked b hold
      · obtain rfl := List.mem_singleton.mp hnew
        exact h.chosen hchosen

theorem Known.register {c : Cluster} (h : Known s) (hwork : c.work = s.cluster.work)
    {workerId address : String} {now : Nat}
    (hmanager : c.loop.workerManager =
      s.cluster.loop.workerManager.handleRegister workerId address now) :
    Known ⟨c, s.bookings, s.registrations ++ [workerId]⟩ := by
  refine ⟨fun id hid => ?_, fun b hb => List.mem_append_left _ (h.booked b hb),
    fun c' workerIdx entries hbatch w hw => List.mem_append_left _ ?_⟩
  · have hid' : c.loop.workerManager.Registered id := hid
    rw [hmanager] at hid'
    show id ∈ s.registrations ++ [workerId]
    rw [List.mem_append, List.mem_singleton]
    exact (WorkerManager.registered_handleRegister.mp hid').imp_left (h.registered id)
  · exact h.candidates c' workerIdx entries (hwork.symm.trans hbatch) w hw

/-- A step that registers nobody and books nobody. -/
theorem Known.shrink {c : Cluster} {bookings : List Booking} (h : Known s)
    (hmanager : ∀ id, c.loop.workerManager.Registered id →
      s.cluster.loop.workerManager.Registered id)
    (hbookings : bookings ⊆ s.bookings) (hwork : c.work = s.cluster.work) :
    Known ⟨c, bookings, s.registrations⟩ :=
  ⟨fun id hid => h.registered id (hmanager id hid), fun b hb => h.booked b (hbookings hb),
    fun c' workerIdx entries hbatch =>
      h.candidates c' workerIdx entries (hwork.symm.trans hbatch)⟩

/-- **What is known of the ids** stays so. -/
theorem step_known (h : Known s) (hstep : step env s a = some t) : Known t := by
  obtain ⟨-, c, hc, rfl⟩ := step_some hstep
  cases a with
  | loop a => exact h.loop hc
  | pool a =>
    obtain ⟨hmanager, hwork⟩ := poolStep_manager hc
    exact h.shrink (fun id hid => hmanager ▸ hid) (nextBookings_subset fun _ => nofun) hwork
  | world a =>
    have hsubset : nextBookings s.bookings s.cluster c (.world a) ⊆ s.bookings :=
      nextBookings_subset fun _ => nofun
    have hwork : c.work = s.cluster.work := (worldStep_threads hc).1
    cases worldStep_moves hc with
    | register j node hnode halive =>
      have hregs : nextRegistrations s.registrations s.cluster (.world (.register j)) =
          s.registrations ++ [node.workerId] := by
        rw [nextRegistrations, hnode]
        rfl
      rw [hregs]
      exact h.register hwork rfl
    | heartbeat j runningTaskCount node hnode halive =>
      exact h.shrink (fun id => WorkerManager.registered_handleHeartbeat.mp) hsubset hwork
    | patrol outcome =>
      exact h.shrink (fun id hid => (WorkerManager.registered_pruneDeadWorkers.mp hid).1) hsubset
        hwork
    | push fields => exact h.shrink (fun id hid => hid) hsubset hwork
    | store taskId payload ttl => exact h.shrink (fun id hid => hid) hsubset hwork
    | pass ms => exact h.shrink (fun id hid => hid) hsubset hwork
    | boot workerId address hasSubmitter hfresh =>
      exact h.shrink (fun id hid => hid) hsubset hwork
    | crash j node hnode => exact h.shrink (fun id hid => hid) hsubset hwork
    | report j k delivered node task hnode htask halive =>
      exact h.shrink (fun id hid => hid) hsubset hwork

/-- The bookings the end of a dispatch leaves. -/
theorem settle_shadows (hin : s.InStep) (i : Nat) (faults : SettleFaults) (c : Cluster) :
    Shadows s.cluster.loop.workerManager
        (nextBookings s.bookings s.cluster c (.pool (.settle i faults))) s.registrations ↔
      s.Harmless (.pool (.settle i faults)) := by
  rw [nextBookings, Harmless]
  cases hjob : failedJob s.cluster i with
  | none => exact iff_of_true hin fun job hmem => nomatch hmem
  | some job =>
    refine (Shadows.erase_iff hin job.booking).trans ⟨fun h job' hmem => ?_, fun h => h job rfl⟩
    obtain rfl := Option.some.inj hmem
    exact h

/-- The bookings a processed report leaves. -/
theorem report_shadows (hin : s.InStep) (j k : Nat) (c : Cluster) :
    Shadows s.cluster.loop.workerManager
        (nextBookings s.bookings s.cluster c (.world (.report j k true))) s.registrations ↔
      s.Harmless (.world (.report j k true)) := by
  rw [nextBookings, Harmless]
  cases htask : reportedTask s.cluster j k with
  | none => exact iff_of_true hin fun task hmem => nomatch hmem
  | some task =>
    refine (Shadows.filter_iff hin task.taskId).trans ⟨fun h task' hmem => ?_,
      fun h => h task rfl⟩
    obtain rfl := Option.some.inj hmem
    exact h

/-- **Which steps keep the counters right.** -/
theorem step_shadows (hknown : Known s) (hin : s.InStep) (hstep : step env s a = some t) :
    t.InStep ↔ s.Harmless a := by
  obtain ⟨hsent, c, hc, rfl⟩ := step_some hstep
  cases a with
  | loop a =>
    refine iff_of_true ?_ trivial
    show Shadows c.loop.workerManager (nextBookings s.bookings s.cluster c (.loop a))
      s.registrations
    cases loopStep_books hc with
    | nothing hmanager hpool =>
      rw [hmanager, nextBookings_nothing a hpool]
      exact hin
    | one job hchosen hmanager hpool =>
      rw [hmanager, nextBookings_one a hpool]
      exact Shadows.prebookTask hin job.booking
  | pool a =>
    show Shadows c.loop.workerManager (nextBookings s.bookings s.cluster c (.pool a))
      s.registrations ↔ _
    rw [(poolStep_manager hc).1]
    cases a with
    | start => exact iff_of_true hin trivial
    | call i call => exact iff_of_true hin trivial
    | settle i faults => exact settle_shadows hin i faults c
  | world a =>
    cases worldStep_moves hc with
    | register j node hnode halive =>
      refine iff_of_true ?_ trivial
      have hafter := Shadows.handleRegister hin hknown.registered hknown.booked node.workerId
        node.address s.cluster.loop.redis.now
      show Shadows _ s.bookings (nextRegistrations s.registrations s.cluster (.world (.register j)))
      rw [nextRegistrations, hnode]
      exact hafter
    | heartbeat j runningTaskCount node hnode halive =>
      have hcount : runningTaskCount = heartbeatRunningTasks := of_decide_eq_true hsent
      rw [hcount]
      refine (Shadows.handleHeartbeat_iff hin node.workerId s.cluster.loop.redis.now).trans ?_
      rw [Harmless, hnode]
      refine ⟨fun h node' hmem => ?_, fun h => h node rfl⟩
      obtain rfl := Option.some.inj hmem
      exact h
    | patrol outcome => exact iff_of_true (Shadows.pruneDeadWorkers hin _) trivial
    | report j k delivered node task hnode htask halive =>
      cases delivered with
      | false => exact iff_of_true hin trivial
      | true => exact report_shadows hin j k s.cluster
    | push fields => exact iff_of_true hin trivial
    | store taskId payload ttl => exact iff_of_true hin trivial
    | pass ms => exact iff_of_true hin trivial
    | boot workerId address hasSubmitter hfresh => exact iff_of_true hin trivial
    | crash j node hnode => exact iff_of_true hin trivial

end Step

-- ---------------------------------------------------------------------------
-- Every run
-- ---------------------------------------------------------------------------

/-- **When the counters shadow the work.** From the start of a scheduler, whatever is in
the stores, the counter of every followed worker is the number of its open bookings in
each state a run goes through, exactly if every step of the run is harmless. -/
theorem load_shadow_iff {env : LoopEnv} {c : Cluster} {actions : List Cluster.Action}
    {u : LoadShadow} (hworkers : c.loop.workerManager.workers = []) (hwork : c.work = .top)
    (hrun : run (step env) ⟨c, [], []⟩ actions = some u) :
    Along (step env) Harmless ⟨c, [], []⟩ actions ↔
      ∀ before t, before <+: actions → run (step env) ⟨c, [], []⟩ before = some t → t.InStep := by
  have hknown : Known ⟨c, [], []⟩ := by
    refine ⟨fun id hid => ?_, fun b hb => absurd hb List.not_mem_nil,
      fun c' workerIdx entries hbatch => ?_⟩
    · have hid' : id ∈ c.loop.workerManager.workers.map WorkerInfo.workerId := hid
      rw [hworkers] at hid'
      exact nomatch hid'
    · exact nomatch hwork.symm.trans hbatch
  have hin : InStep ⟨c, [], []⟩ := by
    intro w hw
    have hw' : w ∈ c.loop.workerManager.workers := hw
    rw [hworkers] at hw'
    exact nomatch hw'
  exact along_iff_reached (fun _ _ _ h hstep => step_known h hstep)
    (fun _ _ _ h hP hstep => step_shadows h hP hstep) hrun hknown hin

/-- A dispatch that succeeds. -/
theorem load_shadow_iff_dispatch :
    ∃ u, run (step numeralEnv) ⟨launched, [], []⟩ oneDispatch = some u ∧
      (Along (step numeralEnv) Harmless ⟨launched, [], []⟩ oneDispatch ↔
        ∀ before t, before <+: oneDispatch →
          run (step numeralEnv) ⟨launched, [], []⟩ before = some t → t.InStep) := by
  have hend : (run (step numeralEnv) ⟨launched, [], []⟩ oneDispatch).isSome = true := by
    decide +kernel
  obtain ⟨u, hrun⟩ := Option.isSome_iff_exists.mp hend
  exact ⟨u, hrun, load_shadow_iff rfl rfl hrun⟩

/-- The task is running, and the next heartbeat of its worker says it has none. -/
def heartbeatAfterDispatch : List Cluster.Action :=
  oneDispatch ++ [.world (.heartbeat 0 heartbeatRunningTasks)]

/-- **A heartbeat forgets the work**: a worker that has registered once is counted at
zero while a task it took is outstanding. -/
theorem heartbeat_forgets : ∃ u,
    run (step numeralEnv) ⟨launched, [], []⟩ heartbeatAfterDispatch = some u ∧
      u.registrations = ["worker"] ∧ bookedOn u.bookings "worker" = 1 ∧
      u.cluster.loop.workerManager.workers.map WorkerInfo.runningTaskCount = [0] ∧
      ¬ u.InStep := by
  have hend : ((run (step numeralEnv) ⟨launched, [], []⟩ heartbeatAfterDispatch).any fun u =>
      u.registrations = ["worker"] ∧ bookedOn u.bookings "worker" = 1 ∧
        u.cluster.loop.workerManager.workers.map WorkerInfo.runningTaskCount = [0] ∧
        ¬ u.InStep) = true := by
    decide +kernel
  obtain ⟨u, hrun, hforgets⟩ := (Option.any_eq_true _ _).mp hend
  exact ⟨u, hrun, of_decide_eq_true hforgets⟩

end LoadShadow

end DistTaskSystem
