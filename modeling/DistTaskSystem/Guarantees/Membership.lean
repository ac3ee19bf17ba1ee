import DistTaskSystem.Library.Leases
import DistTaskSystem.Scheduler.WorkerManager

/-!
# DTS — who is a worker

`WorkerManager` is a table of leases: `HandleRegister` grants one,
`HandleHeartbeat` renews it, and `PruneDeadWorkers` sweeps. What a history of
calls makes of the table is read off the calls alone (`roster`), and the manager
keeps exactly that (`table_after`), so `GetAvailableWorkersSorted` and
`PruneDeadWorkers` part the registered workers between them at every instant.

The times of the calls need not be ordered for any of it: a worker heard from
after `now` is recent for both filters.

## Results

* `table_call`  — the manager refines the table of leases, call by call.
* `table_after` — and over a history.
* `membership`  — what the two functions return, and what becomes of a worker
  that is pruned.
-/

namespace DistTaskSystem

open Leases (Lease Table Op)

namespace WorkerManager

-- ---------------------------------------------------------------------------
-- Calls
-- ---------------------------------------------------------------------------

inductive Call where
  | handleRegister (workerId address : String)
  | handleHeartbeat (workerId : String) (runningTaskCount : Int)
  | prebookTask (workerId : String) (count : Int)
  | getAvailableWorkersSorted
  | pruneDeadWorkers

def call (m : WorkerManager) (now : Nat) : Call → WorkerManager
  | .handleRegister workerId address => m.handleRegister workerId address now
  | .handleHeartbeat workerId runningTaskCount =>
    (m.handleHeartbeat workerId runningTaskCount now).2
  | .prebookTask workerId count => m.prebookTask workerId count
  | .getAvailableWorkersSorted => m
  | .pruneDeadWorkers => (m.pruneDeadWorkers now).2

/-- The manager after the calls of a history, each at its time. -/
def after (workerTimeout : Nat) (history : List (Nat × Call)) : WorkerManager :=
  history.foldl (fun m e => m.call e.1 e.2) ⟨workerTimeout, [], List.nodup_nil⟩

/-- What a call does to the leases. -/
def Call.op : Call → Op String Int
  | .handleRegister workerId _ => .grant workerId 0
  | .handleHeartbeat workerId runningTaskCount => .renew workerId runningTaskCount
  | .prebookTask workerId count => .modify workerId (· + count)
  | .getAvailableWorkersSorted => .look
  | .pruneDeadWorkers => .sweep

/-- The registered workers after a history: when each was last heard from, and its
running tasks. -/
def roster (workerTimeout : Nat) (history : List (Nat × Call)) : Table String Int :=
  Table.empty.after workerTimeout (history.map fun e => (e.1, e.2.op))

-- ---------------------------------------------------------------------------
-- The manager as a table
-- ---------------------------------------------------------------------------

/-- `workers_.find(id)`. -/
def worker? (m : WorkerManager) (id : String) : Option WorkerInfo :=
  m.workers.find? fun w => w.workerId = id

/-- The lease of a worker. -/
def lease (w : WorkerInfo) : Lease Int := ⟨w.lastHeartbeatTime, w.runningTaskCount⟩

def table (m : WorkerManager) : Table String Int := fun id => (m.worker? id).map lease

variable {m : WorkerManager} {id : String} {w : WorkerInfo} {now : Nat}

/-- One id, one worker. -/
theorem worker?_eq_some_iff : m.worker? id = some w ↔ w ∈ m.workers ∧ w.workerId = id := by
  constructor
  · intro h
    have hid := List.find?_some (p := fun w : WorkerInfo => w.workerId = id) h
    exact ⟨List.mem_of_find?_eq_some h, of_decide_eq_true hid⟩
  · rintro ⟨hw, rfl⟩
    have hsome : (m.worker? w.workerId).isSome := by
      rw [worker?, List.find?_isSome]
      exact ⟨w, hw, decide_eq_true rfl⟩
    obtain ⟨w', hw'⟩ := Option.isSome_iff_exists.mp hsome
    have hid := List.find?_some (p := fun v : WorkerInfo => v.workerId = w.workerId) hw'
    rw [hw', List.inj_on_of_nodup_map m.nodup (List.mem_of_find?_eq_some hw') hw
      (of_decide_eq_true hid)]

theorem worker?_eq_none_iff : m.worker? id = none ↔ ¬ m.Registered id := by
  rw [worker?, List.find?_eq_none, Registered, List.mem_map, not_exists]
  simp only [decide_eq_true_eq, not_and]

theorem worker?_update {f : WorkerInfo → WorkerInfo} (hf : ∀ w, (f w).workerId = w.workerId) :
    (m.update f hf).worker? id = (m.worker? id).map f := by
  show (m.workers.map f).find? _ = _
  rw [List.find?_map]
  have hkey : ((fun w : WorkerInfo => decide (w.workerId = id)) ∘ f) =
      fun w => decide (w.workerId = id) := by
    funext w
    exact congrArg (fun i => decide (i = id)) (hf w)
  rw [hkey]
  rfl

/-- Changing one worker changes one entry of the table. -/
theorem table_update {workerId : String} {f : WorkerInfo → WorkerInfo} {g : Lease Int → Lease Int}
    (hf : ∀ w, (if w.workerId = workerId then f w else w).workerId = w.workerId)
    (hfg : ∀ w, lease (f w) = g (lease w)) :
    (m.update (fun w => if w.workerId = workerId then f w else w) hf).table =
      Function.update m.table workerId ((m.table workerId).map g) := by
  funext id
  rw [table, worker?_update]
  by_cases hid : id = workerId
  · rw [hid, Function.update_self, table]
    cases hw : m.worker? workerId with
    | none => rfl
    | some w =>
      have hkey := (worker?_eq_some_iff.mp hw).2
      show some (lease (if w.workerId = workerId then f w else w)) = some (g (lease w))
      rw [if_pos hkey, hfg]
  · rw [Function.update_of_ne hid, table]
    cases hw : m.worker? id with
    | none => rfl
    | some w =>
      have hkey : w.workerId ≠ workerId := (worker?_eq_some_iff.mp hw).2 ▸ hid
      show some (lease (if w.workerId = workerId then f w else w)) = some (lease w)
      rw [if_neg hkey]

theorem timedOut_iff : m.timedOut now w = true ↔ ¬ (lease w).Fresh m.workerTimeout now := by
  rw [timedOut, decide_eq_true_eq]
  show m.workerTimeout < now - w.lastHeartbeatTime ↔
    ¬ now ≤ w.lastHeartbeatTime + m.workerTimeout
  omega

theorem worker?_pruneDeadWorkers :
    (m.pruneDeadWorkers now).2.worker? id = some w ↔
      m.worker? id = some w ∧ (lease w).Fresh m.workerTimeout now := by
  rw [worker?_eq_some_iff, worker?_eq_some_iff]
  show w ∈ m.workers.filter _ ∧ _ ↔ _
  rw [List.mem_filter, Bool.not_eq_true', ← Bool.not_eq_true, timedOut_iff, not_not]
  tauto

-- ---------------------------------------------------------------------------
-- The refinement
-- ---------------------------------------------------------------------------

@[simp] theorem workerTimeout_call (c : Call) : (m.call now c).workerTimeout = m.workerTimeout := by
  cases c with
  | handleRegister workerId address =>
    rw [call, handleRegister]
    split <;> rfl
  | handleHeartbeat workerId runningTaskCount =>
    rw [call, handleHeartbeat]
    split <;> rfl
  | prebookTask workerId count => rfl
  | getAvailableWorkersSorted => rfl
  | pruneDeadWorkers => rfl

theorem table_handleRegister (workerId address : String) :
    (m.handleRegister workerId address now).table =
      Function.update m.table workerId (some ⟨now, 0⟩) := by
  rw [handleRegister]
  split
  · next hregistered =>
    rw [table_update (g := fun _ => ⟨now, 0⟩) _ fun w => rfl]
    congr 1
    rw [table, Option.map_map, Option.map_eq_some_iff]
    obtain ⟨w, hw⟩ := Option.ne_none_iff_exists'.mp
      (mt worker?_eq_none_iff.mp (not_not.mpr hregistered))
    exact ⟨w, hw, rfl⟩
  · next hnew =>
    funext id
    show ((m.workers ++ [_]).find? _).map lease = _
    rw [List.find?_append]
    by_cases hid : id = workerId
    · rw [hid, Function.update_self,
        show m.workers.find? _ = none from worker?_eq_none_iff.mpr hnew,
        Option.none_or, List.find?_singleton, if_pos (decide_eq_true rfl)]
      rfl
    · rw [Function.update_of_ne hid, List.find?_singleton,
        if_neg (fun h => hid (of_decide_eq_true h).symm), Option.or_none]
      rfl

theorem table_handleHeartbeat (workerId : String) (runningTaskCount : Int) :
    (m.handleHeartbeat workerId runningTaskCount now).2.table =
      Function.update m.table workerId
        ((m.table workerId).map fun _ => ⟨now, runningTaskCount⟩) := by
  rw [handleHeartbeat]
  split
  · exact table_update (fun w => by split <;> rfl) fun w => rfl
  · next hunknown =>
    have hnone : m.table workerId = none := by
      rw [table, worker?_eq_none_iff.mpr hunknown]
      rfl
    rw [hnone, Option.map_none, ← hnone, Function.update_eq_self]

theorem table_pruneDeadWorkers :
    (m.pruneDeadWorkers now).2.table = m.table.apply m.workerTimeout now .sweep := by
  funext id
  ext l
  rw [Table.sweep_eq_some_iff, table, table, Option.map_eq_some_iff, Option.map_eq_some_iff]
  simp only [worker?_pruneDeadWorkers]
  constructor
  · rintro ⟨w, ⟨hw, hfresh⟩, rfl⟩
    exact ⟨⟨w, hw, rfl⟩, hfresh⟩
  · rintro ⟨⟨w, hw, rfl⟩, hfresh⟩
    exact ⟨w, ⟨hw, hfresh⟩, rfl⟩

/-- **Refinement.** A call does to the manager what its operation does to the
leases. -/
theorem table_call (c : Call) :
    (m.call now c).table = m.table.apply m.workerTimeout now c.op := by
  cases c with
  | handleRegister workerId address => exact table_handleRegister workerId address
  | handleHeartbeat workerId runningTaskCount =>
    exact table_handleHeartbeat workerId runningTaskCount
  | prebookTask workerId count => exact table_update (fun w => by split <;> rfl) fun w => rfl
  | getAvailableWorkersSorted => rfl
  | pruneDeadWorkers => exact table_pruneDeadWorkers

/-- **Refinement over a history.** -/
theorem table_after (workerTimeout : Nat) (history : List (Nat × Call)) :
    (after workerTimeout history).workerTimeout = workerTimeout ∧
      (after workerTimeout history).table = roster workerTimeout history := by
  have hfold : ∀ (m : WorkerManager), m.workerTimeout = workerTimeout →
      (history.foldl (fun m e => m.call e.1 e.2) m).workerTimeout = workerTimeout ∧
        (history.foldl (fun m e => m.call e.1 e.2) m).table =
          m.table.after workerTimeout (history.map fun e => (e.1, e.2.op)) := by
    induction history with
    | nil => exact fun m hm => ⟨hm, rfl⟩
    | cons e history ih =>
      intro m hm
      obtain ⟨htimeout, htable⟩ := ih (m.call e.1 e.2) ((workerTimeout_call e.2).trans hm)
      refine ⟨htimeout, htable.trans ?_⟩
      rw [table_call, hm]
      rfl
  exact hfold _ rfl

-- ---------------------------------------------------------------------------
-- The two filters
-- ---------------------------------------------------------------------------

variable (order : WorkerOrder)

theorem mem_available : w ∈ m.getAvailableWorkersSorted order now ↔
    m.worker? w.workerId = some w ∧ (lease w).Fresh m.workerTimeout now := by
  rw [getAvailableWorkersSorted, (order.perm _).mem_iff, List.mem_filter, Bool.not_eq_true',
    ← Bool.not_eq_true, timedOut_iff, not_not, worker?_eq_some_iff]
  exact and_congr_left' (and_iff_left rfl).symm

/-- The ids of the available workers. -/
theorem mem_available_ids :
    id ∈ (m.getAvailableWorkersSorted order now).map WorkerInfo.workerId ↔
      ∃ l ∈ m.table id, l.Fresh m.workerTimeout now := by
  rw [List.mem_map]
  constructor
  · rintro ⟨w, hw, rfl⟩
    obtain ⟨hworker, hfresh⟩ := (mem_available order).mp hw
    exact ⟨lease w, Option.map_eq_some_iff.mpr ⟨w, hworker, rfl⟩, hfresh⟩
  · rintro ⟨l, hl, hfresh⟩
    obtain ⟨w, hworker, rfl⟩ := Option.map_eq_some_iff.mp hl
    obtain ⟨-, rfl⟩ := worker?_eq_some_iff.mp hworker
    exact ⟨w, (mem_available order).mpr ⟨hworker, hfresh⟩, rfl⟩

/-- The ids of the dead ones. -/
theorem mem_pruned : id ∈ (m.pruneDeadWorkers now).1 ↔
    ∃ l ∈ m.table id, ¬ l.Fresh m.workerTimeout now := by
  show id ∈ (m.workers.filter (m.timedOut now)).map WorkerInfo.workerId ↔ _
  rw [List.mem_map]
  constructor
  · rintro ⟨w, hw, rfl⟩
    obtain ⟨hmem, hdead⟩ := List.mem_filter.mp hw
    exact ⟨lease w, Option.map_eq_some_iff.mpr ⟨w, worker?_eq_some_iff.mpr ⟨hmem, rfl⟩, rfl⟩,
      timedOut_iff.mp hdead⟩
  · rintro ⟨l, hl, hdead⟩
    obtain ⟨w, hworker, rfl⟩ := Option.map_eq_some_iff.mp hl
    obtain ⟨hmem, rfl⟩ := worker?_eq_some_iff.mp hworker
    exact ⟨w, List.mem_filter.mpr ⟨hmem, timedOut_iff.mpr hdead⟩, rfl⟩

theorem nodup_available :
    ((m.getAvailableWorkersSorted order now).map WorkerInfo.workerId).Nodup :=
  ((order.perm _).map _).nodup_iff.mpr (m.nodup.sublist (List.filter_sublist.map _))

theorem nodup_pruned : (m.pruneDeadWorkers now).1.Nodup :=
  m.nodup.sublist (List.filter_sublist.map _)

theorem registered_iff : m.Registered id ↔ ∃ l, m.table id = some l := by
  rw [← not_iff_not, ← worker?_eq_none_iff, ← Option.isSome_iff_exists,
    Option.not_isSome_iff_eq_none, table, Option.map_eq_none_iff]

-- ---------------------------------------------------------------------------
-- Membership
-- ---------------------------------------------------------------------------

/-- Only a registration grants. -/
theorem Call.op_eq_grant {c : Call} {value : Int} (h : c.op = .grant id value) :
    ∃ address, c = .handleRegister id address := by
  cases c with
  | handleRegister workerId address =>
    obtain ⟨rfl, -⟩ := Op.grant.inj h
    exact ⟨address, rfl⟩
  | handleHeartbeat workerId count => exact nomatch h
  | prebookTask workerId count => exact nomatch h
  | getAvailableWorkersSorted => exact nomatch h
  | pruneDeadWorkers => exact nomatch h

/-- A worker whose lease has run out when the patrol comes has none until it registers
again. -/
theorem table_after_pruned {workerTimeout : Nat} {history later : List (Nat × Call)}
    {l : Lease Int} (hl : l ∈ roster workerTimeout history id) (hdead : ¬ l.Fresh workerTimeout now)
    (hlater : ∀ e ∈ later, ∀ address, e.2 ≠ .handleRegister id address) :
    (after workerTimeout (history ++ (now, .pruneDeadWorkers) :: later)).table id = none := by
  -- the sweep takes the lease, and the later calls grant none
  have hswept : (roster workerTimeout history).apply workerTimeout now .sweep id = none := by
    refine Table.sweep_eq_none_iff.mpr fun l' hl' => ?_
    obtain rfl := Option.some.inj (hl.symm.trans hl')
    exact hdead
  rw [(table_after _ _).2, roster, List.map_append, List.map_cons, Table.after_append]
  show ((roster workerTimeout history).apply workerTimeout now .sweep).after workerTimeout
    (later.map fun e => (e.1, e.2.op)) id = none
  refine Table.after_none hswept fun e he value hgrant => ?_
  obtain ⟨e', he', rfl⟩ := List.mem_map.mp he
  obtain ⟨address, hcall⟩ := Call.op_eq_grant hgrant
  exact hlater e' he' address hcall

/-- A worker without a lease is not offered, and its heartbeat is rejected. -/
theorem unknown_of_none (h : m.table id = none) (runningTaskCount : Int) :
    id ∉ (m.getAvailableWorkersSorted order now).map WorkerInfo.workerId ∧
      (m.handleHeartbeat id runningTaskCount now).1 = false := by
  constructor
  · rw [mem_available_ids, h]
    rintro ⟨l, hl, -⟩
    exact nomatch hl
  · have hunknown : ¬ m.Registered id := by
      rw [registered_iff, h]
      rintro ⟨l, hl⟩
      exact nomatch hl
    rw [handleHeartbeat, if_neg hunknown]

/-- **Worker membership.** After any history, with `members` the workers it has
registered and not pruned since:
the available workers are the members heard from within the timeout, each once,
least loaded first; `PruneDeadWorkers` returns the other members, each once, and
leaves these; and one that is pruned is not available and has its heartbeats
rejected until it registers again. -/
theorem membership (workerTimeout : Nat) (order : WorkerOrder) (history : List (Nat × Call))
    (now : Nat) :
    let m := after workerTimeout history
    let members := roster workerTimeout history
    let available := m.getAvailableWorkersSorted order now
    let pruned := m.pruneDeadWorkers now
    ((available.map WorkerInfo.workerId).Nodup ∧
      available.Pairwise (fun a b => a.runningTaskCount ≤ b.runningTaskCount) ∧
      (∀ id, id ∈ available.map WorkerInfo.workerId ↔
        ∃ l ∈ members id, l.Fresh workerTimeout now) ∧
      (∀ w ∈ available, members w.workerId = some ⟨w.lastHeartbeatTime, w.runningTaskCount⟩)) ∧
    (pruned.1.Nodup ∧
      (∀ id, id ∈ pruned.1 ↔ ∃ l ∈ members id, ¬ l.Fresh workerTimeout now) ∧
      ∀ id, pruned.2.Registered id ↔ ∃ l ∈ members id, l.Fresh workerTimeout now) ∧
    ∀ id ∈ pruned.1, ∀ later : List (Nat × Call),
      (∀ e ∈ later, ∀ address, e.2 ≠ .handleRegister id address) →
      ∀ now' runningTaskCount,
        let m' := after workerTimeout (history ++ (now, .pruneDeadWorkers) :: later)
        id ∉ (m'.getAvailableWorkersSorted order now').map WorkerInfo.workerId ∧
          (m'.handleHeartbeat id runningTaskCount now').1 = false := by
  intro m members available pruned
  obtain ⟨htimeout, htable⟩ := table_after workerTimeout history
  have htimeout : m.workerTimeout = workerTimeout := htimeout
  have htable : m.table = members := htable
  refine ⟨⟨nodup_available order, order.sorted _, fun id => ?_, fun w hw => ?_⟩,
    ⟨nodup_pruned, fun id => ?_, fun id => ?_⟩, ?_⟩
  · rw [mem_available_ids, htable, htimeout]
  · rw [← htable]
    exact Option.map_eq_some_iff.mpr ⟨w, ((mem_available order).mp hw).1, rfl⟩
  · rw [mem_pruned, htable, htimeout]
  · rw [registered_iff, table_pruneDeadWorkers, htable, htimeout]
    simp only [Table.sweep_eq_some_iff]
    rfl
  · intro id hid later hlater now' runningTaskCount m'
    obtain ⟨l, hl, hdead⟩ := mem_pruned.mp hid
    rw [htable] at hl
    rw [htimeout] at hdead
    exact unknown_of_none order (table_after_pruned hl hdead hlater) runningTaskCount

/-- Two workers, one of which falls silent. -/
def twoWorkers : List (Nat × Call) :=
  [(0, .handleRegister "a" "10.0.0.1:50051"), (0, .handleRegister "b" "10.0.0.2:50051"),
    (30000, .handleHeartbeat "b" 3)]

/-- Its next heartbeat comes a second too late. -/
theorem membership_silent :
    let m := after 60000 (twoWorkers ++ (60001, .pruneDeadWorkers) ::
      [(61000, .handleHeartbeat "a" 0)])
    "a" ∉ (m.getAvailableWorkersSorted .stable 61000).map WorkerInfo.workerId ∧
      (m.handleHeartbeat "a" 0 61000).1 = false := by
  refine (membership 60000 .stable twoWorkers 60001).2.2 "a" (by decide +kernel) _ ?_ 61000 0
  intro e he address heq
  obtain rfl := List.mem_singleton.mp he
  exact nomatch heq

end WorkerManager

end DistTaskSystem
