import Mathlib.Data.List.Nodup
import Mathlib.Data.List.Sort

/-!
# DTS — the registered workers

`WorkerManager` knows the workers by their ids. A worker counts as available
while its last heartbeat is not older than the timeout; the patrol removes the
others. Times are in milliseconds.
-/

namespace DistTaskSystem

/-- `WorkerInfo`; the load figure nothing reads is left out. -/
structure WorkerInfo where
  workerId : String
  address : String
  lastHeartbeatTime : Nat
  runningTaskCount : Int := 0
deriving DecidableEq, Repr

/-- `WorkerManager`: the map `workers_`, keyed by the ids of its values. -/
structure WorkerManager where
  workerTimeout : Nat
  workers : List WorkerInfo
  nodup : (workers.map WorkerInfo.workerId).Nodup

/-- What `std::sort` may make of a list: it need not be stable. -/
structure WorkerOrder where
  sort : List WorkerInfo → List WorkerInfo
  perm : ∀ l, (sort l).Perm l
  sorted : ∀ l, (sort l).Pairwise fun a b => a.runningTaskCount ≤ b.runningTaskCount

/-- Ties stay in the order of the map. -/
def WorkerOrder.stable : WorkerOrder where
  sort l := l.mergeSort fun a b => decide (a.runningTaskCount ≤ b.runningTaskCount)
  perm l := List.mergeSort_perm l _
  sorted l := by
    have htrans : ∀ a b c : WorkerInfo, decide (a.runningTaskCount ≤ b.runningTaskCount) = true →
        decide (b.runningTaskCount ≤ c.runningTaskCount) = true →
        decide (a.runningTaskCount ≤ c.runningTaskCount) = true := by
      intro a b c hab hbc
      simp only [decide_eq_true_eq] at hab hbc ⊢
      omega
    have htotal : ∀ a b : WorkerInfo, (decide (a.runningTaskCount ≤ b.runningTaskCount) ||
        decide (b.runningTaskCount ≤ a.runningTaskCount)) = true := by
      intro a b
      simp only [Bool.or_eq_true, decide_eq_true_eq]
      omega
    exact (List.pairwise_mergeSort htrans htotal l).imp fun h => of_decide_eq_true h

namespace WorkerManager

variable (m : WorkerManager)

/-- The manager of `main`: 60 seconds, no worker yet. -/
def started : WorkerManager := ⟨60000, [], List.nodup_nil⟩

def Registered (id : String) : Prop := id ∈ m.workers.map WorkerInfo.workerId

instance (id : String) : Decidable (m.Registered id) := inferInstanceAs (Decidable (_ ∈ _))

/-- Changing the values of the map leaves its keys. -/
def update (f : WorkerInfo → WorkerInfo) (hf : ∀ w, (f w).workerId = w.workerId) :
    WorkerManager where
  workerTimeout := m.workerTimeout
  workers := m.workers.map f
  nodup := by
    rw [List.map_map, show WorkerInfo.workerId ∘ f = WorkerInfo.workerId from funext hf]
    exact m.nodup

theorem registered_update (f : WorkerInfo → WorkerInfo) (hf : ∀ w, (f w).workerId = w.workerId)
    (id : String) : (m.update f hf).Registered id ↔ m.Registered id := by
  show id ∈ (m.workers.map f).map WorkerInfo.workerId ↔ id ∈ m.workers.map WorkerInfo.workerId
  rw [List.map_map, show WorkerInfo.workerId ∘ f = WorkerInfo.workerId from funext hf]

def handleRegister (workerId address : String) (now : Nat) : WorkerManager :=
  if h : m.Registered workerId then
    m.update (fun w =>
      if w.workerId = workerId then
        { w with address := address, lastHeartbeatTime := now, runningTaskCount := 0 }
      else w) fun w => by split <;> rfl
  else ⟨m.workerTimeout, m.workers ++ [{ workerId, address, lastHeartbeatTime := now }], by
    rw [List.map_append, List.map_singleton]
    exact List.concat_eq_append ▸ m.nodup.concat h⟩

/-- `HandleHeartbeat`; false makes the worker register again. -/
def handleHeartbeat (workerId : String) (runningTaskCount : Int) (now : Nat) :
    Bool × WorkerManager :=
  if m.Registered workerId then
    (true, m.update (fun w =>
      if w.workerId = workerId then { w with lastHeartbeatTime := now, runningTaskCount }
      else w) fun w => by split <;> rfl)
  else (false, m)

def prebookTask (workerId : String) (count : Int) : WorkerManager :=
  m.update (fun w =>
    if w.workerId = workerId then { w with runningTaskCount := w.runningTaskCount + count }
    else w) fun w => by split <;> rfl

/-- No heartbeat for longer than the timeout. -/
def timedOut (now : Nat) (w : WorkerInfo) : Bool :=
  decide (m.workerTimeout < now - w.lastHeartbeatTime)

def getAvailableWorkersSorted (order : WorkerOrder) (now : Nat) : List WorkerInfo :=
  order.sort (m.workers.filter fun w => !m.timedOut now w)

/-- `PruneDeadWorkers`: the ids removed and the map without them. -/
def pruneDeadWorkers (now : Nat) : List String × WorkerManager :=
  ((m.workers.filter (m.timedOut now)).map WorkerInfo.workerId,
    ⟨m.workerTimeout, m.workers.filter fun w => !m.timedOut now w,
      m.nodup.sublist (List.filter_sublist.map _)⟩)

-- ---------------------------------------------------------------------------
-- What the operations do to the registered ids
-- ---------------------------------------------------------------------------

variable {m} {id : String}

theorem registered_handleRegister {workerId address : String} {now : Nat} :
    (m.handleRegister workerId address now).Registered id ↔ m.Registered id ∨ id = workerId := by
  rw [handleRegister]
  split
  · next h =>
    rw [registered_update]
    exact (or_iff_left_of_imp fun heq => heq ▸ h).symm
  · show id ∈ (m.workers ++ [_]).map WorkerInfo.workerId ↔ _
    rw [List.map_append, List.mem_append, List.map_singleton, List.mem_singleton]
    rfl

theorem registered_handleHeartbeat {workerId : String} {count : Int} {now : Nat} :
    (m.handleHeartbeat workerId count now).2.Registered id ↔ m.Registered id := by
  rw [handleHeartbeat]
  split
  · exact registered_update _ _ (fun w => by split <;> rfl) id
  · exact Iff.rfl

theorem registered_prebookTask {workerId : String} {count : Int} :
    (m.prebookTask workerId count).Registered id ↔ m.Registered id :=
  registered_update _ _ (fun w => by split <;> rfl) id

/-- A worker stays registered exactly if it is not among the dead. -/
theorem registered_pruneDeadWorkers {now : Nat} :
    (m.pruneDeadWorkers now).2.Registered id ↔
      m.Registered id ∧ id ∉ (m.pruneDeadWorkers now).1 := by
  show id ∈ (m.workers.filter _).map WorkerInfo.workerId ↔
    id ∈ m.workers.map WorkerInfo.workerId ∧
      id ∉ (m.workers.filter (m.timedOut now)).map WorkerInfo.workerId
  simp only [List.mem_map, List.mem_filter]
  constructor
  · rintro ⟨w, ⟨hw, halive⟩, rfl⟩
    refine ⟨⟨w, hw, rfl⟩, ?_⟩
    rintro ⟨w', ⟨hw', hdead⟩, hid⟩
    -- one id, one worker
    obtain rfl := List.inj_on_of_nodup_map m.nodup hw' hw hid
    rw [hdead] at halive
    exact nomatch halive
  · rintro ⟨⟨w, hw, rfl⟩, hnot⟩
    refine ⟨w, ⟨hw, ?_⟩, rfl⟩
    cases hdead : m.timedOut now w with
    | false => rfl
    | true => exact absurd ⟨w, ⟨hw, hdead⟩, rfl⟩ hnot

/-- Some worker is available if one has not timed out. -/
theorem available_ne_nil_iff (order : WorkerOrder) (now : Nat) :
    m.getAvailableWorkersSorted order now ≠ [] ↔ ∃ w ∈ m.workers, m.timedOut now w = false := by
  rw [getAvailableWorkersSorted, ← List.length_pos_iff, (order.perm _).length_eq,
    List.length_pos_iff_exists_mem]
  simp only [List.mem_filter, Bool.not_eq_true']

/-- Prebooking makes no worker unavailable. -/
theorem available_prebookTask (order : WorkerOrder) (now : Nat) {workerId : String} {count : Int}
    (h : m.getAvailableWorkersSorted order now ≠ []) :
    (m.prebookTask workerId count).getAvailableWorkersSorted order now ≠ [] := by
  rw [available_ne_nil_iff] at h ⊢
  obtain ⟨w, hw, halive⟩ := h
  refine ⟨_, List.mem_map_of_mem hw, ?_⟩
  rw [← halive]
  split <;> rfl

end WorkerManager

end DistTaskSystem
