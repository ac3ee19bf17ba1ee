import DistTaskSystem.Guarantees.Membership
import DistTaskSystem.Worker.HeartbeatLoop

/-!
# DTS — what the scheduler knows of a worker

What the handlers of `Register` and `Heartbeat`, the patrol and the dispatcher make of one
worker of the map: a request gives its sender's own name, so that a worker is listed at
its own address, and none but the patrol ever forgets one.

## Results

* `handle_handled`        — what a handler makes of a request.
* `Lists.handle`          — the workers of the map are among those that have sent something.
* `Heard.handle`          — no request makes a worker older.
* `Heard.available`       — a worker heard from within the timeout is offered, and not pruned.
-/

namespace DistTaskSystem

namespace WorkerManager

-- ---------------------------------------------------------------------------
-- One worker of the map
-- ---------------------------------------------------------------------------

variable {m : WorkerManager} {id : String} {w : WorkerInfo} {now : Nat}

/-- Changing one worker is seen at its id alone. -/
theorem worker?_change {workerId : String} {f : WorkerInfo → WorkerInfo}
    (hf : ∀ w, (if w.workerId = workerId then f w else w).workerId = w.workerId) :
    (m.update (fun w => if w.workerId = workerId then f w else w) hf).worker? id =
      if id = workerId then (m.worker? id).map f else m.worker? id := by
  rw [worker?_update]
  cases hw : m.worker? id with
  | none => simp
  | some w =>
    obtain ⟨-, rfl⟩ := worker?_eq_some_iff.mp hw
    by_cases hid : w.workerId = workerId
    · simp [hid]
    · simp [hid]

theorem worker?_handleRegister (workerId address : String) :
    (m.handleRegister workerId address now).worker? id =
      if id = workerId then some ⟨workerId, address, now, 0⟩ else m.worker? id := by
  rw [handleRegister]
  split
  · next hregistered =>
    rw [worker?_change]
    by_cases hid : id = workerId
    · obtain ⟨w, hw⟩ := Option.ne_none_iff_exists'.mp
        (mt worker?_eq_none_iff.mp (not_not.mpr hregistered))
      obtain ⟨-, hkey⟩ := worker?_eq_some_iff.mp hw
      rw [if_pos hid, if_pos hid, hid, hw, Option.map_some, hkey]
    · rw [if_neg hid, if_neg hid]
  · next hnew =>
    show (m.workers ++ [_]).find? _ = _
    rw [List.find?_append]
    by_cases hid : id = workerId
    · rw [if_pos hid, hid, show m.workers.find? _ = none from worker?_eq_none_iff.mpr hnew,
        Option.none_or, List.find?_singleton, if_pos (decide_eq_true rfl)]
    · rw [if_neg hid, List.find?_singleton, if_neg (fun h => hid (of_decide_eq_true h).symm),
        Option.or_none]
      rfl

theorem worker?_handleHeartbeat (workerId : String) (runningTaskCount : Int) :
    (m.handleHeartbeat workerId runningTaskCount now).2.worker? id =
      if id = workerId then
        (m.worker? id).map fun w =>
          { w with lastHeartbeatTime := now, runningTaskCount := runningTaskCount }
      else m.worker? id := by
  rw [handleHeartbeat]
  split
  · exact worker?_change fun w => by split <;> rfl
  · next hunknown =>
    by_cases hid : id = workerId
    · rw [if_pos hid, hid, worker?_eq_none_iff.mpr hunknown]
      rfl
    · rw [if_neg hid]

theorem worker?_prebookTask (workerId : String) (count : Int) :
    (m.prebookTask workerId count).worker? id =
      if id = workerId then
        (m.worker? id).map fun w => { w with runningTaskCount := w.runningTaskCount + count }
      else m.worker? id := worker?_change _

/-- What a handler makes of a request. -/
inductive Handled (m : WorkerManager) (now : Nat) :
    WorkerRequest → RpcRespHeader × WorkerManager → Prop
  | refused (r : RegisterRequest) (header : RpcRespHeader) (herror : header.error ≠ none)
      (hempty : r.workerId = "" ∨ r.address = "") : Handled m now (.register r) (header, m)
  | registered (r : RegisterRequest) (hnamed : r.workerId ≠ "" ∧ r.address ≠ "") :
      Handled m now (.register r) ({}, m.handleRegister r.workerId r.address now)
  | unknown (r : HeartbeatRequest) (header : RpcRespHeader) (herror : header.error ≠ none)
      (hunknown : m.worker? r.workerId = none) : Handled m now (.heartbeat r) (header, m)
  | renewed (r : HeartbeatRequest) (hknown : m.worker? r.workerId ≠ none) :
      Handled m now (.heartbeat r)
        ({}, (m.handleHeartbeat r.workerId r.runningTaskCount now).2)

theorem handle_handled (request : WorkerRequest) :
    Handled m now request (SchedulerServiceImpl.handle request now m) := by
  cases request with
  | register r =>
    show Handled m now _ (SchedulerServiceImpl.register r now m)
    unfold SchedulerServiceImpl.register
    split
    · next hempty => exact .refused r _ (Option.some_ne_none _) hempty
    · next hnamed => exact .registered r (not_or.mp hnamed)
  | heartbeat r =>
    show Handled m now _ (SchedulerServiceImpl.heartbeat r now m)
    unfold SchedulerServiceImpl.heartbeat
    by_cases hregistered : m.Registered r.workerId
    · have hresult : (m.handleHeartbeat r.workerId r.runningTaskCount now).1 = true := by
        rw [handleHeartbeat, if_pos hregistered]
      rw [if_pos hresult]
      exact .renewed r fun hnone => worker?_eq_none_iff.mp hnone hregistered
    · have hresult : m.handleHeartbeat r.workerId r.runningTaskCount now = (false, m) := by
        rw [handleHeartbeat, if_neg hregistered]
      rw [hresult]
      exact .unknown r _ (Option.some_ne_none _) (worker?_eq_none_iff.mpr hregistered)

/-- The workers of the map are among those named, and were heard from. -/
structure Lists (m : WorkerManager) (names : List (String × String)) (now : Nat) : Prop where
  timeout : m.workerTimeout = 60000
  worker : ∀ id w, m.worker? id = some w → w.lastHeartbeatTime ≤ now ∧ (id, w.address) ∈ names

variable {names : List (String × String)} {name : String × String}

/-- A worker's requests give its own name. -/
def RequestFrom (name : String × String) : WorkerRequest → Prop
  | .register r => r = ⟨name.1, name.2⟩
  | .heartbeat r => r.workerId = name.1

theorem Lists.mono {later : Nat} (h : m.Lists names now) (hlater : now ≤ later) :
    m.Lists names later :=
  ⟨h.timeout, fun id w hw => ⟨(h.worker id w hw).1.trans hlater, (h.worker id w hw).2⟩⟩

theorem lists_started : started.Lists names now := ⟨rfl, fun _ _ hw => nomatch hw⟩

theorem Lists.pruneDeadWorkers (h : m.Lists names now) (r : Nat) :
    (m.pruneDeadWorkers r).2.Lists names now :=
  ⟨h.timeout, fun id w hw => h.worker id w (worker?_pruneDeadWorkers.mp hw).1⟩

theorem Lists.prebookTask (h : m.Lists names now) (workerId : String) (count : Int) :
    (m.prebookTask workerId count).Lists names now := by
  refine ⟨h.timeout, fun id w hw => ?_⟩
  rw [worker?_prebookTask] at hw
  split at hw
  · obtain ⟨v, hv, rfl⟩ := Option.map_eq_some_iff.mp hw
    exact h.worker id v hv
  · exact h.worker id w hw

/-- The handlers list workers under the names they come with. -/
theorem Lists.handle (h : m.Lists names now) {request : WorkerRequest} (hname : name ∈ names)
    (hfrom : RequestFrom name request) :
    (SchedulerServiceImpl.handle request now m).2.Lists names now := by
  have hhandled : Handled m now request (SchedulerServiceImpl.handle request now m) :=
    handle_handled request
  generalize SchedulerServiceImpl.handle request now m = result at hhandled ⊢
  cases hhandled with
  | refused r header herror hempty => exact h
  | registered r hnamed =>
    refine ⟨(workerTimeout_call (.handleRegister r.workerId r.address)).trans h.timeout,
      fun id w hw => ?_⟩
    rw [worker?_handleRegister] at hw
    split at hw
    · next hid =>
      obtain rfl := Option.some.inj hw
      obtain rfl : r = ⟨name.1, name.2⟩ := hfrom
      refine ⟨Nat.le_refl now, ?_⟩
      show (id, name.2) ∈ names
      rw [hid]
      exact hname
    · exact h.worker id w hw
  | unknown r header herror hunknown => exact h
  | renewed r hknown =>
    refine ⟨(workerTimeout_call (.handleHeartbeat r.workerId r.runningTaskCount)).trans h.timeout,
      fun id w hw => ?_⟩
    rw [worker?_handleHeartbeat] at hw
    split at hw
    · obtain ⟨v, hv, rfl⟩ := Option.map_eq_some_iff.mp hw
      exact ⟨Nat.le_refl now, (h.worker id v hv).2⟩
    · exact h.worker id w hw

theorem workerId_of_from {request : WorkerRequest} (hfrom : RequestFrom name request) :
    request.workerId = name.1 := by
  cases request with
  | register r =>
    obtain rfl : r = ⟨name.1, name.2⟩ := hfrom
    rfl
  | heartbeat r => exact hfrom

/-- A request changes nothing at another id. -/
theorem worker?_handle_other {request : WorkerRequest} (hother : request.workerId ≠ id) :
    (SchedulerServiceImpl.handle request now m).2.worker? id = m.worker? id := by
  have hhandled : Handled m now request (SchedulerServiceImpl.handle request now m) :=
    handle_handled request
  generalize SchedulerServiceImpl.handle request now m = result at hhandled ⊢
  cases hhandled with
  | refused r header herror hempty => rfl
  | registered r hnamed =>
    have hid : id ≠ r.workerId := Ne.symm hother
    rw [worker?_handleRegister, if_neg hid]
  | unknown r header herror hunknown => rfl
  | renewed r hknown =>
    have hid : id ≠ r.workerId := Ne.symm hother
    rw [worker?_handleHeartbeat, if_neg hid]

-- ---------------------------------------------------------------------------
-- Heard from
-- ---------------------------------------------------------------------------

/-- The worker is in the map with its address, and was heard from at `last` or later. -/
def Heard (m : WorkerManager) (name : String × String) (last : Nat) : Prop :=
  ∃ w, m.worker? name.1 = some w ∧ w.address = name.2 ∧ last ≤ w.lastHeartbeatTime

variable {last : Nat}

theorem Heard.prebookTask (h : m.Heard name last) (workerId : String) (count : Int) :
    (m.prebookTask workerId count).Heard name last := by
  obtain ⟨w, hw, haddress, hlast⟩ := h
  rw [Heard, worker?_prebookTask, hw]
  split
  · exact ⟨_, rfl, haddress, hlast⟩
  · exact ⟨w, rfl, haddress, hlast⟩

/-- The patrol leaves a worker that was heard from within the timeout. -/
theorem Heard.pruneDeadWorkers (h : m.Heard name last) {r : Nat}
    (hr : r ≤ last + m.workerTimeout) : (m.pruneDeadWorkers r).2.Heard name last := by
  obtain ⟨w, hw, haddress, hlast⟩ := h
  refine ⟨w, worker?_pruneDeadWorkers.mpr ⟨hw, ?_⟩, haddress, hlast⟩
  exact hr.trans (Nat.add_le_add_right hlast _)

/-- A handler that is not refused has heard from the worker, -/
theorem heard_handle (hlists : m.Lists names now)
    (hunique : ∀ address, (name.1, address) ∈ names → address = name.2)
    {request : WorkerRequest} (hfrom : RequestFrom name request)
    (hok : (SchedulerServiceImpl.handle request now m).1.error = none) :
    (SchedulerServiceImpl.handle request now m).2.Heard name now := by
  have hhandled : Handled m now request (SchedulerServiceImpl.handle request now m) :=
    handle_handled request
  generalize SchedulerServiceImpl.handle request now m = result at hhandled hok ⊢
  cases hhandled with
  | refused r header herror hempty => exact absurd hok herror
  | registered r hnamed =>
    obtain rfl : r = ⟨name.1, name.2⟩ := hfrom
    refine ⟨⟨name.1, name.2, now, 0⟩, ?_, rfl, Nat.le_refl now⟩
    rw [worker?_handleRegister, if_pos rfl]
  | unknown r header herror hunknown => exact absurd hok herror
  | renewed r hknown =>
    obtain ⟨w, hw⟩ := Option.ne_none_iff_exists'.mp hknown
    have hid : r.workerId = name.1 := hfrom
    rw [hid] at hw ⊢
    refine ⟨{ w with lastHeartbeatTime := now, runningTaskCount := r.runningTaskCount }, ?_,
      hunique _ (hlists.worker _ w hw).2, Nat.le_refl now⟩
    rw [worker?_handleHeartbeat, if_pos rfl, hw]
    rfl

/-- and no handler forgets a worker. -/
theorem Heard.handle (h : m.Heard name last) (hlast : last ≤ now) {request : WorkerRequest}
    {sender : String × String} (hsender : sender ∈ names)
    (hunique : ∀ address, (name.1, address) ∈ names → address = name.2)
    (hfrom : RequestFrom sender request) :
    (SchedulerServiceImpl.handle request now m).2.Heard name last := by
  have hhandled : Handled m now request (SchedulerServiceImpl.handle request now m) :=
    handle_handled request
  generalize SchedulerServiceImpl.handle request now m = result at hhandled ⊢
  obtain ⟨w, hw, haddress, hheard⟩ := h
  cases hhandled with
  | refused r header herror hempty => exact ⟨w, hw, haddress, hheard⟩
  | registered r hnamed =>
    rw [Heard, worker?_handleRegister]
    split
    · next hid =>
      obtain rfl : r = ⟨sender.1, sender.2⟩ := hfrom
      have haddress : sender.2 = name.2 := by
        refine hunique sender.2 ?_
        rw [hid]
        exact hsender
      exact ⟨_, rfl, haddress, hlast⟩
    · exact ⟨w, hw, haddress, hheard⟩
  | unknown r header herror hunknown => exact ⟨w, hw, haddress, hheard⟩
  | renewed r hknown =>
    rw [Heard, worker?_handleHeartbeat, hw]
    split
    · exact ⟨_, rfl, haddress, hlast⟩
    · exact ⟨w, rfl, haddress, hheard⟩

/-- A worker that was heard from within the timeout is available, and no patrol that has
looked at the clock takes it. -/
theorem Heard.available (h : m.Heard name last) (order : WorkerOrder)
    (hnow : now ≤ last + m.workerTimeout) :
    (∃ w ∈ m.getAvailableWorkersSorted order now, w.workerId = name.1 ∧ w.address = name.2) ∧
      ∀ r ≤ now, name.1 ∉ (m.pruneDeadWorkers r).1 := by
  obtain ⟨w, hw, haddress, hlast⟩ := h
  obtain ⟨-, hid⟩ := worker?_eq_some_iff.mp hw
  have hfresh : ∀ r ≤ now, (lease w).Fresh m.workerTimeout r := fun r hr =>
    hr.trans (hnow.trans (Nat.add_le_add_right hlast _))
  refine ⟨⟨w, (mem_available order).mpr ⟨hid ▸ hw, hfresh now (Nat.le_refl now)⟩, hid, haddress⟩,
    fun r hr hpruned => ?_⟩
  obtain ⟨l, hl, hdead⟩ := mem_pruned.mp hpruned
  obtain ⟨v, hv, rfl⟩ := Option.map_eq_some_iff.mp hl
  obtain rfl : w = v := Option.some.inj (hw.symm.trans hv)
  exact hdead (hfresh r hr)

end WorkerManager

end DistTaskSystem
