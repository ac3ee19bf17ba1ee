import DistTaskSystem.Guarantees.Registration
import DistTaskSystem.Library.Parties
import DistTaskSystem.Library.Runs

/-!
# DTS — workers that come back, and workers that are dropped

The heartbeats of `WorkerNode` and the patrol of the scheduler, taken together, tell the
workers that are there from those that are not: whatever was lost before, a worker in its
loop is soon available again and stays so, and one that is not heard from is soon gone.

Nothing in the code bounds how late a thread is, or how often a call fails, so both are
said of the run. An observer counts the failed rounds of a worker in a row (`watch`); with
threads that are in time he can let three of them pass.

A moment at which the worker stands anywhere in its loop is as good a start as one at
which it was heard from (`onTime_of_sound`): one invariant carries both cases.

## Results

* `step_sound`     — ids, addresses and requests are those of the workers.
* `step_heard`     — none but a crash or a late patrol forgets a worker.
* `self_healing`   — a worker in its loop is available when its grace time is over.
* `silent_dropped` — a worker that is not heard from is dropped.
-/

namespace DistTaskSystem

-- ---------------------------------------------------------------------------
-- What holds in every run
-- ---------------------------------------------------------------------------

/-- The id of a worker and the address it gives. -/
def HeartbeatNode.name (n : HeartbeatNode) : String × String := (n.workerId, n.advertiseAddr)

/-- Both are given. -/
def Named (name : String × String) : Prop := name.1 ≠ "" ∧ name.2 ≠ ""

/-- How a worker can stand. In the loop it has a name: the first registration was not
refused, and so no later one is. -/
inductive PointSound (name : String × String) (now : Nat) : NodePoint → Prop
  | idle : PointSound name now .idle
  | exited : PointSound name now .exited
  | starting (c : PendingCall) (hrequest : c.request = .register ⟨name.1, name.2⟩)
      (hresponse : ∀ header ∈ c.response, header.error = none → Named name) :
      PointSound name now (.starting c)
  | waiting (wakeAt : Nat) (hnamed : Named name) (hwake : wakeAt ≤ now + 5000) :
      PointSound name now (.waiting wakeAt)
  | beating (c : PendingCall) (hnamed : Named name) (hrequest : c.request = .heartbeat ⟨name.1, 0⟩)
      (hdeadline : c.deadline ≤ now + 2000) : PointSound name now (.beating c)
  | registering (c : PendingCall) (hnamed : Named name)
      (hrequest : c.request = .register ⟨name.1, name.2⟩) (hdeadline : c.deadline ≤ now + 5000)
      (hresponse : ∀ header ∈ c.response, header.error = none) :
      PointSound name now (.registering c)

theorem PointSound.mono {name : String × String} {now later : Nat} {p : NodePoint}
    (h : PointSound name now p) (hlater : now ≤ later) : PointSound name later p := by
  cases h with
  | idle => exact .idle
  | exited => exact .exited
  | starting c hrequest hresponse => exact .starting c hrequest hresponse
  | waiting wakeAt hnamed hwake => exact .waiting wakeAt hnamed (by omega)
  | beating c hnamed hrequest hdeadline => exact .beating c hnamed hrequest (by omega)
  | registering c hnamed hrequest hdeadline hresponse =>
    exact .registering c hnamed hrequest (by omega) hresponse

section Points

variable {n : HeartbeatNode} {c : PendingCall}

/-- A registration under a full name is not refused. -/
theorem handle_register {name : String × String} {m : WorkerManager} {now : Nat} :
    (SchedulerServiceImpl.handle (.register ⟨name.1, name.2⟩) now m).1.error = none ↔
      Named name := by
  show (SchedulerServiceImpl.register ⟨name.1, name.2⟩ now m).1.error = none ↔ _
  unfold SchedulerServiceImpl.register Named
  split
  · next hempty =>
    refine iff_of_false (Option.some_ne_none _) fun hnamed => ?_
    exact hempty.elim hnamed.1 hnamed.2
  · next hnamed => exact iff_of_true rfl (not_or.mp hnamed)

theorem PointSound.answered {now : Nat} {m : WorkerManager} (h : PointSound n.name now n.point)
    (hcall : n.call? = some c) : PointSound n.name now
      (n.answered (SchedulerServiceImpl.handle c.request now m).1).point := by
  unfold HeartbeatNode.call? at hcall
  unfold HeartbeatNode.answered
  dsimp only
  generalize n.point = p at h hcall ⊢
  cases h with
  | idle => exact .idle
  | exited => exact .exited
  | starting d hrequest hresponse =>
    obtain rfl := Option.some.inj hcall
    refine .starting _ hrequest fun header hheader hok => ?_
    obtain rfl := Option.some.inj hheader
    rw [hrequest] at hok
    exact handle_register.mp hok
  | waiting wakeAt hnamed hwake => exact .waiting wakeAt hnamed hwake
  | beating d hnamed hrequest hdeadline => exact .beating _ hnamed hrequest hdeadline
  | registering d hnamed hrequest hdeadline hresponse =>
    obtain rfl := Option.some.inj hcall
    refine .registering _ hnamed hrequest hdeadline fun header hheader => ?_
    obtain rfl := Option.some.inj hheader
    rw [hrequest]
    exact handle_register.mpr hnamed

theorem PointSound.returned {now : Nat} {success : Bool} (h : PointSound n.name now n.point)
    (hcall : n.call? = some c)
    (hsuccess : success = true → ∃ header ∈ c.response, header.error = none) :
    PointSound n.name now (n.returned now success).point := by
  unfold HeartbeatNode.call? at hcall
  unfold HeartbeatNode.returned
  dsimp only
  generalize n.point = p at h hcall ⊢
  cases h with
  | idle => exact .idle
  | exited => exact .exited
  | starting d hrequest hresponse =>
    obtain rfl := Option.some.inj hcall
    cases success with
    | true =>
      obtain ⟨header, hheader, hok⟩ := hsuccess rfl
      exact .waiting now (hresponse header hheader hok) (Nat.le_add_right now 5000)
    | false => exact .exited
  | waiting wakeAt hnamed hwake => exact absurd hcall (by simp)
  | beating d hnamed hrequest hdeadline =>
    cases success with
    | true => exact .waiting _ hnamed (Nat.le_refl _)
    | false =>
      exact .registering _ hnamed rfl (Nat.le_refl _) (by simp [HeartbeatNode.registerWorker])
  | registering d hnamed hrequest hdeadline hresponse => exact .waiting _ hnamed (Nat.le_refl _)

end Points

-- ---------------------------------------------------------------------------
-- The clock
-- ---------------------------------------------------------------------------

/-- When a worker goes on at the latest, if nothing that it waits for is later than
`latency`. -/
def NodePoint.due (latency : Nat) : NodePoint → Option Nat
  | .waiting wakeAt => some (wakeAt + latency)
  | .starting c | .beating c | .registering c => some (c.deadline + latency)
  | .idle | .exited => none

def NodePoint.Looping : NodePoint → Prop
  | .waiting _ | .beating _ | .registering _ => True
  | .idle | .starting _ | .exited => False

/-- A round of the loop: two calls and the sleep. -/
def roundTime (latency : Nat) : Nat := 12000 + 3 * latency

/-- From anywhere in the loop to the end of a round that does not fail, with up to `misses`
rounds that do before it. -/
def graceTime (latency misses : Nat) : Nat := 17000 + 4 * latency + misses * roundTime latency

/-- A worker that was heard from at `last` and has had `k` rounds that failed since. -/
inductive OnTime (latency k last : Nat) : NodePoint → Prop
  | waiting (wakeAt : Nat) (h : wakeAt ≤ last + 10000 + latency + k * roundTime latency) :
      OnTime latency k last (.waiting wakeAt)
  | beating (c : PendingCall)
      (h : c.deadline ≤ last + 12000 + 2 * latency + k * roundTime latency)
      (hsuccess : ∀ header ∈ c.response, header.error = none → c.deadline ≤ last + 5000) :
      OnTime latency k last (.beating c)
  | registering (c : PendingCall)
      (h : c.deadline ≤ last + 17000 + 3 * latency + k * roundTime latency)
      (hresponse : c.response ≠ none → c.deadline ≤ last + 5000) :
      OnTime latency k last (.registering c)

section Points

variable {latency misses k k' last now : Nat} {p : NodePoint} {n : HeartbeatNode}
  {c : PendingCall} {name : String × String}

/-- The failed rounds in a row, after a call that has returned. -/
def afterCall (misses k : Nat) (p : NodePoint) (success : Bool) : Option Nat :=
  match p with
  | .beating _ => some (if success then 0 else k)
  | .registering _ => if success then some 0 else if k < misses then some (k + 1) else none
  | _ => some k

theorem OnTime.recent (h : OnTime latency k last p) (hdue : ∀ due ∈ p.due latency, now ≤ due)
    (hk : k ≤ misses) : now ≤ last + graceTime latency misses := by
  have hrounds := Nat.mul_le_mul_right (roundTime latency) hk
  unfold graceTime
  cases h with
  | waiting wakeAt h =>
    have := hdue _ rfl
    omega
  | beating c h hsuccess =>
    have := hdue _ rfl
    omega
  | registering c h hresponse =>
    have := hdue _ rfl
    omega

theorem PointSound.named (h : PointSound name now p) (hlooping : p.Looping) : Named name := by
  cases h with
  | idle => exact hlooping.elim
  | exited => exact hlooping.elim
  | starting c hrequest hresponse => exact hlooping.elim
  | waiting wakeAt hnamed hwake => exact hnamed
  | beating c hnamed hrequest hdeadline => exact hnamed
  | registering c hnamed hrequest hdeadline hresponse => exact hnamed

/-- A worker that was just heard from, or may be taken for one. -/
theorem onTime_of_sound (h : PointSound name now p) (hlooping : p.Looping) :
    OnTime latency k now p := by
  cases h with
  | idle => exact hlooping.elim
  | exited => exact hlooping.elim
  | starting c hrequest hresponse => exact hlooping.elim
  | waiting wakeAt hnamed hwake => exact .waiting wakeAt (by omega)
  | beating c hnamed hrequest hdeadline =>
    exact .beating c (by omega) fun _ _ _ => by omega
  | registering c hnamed hrequest hdeadline hresponse =>
    exact .registering c (by omega) fun _ => by omega

theorem OnTime.woken {wakeAt : Nat} (h : OnTime latency k last (.waiting wakeAt))
    (hdue : now ≤ wakeAt + latency) : OnTime latency k last (.beating (n.sendHeartbeat now)) := by
  cases h with
  | waiting _ h =>
    refine .beating _ ?_ (by simp [HeartbeatNode.sendHeartbeat])
    show now + 2000 ≤ _
    omega

/-- A call that has returned, after `k` rounds that failed. -/
theorem OnTime.returned {success : Bool} (h : OnTime latency k last n.point)
    (hcall : n.call? = some c) (hdue : ∀ due ∈ n.point.due latency, now ≤ due)
    (hafter : afterCall misses k n.point success = some k')
    (hsuccess : success = true → ∃ header ∈ c.response, header.error = none) :
    OnTime latency k' last (n.returned now success).point := by
  unfold HeartbeatNode.call? at hcall
  unfold HeartbeatNode.returned
  dsimp only
  generalize n.point = p at h hcall hdue hafter ⊢
  cases h with
  | waiting wakeAt h => exact absurd hcall (by simp)
  | beating d h hanswered =>
    obtain rfl := Option.some.inj hcall
    have hlate := hdue _ rfl
    obtain rfl := Option.some.inj hafter
    cases success with
    | true =>
      obtain ⟨header, hheader, hok⟩ := hsuccess rfl
      have := hanswered header hheader hok
      exact .waiting _ (by omega)
    | false =>
      refine .registering _ ?_ (by simp [HeartbeatNode.registerWorker])
      show now + 5000 ≤ _
      simp only [Bool.false_eq_true, if_false]
      omega
  | registering d h hanswered =>
    obtain rfl := Option.some.inj hcall
    have hlate := hdue _ rfl
    cases success with
    | true =>
      obtain rfl := Option.some.inj hafter
      obtain ⟨header, hheader, -⟩ := hsuccess rfl
      have := hanswered (Option.ne_none_iff_exists'.mpr ⟨header, hheader⟩)
      exact .waiting _ (by omega)
    | false =>
      obtain ⟨hless, hk⟩ := Option.ite_none_right_eq_some.mp hafter
      obtain rfl := Option.some.inj hk
      refine .waiting _ ?_
      rw [Nat.succ_mul k]
      have : roundTime latency = 12000 + 3 * latency := rfl
      omega

/-- A heartbeat that was refused leaves the worker as it is. -/
theorem OnTime.answered {header : RpcRespHeader} (h : OnTime latency k last n.point)
    (hcall : n.call? = some c) (hrequest : ∀ r, c.request ≠ .register r)
    (hsound : PointSound name now n.point) (herror : header.error ≠ none) :
    OnTime latency k last (n.answered header).point := by
  unfold HeartbeatNode.call? at hcall
  unfold HeartbeatNode.answered
  dsimp only
  generalize n.point = p at h hcall hsound ⊢
  cases h with
  | waiting wakeAt h => exact absurd hcall (by simp)
  | beating d h hanswered =>
    refine .beating _ h fun header' hheader hok => ?_
    obtain rfl := Option.some.inj hheader
    exact absurd hok herror
  | registering d h hanswered =>
    obtain rfl := Option.some.inj hcall
    cases hsound with
    | registering _ hnamed hregister hdeadline hresponse => exact absurd hregister (hrequest _)

theorem looping_answered (header : RpcRespHeader) :
    (n.answered header).point.Looping ↔ n.point.Looping := by
  unfold HeartbeatNode.answered
  dsimp only
  generalize n.point = p
  cases p <;> rfl

theorem looping_returned {success : Bool} (h : n.point.Looping) :
    (n.returned now success).point.Looping := by
  unfold HeartbeatNode.returned
  dsimp only
  generalize n.point = p at h ⊢
  cases p with
  | idle => exact h.elim
  | starting c => exact h.elim
  | waiting wakeAt => trivial
  | beating c => cases success <;> trivial
  | registering c => trivial
  | exited => exact h.elim

theorem due_answered (header : RpcRespHeader) :
    (n.answered header).point.due latency = n.point.due latency := by
  unfold HeartbeatNode.answered
  dsimp only
  generalize n.point = p
  cases p <;> rfl

theorem due_returned {success : Bool} (hcall : n.call? = some c) :
    ∀ due ∈ (n.returned now success).point.due latency, now ≤ due := by
  intro due hdue
  unfold HeartbeatNode.call? at hcall
  unfold HeartbeatNode.returned at hdue
  dsimp only at hdue
  generalize n.point = p at hcall hdue
  cases p with
  | idle => exact absurd hcall (by simp)
  | waiting wakeAt => exact absurd hcall (by simp)
  | exited => exact absurd hcall (by simp)
  | starting d =>
    cases success with
    | true =>
      obtain rfl := Option.some.inj hdue
      omega
    | false => exact absurd hdue (by simp [NodePoint.due])
  | beating d =>
    cases success with
    | true =>
      obtain rfl := Option.some.inj hdue
      omega
    | false =>
      obtain rfl := Option.some.inj hdue
      show now ≤ now + 5000 + latency
      omega
  | registering d =>
    obtain rfl := Option.some.inj hdue
    omega

theorem afterCall_le {success : Bool} (hafter : afterCall misses k p success = some k')
    (hk : k ≤ misses) : k' ≤ misses := by
  unfold afterCall at hafter
  split at hafter
  · obtain rfl := Option.some.inj hafter
    split <;> omega
  · split at hafter
    · obtain rfl := Option.some.inj hafter
      omega
    · obtain ⟨hless, hk'⟩ := Option.ite_none_right_eq_some.mp hafter
      obtain rfl := Option.some.inj hk'
      exact hless
  · obtain rfl := Option.some.inj hafter
    exact hk

end Points

namespace Registry

open WorkerManager (Lists RequestFrom Heard)

/-- What holds in every run of workers of these names. -/
structure Sound (names : List (String × String)) (s : Registry) : Prop where
  named : s.nodes.map HeartbeatNode.name = names
  node : ∀ (i : Nat) (n : HeartbeatNode), s.nodes[i]? = some n → PointSound n.name s.now n.point
  stray : ∀ request ∈ s.strays, ∃ name ∈ names, RequestFrom name request
  manager : ∀ m ∈ s.manager, m.Lists names s.now
  patrol : match s.patrol with
    | .waiting wakeAt => wakeAt ≤ s.now + 30000
    | .pruning now => now ≤ s.now
    | .requeueing _ now => now ≤ s.now

variable {names : List (String × String)} {s t : Registry} {i : Nat} {n : HeartbeatNode}
  {c : PendingCall}

theorem Sound.mem_names (h : Sound names s) (hn : s.nodes[i]? = some n) : n.name ∈ names :=
  h.named ▸ List.mem_map_of_mem (List.mem_of_getElem? hn)

/-- A worker moves, and with it what is underway and what is listed. -/
theorem Sound.move (h : Sound names s) (hn : s.nodes[i]? = some n) (n' : HeartbeatNode)
    (hpoint : PointSound n.name s.now n'.point) (hname : n'.name = n.name)
    {strays : List WorkerRequest}
    (hstrays : ∀ request ∈ strays, ∃ name ∈ names, RequestFrom name request)
    {manager : Option WorkerManager} (hmanager : ∀ m ∈ manager, m.Lists names s.now) :
    Sound names { s.move i n' with strays := strays, manager := manager } where
  named := by
    show (s.nodes.set i n').map _ = names
    obtain ⟨before, after, hl, hset⟩ := Parties.split hn
    rw [hset, ← h.named, hl, List.map_append, List.map_append, List.map_cons, List.map_cons, hname]
  node := Parties.forall_set (fun j b _ hb => h.node j b hb) (hname ▸ hpoint)
  stray := hstrays
  manager := hmanager
  patrol := h.patrol

/-- A call is one of the worker's own. -/
theorem Sound.request_from (h : Sound names s) (hn : s.nodes[i]? = some n)
    (hcall : n.call? = some c) : RequestFrom n.name c.request := by
  have hpoint := h.node i n hn
  unfold HeartbeatNode.call? at hcall
  generalize n.point = p at hpoint hcall
  cases hpoint with
  | idle => exact absurd hcall (by simp)
  | exited => exact absurd hcall (by simp)
  | starting d hrequest hresponse =>
    obtain rfl := Option.some.inj hcall
    rw [hrequest]
    rfl
  | waiting wakeAt hnamed hwake => exact absurd hcall (by simp)
  | beating d hnamed hrequest hdeadline =>
    obtain rfl := Option.some.inj hcall
    rw [hrequest]
    rfl
  | registering d hnamed hrequest hdeadline hresponse =>
    obtain rfl := Option.some.inj hcall
    rw [hrequest]
    rfl

theorem sound_launched {nodes : List HeartbeatNode} (hidle : ∀ n ∈ nodes, n.point = .idle) :
    Sound (nodes.map HeartbeatNode.name) (launched nodes) where
  named := rfl
  node i n hn := hidle n (List.mem_of_getElem? hn) ▸ .idle
  stray := by simp [launched]
  manager := by simp [launched]
  patrol := Nat.zero_le _

theorem step_sound {a : Action} (h : Sound names s) (hstep : s.step a = some t) :
    Sound names t := by
  cases step_moves hstep with
  | tick ms =>
    refine ⟨h.named, fun i n hn => (h.node i n hn).mono (Nat.le_add_right _ _), h.stray,
      fun m hm => (h.manager m hm).mono (Nat.le_add_right _ _), ?_⟩
    have hpatrol := h.patrol
    dsimp only
    split at hpatrol <;> omega
  | crash => exact ⟨h.named, h.node, h.stray, by simp, h.patrol⟩
  | boot hdown =>
    refine ⟨h.named, h.node, h.stray, fun m hm => ?_, Nat.le_refl _⟩
    obtain rfl := Option.some.inj hm
    exact WorkerManager.lists_started
  | rise m wakeAt hm hpatrol hdue => exact ⟨h.named, h.node, h.stray, h.manager, Nat.le_refl _⟩
  | prune m now hm hpatrol =>
    have hread := h.patrol
    rw [hpatrol] at hread
    refine ⟨h.named, h.node, h.stray, fun m' hm' => ?_, hread⟩
    obtain rfl := Option.some.inj hm'
    exact (h.manager m hm).pruneDeadWorkers now
  | requeued m dead now hm hpatrol => exact ⟨h.named, h.node, h.stray, h.manager, Nat.le_refl _⟩
  | prebook m workerId count hm =>
    refine ⟨h.named, h.node, h.stray, fun m' hm' => ?_, h.patrol⟩
    obtain rfl := Option.some.inj hm'
    exact (h.manager m hm).prebookTask workerId count
  | stray k request m hk hm =>
    refine ⟨h.named, h.node, fun r hr => h.stray r (List.mem_of_mem_eraseIdx hr),
      fun m' hm' => ?_, h.patrol⟩
    obtain rfl := Option.some.inj hm'
    obtain ⟨name, hname, hfrom⟩ := h.stray request (List.mem_of_getElem? hk)
    exact (h.manager m hm).handle hname hfrom
  | started i n hn hrunning => exact h
  | start i n hn hpoint =>
    have hstarting : PointSound n.name s.now (.starting (n.registerWorker s.now)) :=
      .starting _ rfl (by simp [HeartbeatNode.registerWorker])
    exact h.move hn { n with running := true, point := .starting (n.registerWorker s.now) }
      hstarting rfl h.stray h.manager
  | stop i n hn =>
    exact h.move hn { n with running := false } (h.node i n hn) rfl h.stray h.manager
  | wake i n wakeAt hn hpoint hdue =>
    have hold := h.node i n hn
    rw [hpoint] at hold
    cases hold with
    | waiting _ hnamed hwake =>
      have hnext : PointSound n.name s.now
          (if n.running then .beating (n.sendHeartbeat s.now) else .idle) := by
        split
        · exact .beating _ hnamed rfl (Nat.le_refl _)
        · exact .idle
      exact h.move hn { n with point := _ } hnext rfl h.stray h.manager
  | serve i n c m hn hcall hm hnone =>
    refine h.move hn _ (PointSound.answered (h.node i n hn) hcall) rfl h.stray fun m' hm' => ?_
    obtain rfl := Option.some.inj hm'
    exact (h.manager m hm).handle (h.mem_names hn) (h.request_from hn hcall)
  | receive i n c header hn hcall hresponse =>
    refine h.move hn _ (PointSound.returned (h.node i n hn) hcall fun hok => ?_) rfl h.stray
      h.manager
    exact ⟨header, hresponse, Option.isNone_iff_eq_none.mp hok⟩
  | fail i n c status underway hn hcall =>
    have hreturned : PointSound n.name s.now (n.returned s.now false).point :=
      PointSound.returned (h.node i n hn) hcall (by simp)
    refine h.move hn _ hreturned rfl (fun r hr => ?_) h.manager
    split at hr
    · rcases List.mem_append.mp hr with hr | hr
      · exact h.stray r hr
      · obtain rfl := List.mem_singleton.mp hr
        exact ⟨n.name, h.mem_names hn, h.request_from hn hcall⟩
    · exact h.stray r hr

-- ---------------------------------------------------------------------------
-- Staying registered
-- ---------------------------------------------------------------------------

variable {name : String × String} {latency misses k last by' : Nat}

/-- Ids are given out once. -/
theorem address_unique (hnodup : (names.map Prod.fst).Nodup) (hname : name ∈ names)
    (address : String) (h : (name.1, address) ∈ names) : address = name.2 := by
  have heq : (name.1, address) = name := List.inj_on_of_nodup_map hnodup h hname rfl
  rw [← heq]

/-- No step but a crash forgets a worker that was heard from within the timeout. -/
theorem step_heard (h : Sound names s) (hnodup : (names.map Prod.fst).Nodup)
    (hname : name ∈ names) {m : WorkerManager} (hm : s.manager = some m)
    (hheard : m.Heard name last) (hlast : last ≤ s.now) (hfresh : s.now ≤ last + 60000)
    {a : Action} (hstep : s.step a = some t) (ha : a ≠ .crash) :
    ∃ m', t.manager = some m' ∧ m'.Heard name last := by
  have hunique := address_unique hnodup hname
  have hmanager : ∀ m', s.manager = some m' → m'.Heard name last := by
    intro m' hm'
    obtain rfl : m = m' := Option.some.inj (hm.symm.trans hm')
    exact hheard
  cases step_moves hstep with
  | crash => exact absurd rfl ha
  | boot hdown => exact absurd (hm.symm.trans hdown) (Option.some_ne_none m)
  | prune m' now hm' hpatrol =>
    have hread := h.patrol
    rw [hpatrol] at hread
    refine ⟨_, rfl, (hmanager m' hm').pruneDeadWorkers ?_⟩
    rw [(h.manager m' hm').timeout]
    exact hread.trans hfresh
  | prebook m' workerId count hm' => exact ⟨_, rfl, (hmanager m' hm').prebookTask workerId count⟩
  | stray j request m' hj hm' =>
    obtain ⟨sender, hsender, hfrom⟩ := h.stray request (List.mem_of_getElem? hj)
    exact ⟨_, rfl, (hmanager m' hm').handle hlast hsender hunique hfrom⟩
  | serve i n c m' hn hcall hm' hnone =>
    exact ⟨_, rfl, (hmanager m' hm').handle hlast (h.mem_names hn) hunique
      (h.request_from hn hcall)⟩
  | tick | rise | requeued | started | start | stop | wake | receive | fail =>
    exact ⟨m, hm, hheard⟩

-- ---------------------------------------------------------------------------
-- Coming back
-- ---------------------------------------------------------------------------

/-- An observer of worker `i`. He counts the rounds in a row that fail, and lets `misses` of
them pass; he refuses a crash of the scheduler, the end of the worker, and a clock that
leaves the worker behind by more than `latency`. -/
def watch (latency misses i k : Nat) (s : Registry) : Action → Option Nat
  | .tick ms =>
    if ((s.nodes[i]?).bind fun n => n.point.due latency).all fun due => s.now + ms ≤ due then some k
    else none
  | .crash => none
  | .node j a =>
    if j = i then
      (s.nodes[i]?).bind fun n => match a with
        | .stop => none
        | .receive => afterCall misses k n.point
          ((n.call?.bind PendingCall.response).any fun header => header.error.isNone)
        | .fail _ _ => afterCall misses k n.point false
        | .start | .wake | .serve => some k
    else some k
  | .boot | .patrol | .prebook _ _ | .stray _ => some k

/-- The worker goes on, and was heard from not too long ago, if `start` counts as such a
time. -/
structure Tended (latency misses i : Nat) (name : String × String) (start : Nat)
    (x : Registry × Nat) : Prop where
  within : x.2 ≤ misses
  since : start ≤ x.1.now
  node : ∃ n, x.1.nodes[i]? = some n ∧ n.name = name ∧ n.running = true ∧ n.point.Looping ∧
    (x.1.now = start ∨ (∀ due ∈ n.point.due latency, x.1.now ≤ due) ∧
      ∃ last ≤ x.1.now, OnTime latency x.2 last n.point ∧
        (last = start ∨ ∃ m, x.1.manager = some m ∧ m.Heard name last))

variable {misses' k' start : Nat} {n' : HeartbeatNode}

/-- What every step keeps of a worker that is tended, if it keeps that of the worker. -/
theorem Tended.move (h : Tended latency misses i name start (s, k)) (hsound : Sound names s)
    (hnodup : (names.map Prod.fst).Nodup) (hgrace : graceTime latency misses ≤ 60000) {a : Action}
    (hstep : s.step a = some t) (ha : a ≠ .crash) (hn : s.nodes[i]? = some n)
    (hn' : t.nodes[i]? = some n') (hnow : t.now = s.now) (hsame : n'.name = n.name)
    (hrunning : n.running = true → n'.running = true)
    (hlooping : n.point.Looping → n'.point.Looping) (hk : k' ≤ misses)
    (hdue : (∀ due ∈ n.point.due latency, s.now ≤ due) → ∀ due ∈ n'.point.due latency, s.now ≤ due)
    (hfresh : (∀ due ∈ n.point.due latency, s.now ≤ due) → ∀ last,
      OnTime latency k last n.point → OnTime latency k' last n'.point) :
    Tended latency misses i name start (t, k') := by
  obtain ⟨hwithin, hsince, m, hm, hname, hrun, hloop, htime⟩ := h
  dsimp only at hwithin hsince hm htime
  obtain rfl : n = m := Option.some.inj (hn.symm.trans hm)
  refine ⟨hk, hnow ▸ hsince, n', hn', hsame.trans hname, hrunning hrun, hlooping hloop, ?_⟩
  dsimp only
  rw [hnow]
  rcases htime with hstart | ⟨hprompt, last, hlast, hpoint, hheard⟩
  · exact .inl hstart
  · refine .inr ⟨hdue hprompt, last, hlast, hfresh hprompt last hpoint, ?_⟩
    rcases hheard with hstart | ⟨manager, hmanager, hheard⟩
    · exact .inl hstart
    · refine .inr (step_heard hsound hnodup (hname ▸ hsound.mem_names hn) hmanager hheard hlast ?_
        hstep ha)
      have := hpoint.recent hprompt hwithin
      omega

/-- The scheduler runs the handler of the worker's call. -/
theorem Tended.serve (h : Tended latency misses i name start (s, k)) (hsound : Sound names s)
    (hnodup : (names.map Prod.fst).Nodup) (hgrace : graceTime latency misses ≤ 60000)
    (hn : s.nodes[i]? = some n) (hn' : t.nodes[i]? = some n') (hcall : n.call? = some c)
    {m : WorkerManager} (hm : s.manager = some m)
    (hanswered : n' = n.answered (SchedulerServiceImpl.handle c.request s.now m).1)
    (hmanager : t.manager = some (SchedulerServiceImpl.handle c.request s.now m).2)
    (hnow : t.now = s.now) (hstep : s.step (.node i .serve) = some t) :
    Tended latency misses i name start (t, k) := by
  subst hanswered
  have hpoint := hsound.node i n hn
  have hfrom := hsound.request_from hn hcall
  obtain ⟨n₀, hn₀, hname, hrun, hloop, htime⟩ := h.node
  dsimp only at hn₀ htime
  obtain rfl : n = n₀ := Option.some.inj (hn.symm.trans hn₀)
  by_cases hok : (SchedulerServiceImpl.handle c.request s.now m).1.error = none
  · -- heard from just now
    have hunique := address_unique hnodup (hname ▸ hsound.mem_names hn)
    have hheard := WorkerManager.heard_handle (hsound.manager m hm) hunique (hname ▸ hfrom) hok
    refine ⟨h.within, hnow ▸ h.since, _, hn', hname, hrun, (looping_answered _).mpr hloop, ?_⟩
    dsimp only
    rw [hnow, due_answered]
    refine htime.imp_right fun hlater =>
      ⟨hlater.1, s.now, Nat.le_refl _, ?_, .inr ⟨_, hmanager, hheard⟩⟩
    exact onTime_of_sound (hpoint.answered hcall) ((looping_answered _).mpr hloop)
  · -- only a heartbeat can be refused
    have hrequest : ∀ r, c.request ≠ .register r := by
      intro r hr
      rw [hr] at hfrom hok
      obtain rfl : r = ⟨n.name.1, n.name.2⟩ := hfrom
      exact hok (handle_register.mpr (hpoint.named hloop))
    exact h.move hsound hnodup hgrace hstep (by simp) hn hn' hnow rfl id (looping_answered _).mpr
      h.within (fun hprompt => (due_answered (n := n) _) ▸ hprompt) fun _ last hfresh =>
        hfresh.answered hcall hrequest hpoint hok

/-- **A step** that the observer lets pass. -/
theorem tended_step {a : Action} {y : Registry × Nat}
    (h : Tended latency misses i name start (s, k)) (hsound : Sound names s)
    (hnodup : (names.map Prod.fst).Nodup) (hgrace : graceTime latency misses ≤ 60000)
    (hstep : Runs.observed step (watch latency misses i) (s, k) a = some y) :
    Tended latency misses i name start y := by
  obtain ⟨t, k'⟩ := y
  obtain ⟨hreal, hwatch⟩ := Runs.observed_eq_some.mp hstep
  dsimp only at hreal hwatch
  obtain ⟨n, hn, hname, hrun, hloop, htime⟩ := h.node
  dsimp only at hn
  have hmoves := step_moves hreal
  have haside : a ≠ .crash → t.now = s.now → t.nodes[i]? = s.nodes[i]? → k = k' →
      Tended latency misses i name start (t, k') := by
    rintro ha hnow hnodes rfl
    exact h.move hsound hnodup hgrace hreal ha hn (hnodes.trans hn) hnow rfl id id h.within id
      fun _ _ => id
  have hother : ∀ j n', j ≠ i → (s.move j n').nodes[i]? = s.nodes[i]? := fun j n' hj =>
    List.getElem?_set_ne hj
  have hself : ∀ n', (s.move i n').nodes[i]? = some n' := fun n' => by
    show (s.nodes.set i n')[i]? = some n'
    rw [List.getElem?_set_self (List.getElem?_eq_some_iff.mp hn).1]
  cases hmoves with
  | tick ms =>
    obtain ⟨hprompt, hk⟩ := Option.ite_none_right_eq_some.mp hwatch
    obtain rfl := Option.some.inj hk
    have hdue : ∀ due ∈ n.point.due latency, s.now + ms ≤ due := by
      intro due hdue
      rw [hn, Option.bind_some, hdue] at hprompt
      exact of_decide_eq_true hprompt
    refine ⟨h.within, h.since.trans (Nat.le_add_right _ _), n, hn, hname, hrun, hloop,
      .inr ⟨hdue, ?_⟩⟩
    rcases htime with hstart | ⟨-, last, hlast, hpoint, hheard⟩
    · refine ⟨start, h.since.trans (Nat.le_add_right _ _), ?_, .inl rfl⟩
      have hstart : s.now = start := hstart
      exact onTime_of_sound (hstart ▸ hsound.node i n hn) hloop
    · exact ⟨last, hlast.trans (Nat.le_add_right _ _), hpoint, hheard⟩
  | crash => cases hwatch
  | boot hdown => exact haside (by simp) rfl rfl (Option.some.inj hwatch)
  | rise m wakeAt hm hpatrol hdue => exact haside (by simp) rfl rfl (Option.some.inj hwatch)
  | prune m now hm hpatrol => exact haside (by simp) rfl rfl (Option.some.inj hwatch)
  | requeued m dead now hm hpatrol => exact haside (by simp) rfl rfl (Option.some.inj hwatch)
  | prebook m workerId count hm => exact haside (by simp) rfl rfl (Option.some.inj hwatch)
  | stray l request m hl hm => exact haside (by simp) rfl rfl (Option.some.inj hwatch)
  | started j m hm hrunning =>
    refine haside (by simp) rfl rfl ?_
    by_cases hj : j = i
    · rw [watch, if_pos hj, hn] at hwatch
      exact Option.some.inj hwatch
    · exact Option.some.inj ((if_neg hj).symm.trans hwatch)
  | start j m hm hpoint =>
    by_cases hj : j = i
    · subst hj
      obtain rfl : n = m := Option.some.inj (hn.symm.trans hm)
      rw [hpoint] at hloop
      exact hloop.elim
    · exact haside (by simp) rfl (hother j _ hj) (Option.some.inj ((if_neg hj).symm.trans hwatch))
  | stop j m hm =>
    by_cases hj : j = i
    · rw [watch, if_pos hj, hn] at hwatch
      cases hwatch
    · exact haside (by simp) rfl (hother j _ hj) (Option.some.inj ((if_neg hj).symm.trans hwatch))
  | wake j m wakeAt hm hpoint hdue =>
    by_cases hj : j = i
    · subst hj
      obtain rfl : n = m := Option.some.inj (hn.symm.trans hm)
      rw [watch, if_pos rfl, hn] at hwatch
      obtain rfl := Option.some.inj hwatch
      refine h.move hsound hnodup hgrace hreal (by simp) hn (hself _) rfl rfl id (fun _ => ?_)
        h.within (fun _ => ?_) fun hprompt last hfresh => ?_
      · rw [if_pos hrun]
        trivial
      · rw [if_pos hrun]
        intro due hdue
        obtain rfl := Option.some.inj hdue
        show s.now ≤ s.now + 2000 + latency
        omega
      · rw [if_pos hrun]
        rw [hpoint] at hprompt hfresh
        exact hfresh.woken (hprompt _ rfl)
    · exact haside (by simp) rfl (hother j _ hj) (Option.some.inj ((if_neg hj).symm.trans hwatch))
  | serve j m c manager hm hcall hmanager hnone =>
    by_cases hj : j = i
    · subst hj
      obtain rfl : n = m := Option.some.inj (hn.symm.trans hm)
      rw [watch, if_pos rfl, hn] at hwatch
      obtain rfl := Option.some.inj hwatch
      exact h.serve hsound hnodup hgrace hn (hself _) hcall hmanager rfl rfl rfl hreal
    · exact haside (by simp) rfl (hother j _ hj) (Option.some.inj ((if_neg hj).symm.trans hwatch))
  | receive j m c header hm hcall hresponse =>
    by_cases hj : j = i
    · subst hj
      obtain rfl : n = m := Option.some.inj (hn.symm.trans hm)
      rw [watch, if_pos rfl, hn] at hwatch
      simp only [Option.bind_some, hcall, hresponse, Option.any_some] at hwatch
      refine h.move hsound hnodup hgrace hreal (by simp) hn (hself _) rfl rfl id looping_returned
        (afterCall_le hwatch h.within) (fun _ => due_returned hcall) fun hprompt last hfresh => ?_
      exact hfresh.returned hcall hprompt hwatch fun hok =>
        ⟨header, hresponse, Option.isNone_iff_eq_none.mp hok⟩
    · exact haside (by simp) rfl (hother j _ hj) (Option.some.inj ((if_neg hj).symm.trans hwatch))
  | fail j m c status underway hm hcall =>
    by_cases hj : j = i
    · subst hj
      obtain rfl : n = m := Option.some.inj (hn.symm.trans hm)
      rw [watch, if_pos rfl, hn] at hwatch
      refine h.move hsound hnodup hgrace hreal (by simp) hn (hself _) rfl rfl id looping_returned
        (afterCall_le hwatch h.within) (fun _ => due_returned hcall) fun hprompt last hfresh => ?_
      exact hfresh.returned hcall hprompt hwatch (by simp)
    · exact haside (by simp) rfl (hother j _ hj) (Option.some.inj ((if_neg hj).symm.trans hwatch))

/-- **Self-healing.** In every run of a scheduler and its workers, with restarts of the
scheduler, requests that are lost, late or answered in vain and patrols at any time before:
a worker in its loop is available at its own address, and safe from the patrol, once the
grace time is over in which it is never left behind by more than `latency`, the scheduler
does not crash, and no more than `misses` rounds in a row fail. -/
theorem self_healing {nodes : List HeartbeatNode} {before actions : List Action}
    (order : WorkerOrder) (hidle : ∀ n ∈ nodes, n.point = .idle)
    (hids : (nodes.map HeartbeatNode.workerId).Nodup)
    (hbefore : Runs.run step (launched nodes) before = some s) (hn : s.nodes[i]? = some n)
    (hrunning : n.running = true) (hlooping : n.point.Looping)
    (hgrace : graceTime latency misses ≤ 60000)
    (hrun : Runs.run (Runs.observed step (watch latency misses i)) (s, 0) actions = some (t, k))
    (hover : s.now + graceTime latency misses < t.now) :
    ∃ m, t.manager = some m ∧
      (∃ w ∈ m.getAvailableWorkersSorted order t.now,
        w.workerId = n.workerId ∧ w.address = n.advertiseAddr) ∧
      ∀ r ≤ t.now, n.workerId ∉ (m.pruneDeadWorkers r).1 := by
  have hsound : Sound (nodes.map HeartbeatNode.name) s :=
    Runs.run_invariant (fun _ _ _ h hstep => step_sound h hstep) hbefore (sound_launched hidle)
  have hnodup : ((nodes.map HeartbeatNode.name).map Prod.fst).Nodup := by
    rw [List.map_map]
    exact hids
  have hstart : Tended latency misses i n.name s.now (s, 0) :=
    ⟨Nat.zero_le _, Nat.le_refl _, n, hn, rfl, hrunning, hlooping, .inl rfl⟩
  obtain ⟨hsound', htended⟩ := Runs.run_invariant
    (P := fun x => Sound (nodes.map HeartbeatNode.name) x.1 ∧
      Tended latency misses i n.name s.now x)
    (fun x a y h hstep => ⟨step_sound h.1 (Runs.observed_eq_some.mp hstep).1,
      tended_step h.2 h.1 hnodup hgrace hstep⟩) hrun ⟨hsound, hstart⟩
  obtain ⟨n', hn', hname, -, hloop, htime⟩ := htended.node
  dsimp only at hn' htime
  have hlate : t.now ≠ s.now := by omega
  rcases htime with hnow | ⟨hprompt, last, hlast, hfresh, hheard⟩
  · exact absurd hnow hlate
  · have hrecent := hfresh.recent hprompt htended.within
    rcases hheard with rfl | ⟨m, hm, hheard⟩
    · omega
    · refine ⟨m, hm, hheard.available order ?_⟩
      rw [(hsound'.manager m hm).timeout]
      omega

def loneWorker : HeartbeatNode := { workerId := "w", advertiseAddr := "10.0.0.1:50051" }

/-- It registers, its first heartbeat is answered, and the scheduler restarts before the
answer arrives. -/
def restarted : List Action :=
  [.boot, .node 0 .start, .node 0 .serve, .node 0 .receive, .node 0 .wake, .node 0 .serve, .crash,
    .boot, .node 0 .receive]

/-- The next heartbeat is refused, and the worker registers again; then the patrol comes. -/
def recovery : List Action :=
  [.tick 5000, .node 0 .wake, .node 0 .serve, .node 0 .receive, .node 0 .serve, .node 0 .receive,
    .tick 5000, .node 0 .wake, .node 0 .serve, .node 0 .receive,
    .tick 5000, .node 0 .wake, .node 0 .serve, .node 0 .receive,
    .tick 5000, .node 0 .wake, .node 0 .serve]

theorem self_healing_restarted : ∃ s t k,
    Runs.run step (launched [loneWorker]) restarted = some s ∧
      Runs.run (Runs.observed step (watch 0 0 0)) (s, 0) recovery = some (t, k) ∧
      ∃ m, t.manager = some m ∧
        (∃ w ∈ m.getAvailableWorkersSorted .stable t.now,
          w.workerId = "w" ∧ w.address = "10.0.0.1:50051") ∧
        ∀ r ≤ t.now, "w" ∉ (m.pruneDeadWorkers r).1 := by
  have hsome : ((Runs.run step (launched [loneWorker]) restarted).bind fun s =>
      Runs.run (Runs.observed step (watch 0 0 0)) (s, 0) recovery).isSome := by decide +kernel
  obtain ⟨⟨t, k⟩, hboth⟩ := Option.isSome_iff_exists.mp hsome
  obtain ⟨s, hbefore, hrun⟩ := Option.bind_eq_some_iff.mp hboth
  have hfirst : (Runs.run step (launched [loneWorker]) restarted).map (fun s =>
      (s.now, s.nodes[0]?)) =
      some (0, some { loneWorker with running := true, point := .waiting 5000 }) := by
    decide +kernel
  have hsecond : ((Runs.run step (launched [loneWorker]) restarted).bind fun s =>
      Runs.run (Runs.observed step (watch 0 0 0)) (s, 0) recovery).map (fun x => x.1.now) =
      some 20000 := by decide +kernel
  rw [hbefore] at hfirst
  obtain ⟨hstart, hn⟩ := Prod.mk.inj (Option.some.inj hfirst)
  rw [hboth] at hsecond
  have hend : t.now = 20000 := Option.some.inj hsecond
  have hlater : s.now + graceTime 0 0 < t.now := by
    rw [hstart, hend]
    decide
  exact ⟨s, t, k, hbefore, hrun, self_healing .stable (by decide) (by decide) hbefore hn rfl
    trivial (by decide) hrun hlater⟩

-- ---------------------------------------------------------------------------
-- Being dropped
-- ---------------------------------------------------------------------------

/-- When the patrol goes on at the latest. -/
def duePatrol (latency : Nat) : PatrolPoint → Nat
  | .waiting wakeAt => wakeAt + latency
  | .pruning now | .requeueing _ now => now + latency

/-- A step in which the scheduler hears nothing from the worker, and a clock that does not
leave the patrol behind. -/
def Unheard (latency : Nat) (id : String) (s : Registry) : Action → Prop
  | .tick ms => s.manager ≠ none → s.now + ms ≤ duePatrol latency s.patrol
  | .stray k => ∀ request ∈ s.strays[k]?, request.workerId ≠ id
  | .node i .serve => ∀ n ∈ s.nodes[i]?, n.workerId ≠ id
  | _ => True

instance (latency : Nat) (id : String) (s : Registry) : ∀ a, Decidable (Unheard latency id s a)
  | .tick _ => inferInstanceAs (Decidable (s.manager ≠ none → _))
  | .stray k => inferInstanceAs (Decidable (∀ request ∈ s.strays[k]?, request.workerId ≠ id))
  | .node i .serve => inferInstanceAs (Decidable (∀ n ∈ s.nodes[i]?, n.workerId ≠ id))
  | .node _ .start | .node _ .stop | .node _ .wake | .node _ .receive | .node _ (.fail _ _) =>
    isTrue trivial
  | .crash | .boot | .patrol | .prebook _ _ => isTrue trivial

/-- How far the patrol has come if the worker is there still. -/
def PatrolBefore (latency start : Nat) : PatrolPoint → Prop
  | .waiting wakeAt => wakeAt ≤ start + 90000 + latency
  | .pruning now => now ≤ start + 90000 + 2 * latency
  | .requeueing _ now => now ≤ start + 60000

structure Fading (latency : Nat) (id : String) (start : Nat) (s : Registry) : Prop where
  prompt : s.manager ≠ none → s.now = start ∨ s.now ≤ duePatrol latency s.patrol
  fading : ∀ m ∈ s.manager, ∀ w, m.worker? id = some w →
    w.lastHeartbeatTime ≤ start ∧ PatrolBefore latency start s.patrol

variable {id : String}

theorem fading_step {a : Action} (h : Fading latency id start s) (hsound : Sound names s)
    (hunheard : Unheard latency id s a) (hstep : s.step a = some t) :
    Fading latency id start t := by
  cases step_moves hstep with
  | tick ms => exact ⟨fun hup => .inr (hunheard hup), h.fading⟩
  | crash => exact ⟨fun hup => absurd rfl hup, by simp⟩
  | boot hdown =>
    refine ⟨fun _ => .inr ?_, fun m hm w hw => ?_⟩
    · show s.now ≤ s.now + 30000 + latency
      omega
    · obtain rfl := Option.some.inj hm
      exact absurd hw (by simp [WorkerManager.worker?, WorkerManager.started])
  | rise m wakeAt hm hpatrol hdue =>
    have hprompt := h.prompt (hm ▸ Option.some_ne_none m)
    rw [hpatrol] at hprompt
    refine ⟨fun _ => .inr (Nat.le_add_right _ _), fun m' hm' w hw => ?_⟩
    obtain ⟨hlast, hbefore⟩ := h.fading m' hm' w hw
    rw [hpatrol] at hbefore
    refine ⟨hlast, ?_⟩
    simp only [PatrolBefore, duePatrol] at hbefore hprompt ⊢
    omega
  | prune m now hm hpatrol =>
    have hprompt := h.prompt (hm ▸ Option.some_ne_none m)
    rw [hpatrol] at hprompt
    refine ⟨fun _ => hprompt, fun m' hm' w hw => ?_⟩
    obtain rfl := Option.some.inj hm'
    obtain ⟨hw, hfresh⟩ := WorkerManager.worker?_pruneDeadWorkers.mp hw
    obtain ⟨hlast, -⟩ := h.fading m hm w hw
    refine ⟨hlast, ?_⟩
    have htimeout := (hsound.manager m hm).timeout
    have hfresh : now ≤ w.lastHeartbeatTime + m.workerTimeout := hfresh
    show now ≤ start + 60000
    omega
  | requeued m dead now hm hpatrol =>
    have hprompt := h.prompt (hm ▸ Option.some_ne_none m)
    rw [hpatrol] at hprompt
    refine ⟨fun _ => .inr ?_, fun m' hm' w hw => ?_⟩
    · show s.now ≤ s.now + 30000 + latency
      omega
    · obtain ⟨hlast, hbefore⟩ := h.fading m' hm' w hw
      rw [hpatrol] at hbefore
      refine ⟨hlast, ?_⟩
      simp only [PatrolBefore, duePatrol] at hbefore hprompt ⊢
      omega
  | prebook m workerId count hm =>
    refine ⟨fun _ => h.prompt (hm ▸ Option.some_ne_none m), fun m' hm' w hw => ?_⟩
    obtain rfl := Option.some.inj hm'
    rw [WorkerManager.worker?_prebookTask] at hw
    split at hw
    · obtain ⟨v, hv, rfl⟩ := Option.map_eq_some_iff.mp hw
      exact h.fading m hm v hv
    · exact h.fading m hm w hw
  | stray j request m hj hm =>
    refine ⟨fun _ => h.prompt (hm ▸ Option.some_ne_none m), fun m' hm' w hw => ?_⟩
    obtain rfl := Option.some.inj hm'
    rw [WorkerManager.worker?_handle_other (hunheard request hj)] at hw
    exact h.fading m hm w hw
  | serve i n c m hn hcall hm hnone =>
    refine ⟨fun _ => h.prompt (hm ▸ Option.some_ne_none m), fun m' hm' w hw => ?_⟩
    obtain rfl := Option.some.inj hm'
    have hother : c.request.workerId ≠ id := by
      rw [WorkerManager.workerId_of_from (hsound.request_from hn hcall)]
      exact hunheard n hn
    rw [WorkerManager.worker?_handle_other hother] at hw
    exact h.fading m hm w hw
  | started | start | stop | wake | receive | fail => exact ⟨h.prompt, h.fading⟩

/-- **Dropping.** In every run in which the scheduler hears nothing from a worker any more,
whatever it has missed before, crashes and restarts included, the worker is gone from the
map a minute and a half later, with three times the `latency` of the patrol on top. -/
theorem silent_dropped {nodes : List HeartbeatNode} {before actions : List Action}
    (hidle : ∀ n ∈ nodes, n.point = .idle)
    (hbefore : Runs.run step (launched nodes) before = some s)
    (hrun : Runs.run step s actions = some t)
    (hunheard : Runs.Along step (Unheard latency id) s actions)
    (hover : s.now + 90000 + 3 * latency < t.now) : ∀ m ∈ t.manager, ¬ m.Registered id := by
  have hsound : Sound (nodes.map HeartbeatNode.name) s :=
    Runs.run_invariant (fun _ _ _ h hstep => step_sound h hstep) hbefore (sound_launched hidle)
  have hstart : Fading latency id s.now s := by
    refine ⟨fun _ => .inl rfl, fun m hm w hw => ⟨((hsound.manager m hm).worker id w hw).1, ?_⟩⟩
    have hpatrol := hsound.patrol
    unfold PatrolBefore
    split at hpatrol <;> omega
  obtain ⟨-, hfading⟩ := Runs.along_invariant
    (P := fun x => Sound (nodes.map HeartbeatNode.name) x ∧ Fading latency id s.now x)
    (fun x a y h hok hstep => ⟨step_sound h.1 hstep, fading_step h.2 h.1 hok hstep⟩)
    hrun hunheard ⟨hsound, hstart⟩
  intro m hm hregistered
  obtain ⟨w, hw⟩ := Option.ne_none_iff_exists'.mp
    (mt WorkerManager.worker?_eq_none_iff.mp (not_not.mpr hregistered))
  obtain ⟨-, hbefore⟩ := hfading.fading m hm w hw
  have hup : t.manager ≠ none := by
    rw [hm]
    exact Option.some_ne_none m
  have hprompt := hfading.prompt hup
  unfold PatrolBefore at hbefore
  unfold duePatrol at hprompt
  cases hpatrol : t.patrol with
  | waiting wakeAt =>
    rw [hpatrol] at hbefore hprompt
    dsimp only at hbefore hprompt
    omega
  | pruning now =>
    rw [hpatrol] at hbefore hprompt
    dsimp only at hbefore hprompt
    omega
  | requeueing dead now =>
    rw [hpatrol] at hbefore hprompt
    dsimp only at hbefore hprompt
    omega

/-- The worker is stopped, and two patrols come. -/
def silence : List Action :=
  [.node 0 .stop, .tick 5000, .node 0 .wake, .tick 25000, .patrol, .patrol, .patrol,
    .tick 30000, .patrol, .patrol, .patrol, .tick 30000, .patrol, .patrol, .patrol, .tick 1]

/-- The worker has registered. -/
def registered : List Action := [.boot, .node 0 .start, .node 0 .serve, .node 0 .receive]

theorem silent_dropped_stopped : ∃ s t,
    Runs.run step (launched [loneWorker]) registered = some s ∧
      Runs.run step s silence = some t ∧ ∀ m ∈ t.manager, ¬ m.Registered "w" := by
  have hsome : ((Runs.run step (launched [loneWorker]) registered).bind fun s =>
      Runs.run step s silence).isSome := by decide +kernel
  obtain ⟨t, hboth⟩ := Option.isSome_iff_exists.mp hsome
  obtain ⟨s, hbefore, hrun⟩ := Option.bind_eq_some_iff.mp hboth
  have hunheard : ∀ s ∈ Runs.run step (launched [loneWorker]) registered,
      s.now = 0 ∧ Runs.Along step (Unheard 0 "w") s silence := by decide +kernel
  have hend : ((Runs.run step (launched [loneWorker]) registered).bind fun s =>
      Runs.run step s silence).map Registry.now = some 90001 := by decide +kernel
  rw [hboth] at hend
  have hend : t.now = 90001 := Option.some.inj hend
  obtain ⟨hstart, halong⟩ := hunheard s hbefore
  have hlater : s.now + 90000 + 3 * 0 < t.now := by omega
  exact ⟨s, t, hbefore, hrun, silent_dropped (by decide) hbefore hrun halong hlater⟩

end Registry

end DistTaskSystem
