import DistTaskSystem.Guarantees.PoisonTask
import DistTaskSystem.Library.RoundRobin
import DistTaskSystem.Library.Runs
import DistTaskSystem.Scheduler.Cluster

/-!
# DTS — the loads of the workers

`RunLoop` sorts the live workers once for a batch and goes round them, while `PrebookTask`
counts the live loads up; `ProcessStreamEntry` sorts for each entry and takes the first
worker. Neither lets the loads of the live workers drift further apart than one task, or
than they were.

## Results

* `InTurn.live_within` — a round over a batch keeps within the gap it started with.
* `step_keepsGap`      — what every step keeps.
* `load_gap`           — the gap after every run.
-/

namespace DistTaskSystem

open Runs RoundRobin

/-- The workers that `GetAvailableWorkersSorted` sorts. -/
def SchedulerLoop.liveWorkers (s : SchedulerLoop) : List WorkerInfo :=
  s.workerManager.workers.filter fun w => !s.workerManager.timedOut s.redis.now w

namespace Cluster

/-- The largest `running_task_count` of a live worker less the smallest. -/
def loadGap (s : Cluster) : Int :=
  spread (s.loop.liveWorkers.map WorkerInfo.runningTaskCount)

/-- No worker registers or sends a heartbeat. -/
def Action.Silent : Action → Prop
  | .world (.register _) => False
  | .world (.heartbeat _ _) => False
  | _ => True

-- ---------------------------------------------------------------------------
-- The invariant
-- ---------------------------------------------------------------------------

/-- Every two loads are close. -/
def Within (bound : Int) (live : List WorkerInfo) : Prop :=
  ∀ x ∈ live, ∀ y ∈ live, x.runningTaskCount - y.runningTaskCount ≤ bound

/-- In the loop over a batch: a live worker has the load of the snapshot and the turns it
was given since. -/
structure InTurn (bound : Int) (c : Candidates) (workerIdx : Nat) (live : List WorkerInfo) :
    Prop where
  nodup : (c.workers.map WorkerInfo.workerId).Nodup
  sorted : c.workers.Pairwise fun a b => a.runningTaskCount ≤ b.runningTaskCount
  within : Within bound c.workers
  turn : ∀ w ∈ live, ∃ i : Fin c.workers.length, (c.workers.get i).workerId = w.workerId ∧
    w.runningTaskCount =
      (c.workers.get i).runningTaskCount + turns c.workers.length workerIdx i

def Balanced (bound : Int) (live : List WorkerInfo) : LoopWork → Prop
  | .batch c workerIdx _ => InTurn bound c workerIdx live
  | _ => Within bound live

variable {env : LoopEnv} {s t : Cluster} {bound : Int} {live live' : List WorkerInfo}

theorem Within.mono (h : Within bound live) (hsub : live' ⊆ live) : Within bound live' :=
  fun x hx y hy => h x (hsub hx) y (hsub hy)

/-- **A round over a batch** leaves the gap of its snapshot. -/
theorem InTurn.live_within {c : Candidates} {workerIdx : Nat} (hbound : 1 ≤ bound)
    (h : InTurn bound c workerIdx live) : Within bound live := by
  intro x hx y hy
  obtain ⟨i, -, hi⟩ := h.turn x hx
  obtain ⟨j, -, hj⟩ := h.turn y hy
  have hmono : Monotone fun i => (c.workers.get i).runningTaskCount := by
    intro i j hij
    rcases hij.lt_or_eq with hlt | rfl
    · exact List.pairwise_iff_get.mp h.sorted i j hlt
    · exact le_refl _
  have hgap := gap_turns hmono
    (fun i j => h.within _ (List.get_mem _ i) _ (List.get_mem _ j)) workerIdx i j
  rw [max_eq_right hbound] at hgap
  rw [hi, hj]
  exact hgap

theorem Balanced.live_within {work : LoopWork} (hbound : 1 ≤ bound)
    (h : Balanced bound live work) : Within bound live := by
  cases work with
  | batch c workerIdx entries => exact InTurn.live_within hbound h
  | _ => exact h

/-- Fewer live workers. -/
theorem Balanced.mono {work : LoopWork} (h : Balanced bound live work) (hsub : live' ⊆ live) :
    Balanced bound live' work := by
  cases work with
  | batch c workerIdx entries =>
    exact ⟨InTurn.nodup h, InTurn.sorted h, InTurn.within h,
      fun w hw => InTurn.turn h w (hsub hw)⟩
  | _ => exact Within.mono h hsub

-- ---------------------------------------------------------------------------
-- The live workers
-- ---------------------------------------------------------------------------

/-- Time makes no worker live. -/
theorem liveWorkers_subset (loop : SchedulerLoop) {loop' : SchedulerLoop}
    (hmanager : loop'.workerManager = loop.workerManager)
    (hnow : loop.redis.now ≤ loop'.redis.now) : loop'.liveWorkers ⊆ loop.liveWorkers := by
  intro w hw
  rw [SchedulerLoop.liveWorkers, hmanager] at hw
  obtain ⟨hmem, hlive⟩ := List.mem_filter.mp hw
  refine List.mem_filter.mpr ⟨hmem, ?_⟩
  simp only [WorkerManager.timedOut, Bool.not_eq_true', decide_eq_false_iff_not, not_lt] at hlive ⊢
  omega

theorem nodup_liveWorkers (loop : SchedulerLoop) :
    (loop.liveWorkers.map WorkerInfo.workerId).Nodup :=
  loop.workerManager.nodup.sublist (List.filter_sublist.map _)

/-- A live worker after `PrebookTask`: one of those before, with one task more if it is
the booked one. -/
theorem live_prebooked (loop : SchedulerLoop) {loop' : SchedulerLoop} {workerId : String}
    {w : WorkerInfo}
    (hmanager : loop'.workerManager = loop.workerManager.prebookTask workerId 1)
    (hnow : loop'.redis.now = loop.redis.now) (hw : w ∈ loop'.liveWorkers) :
    ∃ before ∈ loop.liveWorkers, before.workerId = w.workerId ∧
      w.runningTaskCount =
        before.runningTaskCount + if before.workerId = workerId then 1 else 0 := by
  rw [SchedulerLoop.liveWorkers, hmanager, hnow] at hw
  obtain ⟨hmem, hlive⟩ := List.mem_filter.mp hw
  obtain ⟨before, hbefore, rfl⟩ := List.mem_map.mp hmem
  refine ⟨before, List.mem_filter.mpr ⟨hbefore, ?_⟩, ?_, ?_⟩
  · rw [← hlive]
    split <;> rfl
  · split <;> rfl
  · split
    · rfl
    · exact (add_zero _).symm

theorem mem_availableWorkers {loop : SchedulerLoop} {w : WorkerInfo} :
    w ∈ loop.availableWorkers env ↔ w ∈ loop.liveWorkers :=
  (env.order.perm loop.liveWorkers).mem_iff

/-- A batch starts from a snapshot of the live workers. -/
theorem InTurn.start {loop : SchedulerLoop} {c : Candidates}
    (hworkers : c.workers = loop.availableWorkers env) (h : Within bound loop.liveWorkers) :
    InTurn bound c 0 loop.liveWorkers := by
  have hmem : ∀ w, w ∈ c.workers ↔ w ∈ loop.liveWorkers := fun w => by
    rw [hworkers]
    exact mem_availableWorkers
  refine ⟨?_, ?_, ?_, ?_⟩
  · rw [hworkers]
    exact ((env.order.perm loop.liveWorkers).map _).nodup_iff.mpr (nodup_liveWorkers loop)
  · rw [hworkers]
    exact env.order.sorted loop.liveWorkers
  · exact fun x hx y hy => h x ((hmem x).mp hx) y ((hmem y).mp hy)
  · intro w hw
    obtain ⟨i, hi⟩ := List.mem_iff_get.mp ((hmem w).mpr hw)
    refine ⟨i, congrArg WorkerInfo.workerId hi, ?_⟩
    rw [turns_zero, hi, Nat.cast_zero, add_zero]

theorem get_workerId_inj {workers : List WorkerInfo}
    (hnodup : (workers.map WorkerInfo.workerId).Nodup) {i j : Fin workers.length}
    (h : (workers.get i).workerId = (workers.get j).workerId) : i = j :=
  List.nodup_iff_injective_get.mp hnodup.of_map
    (List.inj_on_of_nodup_map hnodup (List.get_mem _ i) (List.get_mem _ j) h)

/-- **An entry of a batch**: the worker whose turn it is gets one task more. -/
theorem InTurn.handled {faults : EntryFaults} {c : Candidates} {workerIdx : Nat}
    {entry : StreamEntry} {handled : Handled} {loop loop' : SchedulerLoop}
    (h : InTurn bound c workerIdx loop.liveWorkers)
    (heffect : HandleEffect env faults (some (c.pick workerIdx)) entry loop handled loop') :
    InTurn bound c (handled.next workerIdx) loop'.liveWorkers := by
  refine ⟨h.nodup, h.sorted, h.within, ?_⟩
  cases heffect with
  | skip hlookup =>
    intro w hw
    refine h.turn w (liveWorkers_subset loop ?_ ?_ hw)
    · rfl
    · exact (ack_now loop faults.xack entry.id).ge
  | noWorker task hlookup hselect => exact nomatch hselect
  | dispatch task worker hlookup hselect =>
    obtain rfl := Option.some.inj hselect
    intro w hw
    obtain ⟨before, hbefore, hid, hcount⟩ := live_prebooked loop (by rfl) (by rfl) hw
    obtain ⟨i, hi, hturn⟩ := h.turn before hbefore
    refine ⟨i, hi.trans hid, ?_⟩
    -- ids are places, so the worker was booked exactly if it was its turn
    have hbooked : before.workerId = (c.pick workerIdx).workerId ↔
        i.val = workerIdx % c.workers.length := by
      rw [← hi, Candidates.pick]
      constructor
      · intro heq
        exact congrArg Fin.val (get_workerId_inj h.nodup heq)
      · intro heq
        congr
        exact Fin.ext heq
    rw [hcount, hturn, Handled.next, turns_succ i.isLt]
    simp only [hbooked]
    push_cast
    split <;> omega

/-- **A rescued entry**: a least loaded worker gets one task more. -/
theorem Within.rescued {faults : EntryFaults} {entry : StreamEntry} {handled : Handled}
    {loop loop' : SchedulerLoop} (hbound : 1 ≤ bound) (h : Within bound loop.liveWorkers)
    (heffect : HandleEffect env faults (loop.availableWorkers env).head? entry loop handled loop') :
    Within bound loop'.liveWorkers := by
  cases heffect with
  | skip hlookup =>
    refine h.mono (liveWorkers_subset loop ?_ ?_)
    · rfl
    · exact (ack_now loop faults.xack entry.id).ge
  | noWorker task hlookup hselect => exact h
  | dispatch task worker hlookup hselect =>
    have hworker : worker ∈ loop.liveWorkers :=
      mem_availableWorkers.mp (List.mem_of_head? hselect)
    have hleast : ∀ w ∈ loop.liveWorkers, worker.runningTaskCount ≤ w.runningTaskCount := by
      intro w hw
      have hsorted := env.order.sorted loop.liveWorkers
      obtain ⟨rest, hrest⟩ := List.head?_eq_some_iff.mp hselect
      have hmem : w ∈ loop.availableWorkers env := mem_availableWorkers.mpr hw
      change (loop.availableWorkers env).Pairwise _ at hsorted
      rw [hrest] at hsorted hmem
      rcases List.mem_cons.mp hmem with rfl | hlater
      · exact le_refl _
      · exact (List.pairwise_cons.mp hsorted).1 w hlater
    have hgap := gap_least {w | w ∈ loop.liveWorkers} hleast h
    rw [max_eq_right hbound] at hgap
    -- among live workers an id names one
    have hsame : ∀ w ∈ loop.liveWorkers, (w.workerId = worker.workerId) = (w = worker) :=
      fun w hw => propext ⟨List.inj_on_of_nodup_map (nodup_liveWorkers loop) hw hworker,
        congrArg WorkerInfo.workerId⟩
    intro x hx y hy
    obtain ⟨x₀, hx₀, -, hxcount⟩ := live_prebooked loop (by rfl) (by rfl) hx
    obtain ⟨y₀, hy₀, -, hycount⟩ := live_prebooked loop (by rfl) (by rfl) hy
    rw [hxcount, hycount]
    simp only [hsame x₀ hx₀, hsame y₀ hy₀]
    exact hgap x₀ hx₀ y₀ hy₀

-- ---------------------------------------------------------------------------
-- The steps
-- ---------------------------------------------------------------------------

/-- The state is balanced. -/
def KeepsGap (bound : Int) (s : Cluster) : Prop := Balanced bound s.loop.liveWorkers s.work

theorem balanced_rescueRest {entries : List StreamEntry} (h : Within bound live) :
    Balanced bound live (.rescueRest entries) := by
  cases entries <;> exact h

theorem balanced_batchRest {c : Candidates} {workerIdx : Nat} {entries : List StreamEntry}
    (hbound : 1 ≤ bound) (h : InTurn bound c workerIdx live) :
    Balanced bound live (.batchRest c workerIdx entries) := by
  cases entries with
  | nil => exact InTurn.live_within hbound h
  | cons entry rest => exact h

theorem now_redisCall {α : Type} (outcome : ReplyOutcome) {cmd : RedisM α} {r : Redis}
    (h : (cmd r).2.now = r.now) : (redisCall outcome cmd r).2.now = r.now := by
  rw [redisCall_state]
  split
  · rfl
  · exact h

/-- **The loop thread.** -/
theorem loop_keepsGap {a : LoopAction} (hbound : 1 ≤ bound) (h : s.KeepsGap bound)
    (hstep : s.loopStep env a = some t) : t.KeepsGap bound := by
  have hwithin := Balanced.live_within hbound h
  cases loopStep_moves hstep with
  | busy hwork hfull => exact h
  | toScan hwork hroom hdue => exact hwithin
  | toPull hwork hroom => exact hwithin
  | scanned outcome call hwork hcall =>
    have hnow : s.loop.redis.now ≤ call.2.now := by
      rw [hcall]
      exact (now_redisCall outcome (onKey_now _ _ _)).ge
    have hsub : ({ s.loop with redis := call.2 } : SchedulerLoop).liveWorkers ⊆
        s.loop.liveWorkers := liveWorkers_subset s.loop (by rfl) hnow
    show Balanced bound _ (if _ then _ else _)
    split <;> exact hwithin.mono hsub
  | claimed outcome ids call hwork hcall =>
    have hnow : s.loop.redis.now ≤ call.2.now := by
      rw [hcall]
      exact (now_redisCall outcome (onKey_now _ _ _)).ge
    exact balanced_rescueRest (hwithin.mono (liveWorkers_subset s.loop (by rfl) hnow))
  | noWorkers outcome hwork hnone => exact hwithin
  | pulled outcome c call hwork hworkers hcall =>
    have hnow : s.loop.redis.now ≤ call.2.now := by
      rw [hcall]
      exact (now_redisCall outcome (onKey_now _ _ _)).ge
    have hstart : Balanced bound s.loop.liveWorkers (.batchRest c 0 (call.1.getD [])) :=
      balanced_batchRest hbound (.start hworkers hwithin)
    exact hstart.mono (liveWorkers_subset s.loop (by rfl) hnow)
  | handled faults c workerIdx entry rest handled loop hwork heffect =>
    rw [KeepsGap, hwork] at h
    exact balanced_batchRest hbound (InTurn.handled h heffect)
  | thrown faults c workerIdx entry rest e hwork hthrow => exact hwithin
  | rescued faults entry rest handled loop hwork heffect =>
    exact balanced_rescueRest (hwithin.rescued hbound heffect)
  | rescueThrown faults entry rest e hwork hthrow => exact hwithin

theorem KeepsGap.frame (h : s.KeepsGap bound) (hwork : t.work = s.work)
    (hmanager : t.loop.workerManager = s.loop.workerManager)
    (hnow : s.loop.redis.now ≤ t.loop.redis.now) : t.KeepsGap bound := by
  rw [KeepsGap, hwork]
  exact Balanced.mono h (liveWorkers_subset s.loop hmanager hnow)

theorem settle_now (faults : SettleFaults) (job : Dispatch) (answer : Answer)
    (loop : SchedulerLoop) :
    (DistTaskSystem.settle faults job answer loop).redis.now = loop.redis.now := by
  rw [DistTaskSystem.settle]
  split
  · exact ack_now loop faults.xack job.streamId
  · rfl

theorem pool_keepsGap {a : PoolAction} (h : s.KeepsGap bound)
    (hstep : s.poolStep env a = some t) : t.KeepsGap bound := by
  cases poolStep_moves hstep with
  | start job rest hpool hfree => exact h
  | fail i call job answer hrunning hfail => exact h
  | execute i call job j node hrunning hnode halive haddress hstub htarget => exact h
  | settle i faults job answer hrunning =>
    refine h.frame ?_ ?_ ?_
    · rfl
    · exact settle_workerManager faults job answer
    · exact (settle_now faults job answer s.loop).ge

/-- The patrol removes workers that are not live. -/
theorem liveWorkers_pruned (loop : SchedulerLoop) {loop' : SchedulerLoop}
    (hmanager : loop'.workerManager = (loop.workerManager.pruneDeadWorkers loop.redis.now).2)
    (hnow : loop'.redis.now = loop.redis.now) : loop'.liveWorkers ⊆ loop.liveWorkers := by
  intro w hw
  rw [SchedulerLoop.liveWorkers, hmanager, hnow] at hw
  exact (List.mem_filter.mp hw).1

theorem world_keepsGap {a : WorldAction} (h : s.KeepsGap bound)
    (hsilent : (Action.world a).Silent) (hstep : s.worldStep a = some t) : t.KeepsGap bound := by
  cases worldStep_moves hstep with
  | push fields => exact h.frame rfl rfl (onKey_now _ _ _).ge
  | store taskId payload ttl => exact h.frame rfl rfl (onKey_now _ _ _).ge
  | pass ms => exact h.frame rfl rfl (Nat.le_add_right _ ms)
  | boot workerId address hasSubmitter hfresh => exact h
  | register j node hnode halive => exact hsilent.elim
  | heartbeat j runningTaskCount node hnode halive => exact hsilent.elim
  | crash j node hnode => exact h
  | report j k delivered node task hnode htask halive => exact h
  | patrol outcome =>
    exact Balanced.mono h (liveWorkers_pruned s.loop (by rfl) (by rfl))

/-- **Step lemma.** -/
theorem step_keepsGap {a : Action} (hbound : 1 ≤ bound) (h : s.KeepsGap bound)
    (hsilent : a.Silent) (hstep : step env s a = some t) : t.KeepsGap bound := by
  cases a with
  | loop a => exact loop_keepsGap hbound h hstep
  | pool a => exact pool_keepsGap h hstep
  | world a => exact world_keepsGap h hsilent hstep

/-- The gap as a bound. -/
theorem loadGap_le_iff (hbound : 0 ≤ bound) :
    s.loadGap ≤ bound ↔ Within bound s.loop.liveWorkers := by
  rw [loadGap, spread_le_iff hbound]
  simp only [List.forall_mem_map]
  rfl

/-- **The load gap.** Over every run from outside of a batch, with any order of ties, any
entries and any faults: while nobody registers and no heartbeat overwrites a load, the
gap between the live workers does not grow beyond one task, or beyond what it was. -/
theorem load_gap {actions : List Action} (hrun : Runs.run (step env) s actions = some t)
    (hstart : ∀ c workerIdx entries, s.work ≠ .batch c workerIdx entries)
    (hsilent : ∀ a ∈ actions, a.Silent) : t.loadGap ≤ max 1 s.loadGap := by
  have hbound : (1 : Int) ≤ max 1 s.loadGap := le_max_left _ _
  have hbefore : Within (max 1 s.loadGap) s.loop.liveWorkers :=
    (loadGap_le_iff (by omega)).mp (le_max_right _ _)
  have hbalanced : s.KeepsGap (max 1 s.loadGap) := by
    rw [KeepsGap]
    cases hwork : s.work with
    | batch c workerIdx entries => exact absurd hwork (hstart c workerIdx entries)
    | _ => exact hbefore
  have hafter := along_invariant (fun u a v h hok hstep => step_keepsGap hbound h hok hstep) hrun
    (along_of_forall fun a ha _ => hsilent a ha) hbalanced
  exact (loadGap_le_iff (by omega)).mpr (Balanced.live_within hbound hafter)

/-- A scheduler with two workers, one of which has nothing to do. -/
def twoWorkers : Cluster := { launched with
  loop := { launched.loop with
    workerManager := ⟨60000, [⟨"busy", "10.0.0.1:50051", 0, 3⟩, ⟨"idle", "10.0.0.2:50051", 0, 0⟩],
      by decide⟩ } }

/-- A worker goes behind the less loaded ones, and in front of its equals. -/
def sortByInsertion : WorkerOrder where
  sort l := l.insertionSort fun a b => a.runningTaskCount ≤ b.runningTaskCount
  perm l := List.perm_insertionSort _ l
  sorted l :=
    haveI : Std.Total fun a b : WorkerInfo => a.runningTaskCount ≤ b.runningTaskCount :=
      ⟨fun _ _ => le_total _ _⟩
    haveI : IsTrans WorkerInfo fun a b => a.runningTaskCount ≤ b.runningTaskCount :=
      ⟨fun _ _ _ => le_trans⟩
    List.pairwise_insertionSort _ l

def insertionEnv : LoopEnv := { numeralEnv with order := sortByInsertion }

/-- One task, and a batch with its entry. -/
def oneBatch : List Action :=
  [.world (.store taskA.text metaOne 3600), .world (.push (toXAddArgs taskA.text jobX.text)),
    .loop .check, .loop (.pull .answered), .loop (.entry {})]

theorem load_gap_twoWorkers : ∃ t, Runs.run (step insertionEnv) twoWorkers oneBatch = some t ∧
    twoWorkers.loadGap = 3 ∧ t.loadGap = 2 ∧ t.loadGap ≤ max 1 twoWorkers.loadGap := by
  have hend : ((Runs.run (step insertionEnv) twoWorkers oneBatch).any fun t =>
      t.loadGap = 2) = true := by
    decide +kernel
  obtain ⟨t, hrun, hgap⟩ := (Option.any_eq_true _ _).mp hend
  refine ⟨t, hrun, by decide, of_decide_eq_true hgap, load_gap hrun ?_ ?_⟩
  · exact fun c workerIdx entries h => nomatch h
  · intro a ha
    simp only [oneBatch, List.mem_cons, List.not_mem_nil, or_false] at ha
    rcases ha with rfl | rfl | rfl | rfl | rfl <;> trivial

end Cluster

end DistTaskSystem
