import DistTaskSystem.Guarantees.PoisonTask
import DistTaskSystem.Scheduler.Cluster

/-!
# DTS — what the rescue scan sees

`DoRescue` asks for the first 50 pending entries of the group and keeps those that have
been idle for long enough, so an entry behind 50 others is not looked at. The entries in
front of it need not leave: a claimed entry stays pending where it is, only its idle time
starts again.

## Results

* `doRescue_run`        — `DoRescue` is what the loop thread does from the scan on.
* `doRescue_claimed`    — the entries it claims.
* `doRescue_claims_iff` — it claims a stale entry exactly if one is in the window.
-/

namespace DistTaskSystem

/-- What happens to the two commands of `DoRescue`. -/
structure RescueFaults where
  xpending : ReplyOutcome := .answered
  xclaim : ReplyOutcome := .answered

/-- `DoRescue`: the entries it claims, and the scheduler after it. Some time passes
between its commands. -/
def doRescue (env : LoopEnv) (faults : RescueFaults) (pause : Nat) (s : SchedulerLoop) :
    List StreamEntry × SchedulerLoop :=
  let call := redisCall faults.xpending (xpending kTasks kGroupMain rescueBatchSize) s.redis
  let idsToClaim := Cluster.idleIds call.1
  let s := { s with redis := call.2.advance pause }
  if idsToClaim = [] then ([], s)
  else
    let call := redisCall faults.xclaim
      (xclaim kTasks kGroupMain env.consumerName minIdleMs idsToClaim) s.redis
    let claimedMsgs := call.1.getD []
    (claimedMsgs, (rescuePass env claimedMsgs { s with
      redis := call.2
      inflightTasks := s.inflightTasks + claimedMsgs.length }).2)

-- ---------------------------------------------------------------------------
-- The loop thread
-- ---------------------------------------------------------------------------

namespace Cluster

open Runs

variable (env : LoopEnv)

/-- The loop over the claimed entries, body by body. -/
theorem rescuePass_run (s : Cluster) (idx : Nat) (claimed : List StreamEntry)
    (loop : SchedulerLoop) :
    ∃ actions, run (step env) { s with loop := loop, work := .rescueRest claimed } actions =
      some { s with
        loop := (pass (fun _ => processStreamEntry env {}) idx claimed loop).2
        work := .pull } := by
  induction claimed generalizing idx loop with
  | nil => exact ⟨[], rfl⟩
  | cons entry rest ih =>
    rw [pass]
    cases hbody : processStreamEntry env {} entry loop with
    | error e =>
      refine ⟨[.loop (.entry {})], run_cons.mpr ⟨_, ?_, rfl⟩⟩
      simp only [step, loopStep, LoopWork.rescueRest, hbody]
    | ok result =>
      obtain ⟨handled, loop'⟩ := result
      obtain ⟨actions, hrest⟩ := ih (handled.next idx) loop'
      refine ⟨.loop (.entry {}) :: actions, run_cons.mpr ⟨_, ?_, hrest⟩⟩
      simp only [step, loopStep, LoopWork.rescueRest, hbody]

/-- **From the scan on** the loop thread runs `DoRescue`. -/
theorem doRescue_run (faults : RescueFaults) (pause : Nat) (s : Cluster) (hwork : s.work = .scan) :
    ∃ actions, run (step env) s actions =
      some { s with
        loop := (doRescue env faults pause s.loop).2
        work := .pull } := by
  let call := redisCall faults.xpending (xpending kTasks kGroupMain rescueBatchSize) s.loop.redis
  let scanned : Cluster := { s with
    loop := { s.loop with redis := call.2 }
    work := if idleIds call.1 = [] then .pull else .claim (idleIds call.1) }
  have hscan : step env s (.loop (.scan faults.xpending)) = some scanned := by
    simp only [step, loopStep, hwork]
    rfl
  have hpass : step env scanned (.world (.pass pause)) =
      some (scanned.setRedis (call.2.advance pause)) := rfl
  unfold doRescue
  by_cases hnone : idleIds call.1 = []
  · refine ⟨[.loop (.scan faults.xpending), .world (.pass pause)],
      run_cons.mpr ⟨_, hscan, run_cons.mpr ⟨_, hpass, ?_⟩⟩⟩
    simp only [scanned, call, setRedis] at hnone ⊢
    rw [if_pos hnone, if_pos hnone]
    rfl
  · let idsToClaim := idleIds call.1
    let redis := call.2.advance pause
    let claim := redisCall faults.xclaim
      (xclaim kTasks kGroupMain env.consumerName minIdleMs idsToClaim) redis
    have hclaim : step env (scanned.setRedis redis) (.loop (.claim faults.xclaim)) =
        some ((scanned.setRedis redis).take claim.2 (claim.1.getD [])
          (.rescueRest (claim.1.getD []))) := by
      have hwork' : (scanned.setRedis redis).work = .claim idsToClaim := if_neg hnone
      simp only [step, loopStep, hwork']
      rfl
    obtain ⟨actions, hrest⟩ := rescuePass_run env s 0 (claim.1.getD []) { s.loop with
      redis := claim.2
      inflightTasks := s.loop.inflightTasks + (claim.1.getD []).length }
    refine ⟨.loop (.scan faults.xpending) :: .world (.pass pause) ::
      .loop (.claim faults.xclaim) :: actions, run_cons.mpr ⟨_, hscan, run_cons.mpr ⟨_, hpass,
      run_cons.mpr ⟨_, hclaim, hrest.trans ?_⟩⟩⟩⟩
    simp only [call] at hnone
    dsimp only
    rw [if_neg hnone]
    rfl

end Cluster

-- ---------------------------------------------------------------------------
-- What it claims
-- ---------------------------------------------------------------------------

/-- The entry has been idle for long enough. -/
def Stale (now : Nat) (p : PendingEntry) : Prop := minIdleMs ≤ now - p.deliveredAt

instance (now : Nat) (p : PendingEntry) : Decidable (Stale now p) :=
  inferInstanceAs (Decidable (_ ≤ _))

/-- The pending entries in front of an entry. -/
def ahead (g : ConsumerGroup) (p : PendingEntry) : Nat := g.pending.countP fun q => q.id < p.id

/-- The entry is in the window of the scan, and the stream still holds it. -/
structure Seen (st : Stream) (g : ConsumerGroup) (p : PendingEntry) : Prop where
  window : ahead g p < rescueBatchSize
  held : ∃ e ∈ st.entries, e.id = p.id

/-- In a sorted list the elements of a window are those with few in front of them. -/
theorem mem_take_iff {pending : List PendingEntry}
    (hsorted : pending.Pairwise fun p q => p.id < q.id) {p : PendingEntry} (hp : p ∈ pending)
    (count : Nat) : p ∈ pending.take count ↔ (pending.countP fun q => q.id < p.id) < count := by
  obtain ⟨front, back, rfl⟩ := List.append_of_mem hp
  obtain ⟨hfront, hback, hcross⟩ := List.pairwise_append.mp hsorted
  have hahead : ((front ++ p :: back).countP fun q => q.id < p.id) = front.length := by
    have hall : (front.countP fun q => q.id < p.id) = front.length :=
      List.countP_eq_length.mpr fun q hq => decide_eq_true (hcross q hq p List.mem_cons_self)
    have hnone : ((p :: back).countP fun q => q.id < p.id) = 0 := by
      refine List.countP_eq_zero.mpr fun q hq hlt => ?_
      have hlt := of_decide_eq_true hlt
      rcases List.mem_cons.mp hq with rfl | hq
      · exact lt_irrefl _ hlt
      · exact lt_asymm hlt ((List.pairwise_cons.mp hback).1 q hq)
    rw [List.countP_append, hall, hnone, Nat.add_zero]
  rw [hahead, List.take_append, List.mem_append]
  constructor
  · rintro (hmem | hmem)
    · exact absurd (hcross p (List.mem_of_mem_take hmem) p List.mem_cons_self) (lt_irrefl _)
    · by_contra hlong
      rw [Nat.sub_eq_zero_of_le (not_lt.mp hlong)] at hmem
      exact List.not_mem_nil hmem
  · intro hlt
    right
    obtain ⟨n, hn⟩ := Nat.exists_eq_succ_of_ne_zero (Nat.sub_ne_zero_of_lt hlt)
    rw [hn, List.take_succ_cons]
    exact List.mem_cons_self

section Claimed

variable {env : LoopEnv} {s : SchedulerLoop} {st : Stream} {g : ConsumerGroup}

/-- The ids the scan comes up with. -/
theorem idleIds_xpending (hholds : s.redis.HoldsStream kTasks st)
    (hgroup : st.group? kGroupMain = some g) :
    Cluster.idleIds (redisCall .answered (xpending kTasks kGroupMain rescueBatchSize) s.redis).1 =
      ((g.pending.take rescueBatchSize).filter (Stale s.redis.now ·)).map PendingEntry.id := by
  rw [redisCall, xpending_stream hholds rescueBatchSize hgroup]
  show (List.filter _ ((g.pending.take rescueBatchSize).map _)).map XPendingDetail.id = _
  rw [List.filter_map, List.map_map]
  rfl

theorem nodup_pending (hsorted : g.pending.Pairwise fun p q => p.id < q.id) :
    (g.pending.map PendingEntry.id).Nodup := by
  rw [List.Nodup, List.pairwise_map]
  exact hsorted.imp fun hlt => Nat.ne_of_lt hlt

/-- **The claimed entries**: what each of the ids takes. -/
theorem doRescue_claimed (hholds : s.redis.HoldsStream kTasks st)
    (hgroup : st.group? kGroupMain = some g)
    (hsorted : g.pending.Pairwise fun p q => p.id < q.id) (pause : Nat) :
    (doRescue env {} pause s).1 =
      (((g.pending.take rescueBatchSize).filter (Stale s.redis.now ·)).map
        PendingEntry.id).filterMap (g.taken st (s.redis.now + pause) minIdleMs) := by
  have hids := idleIds_xpending hholds hgroup
  have hnodup : (((g.pending.take rescueBatchSize).filter (Stale s.redis.now ·)).map
      PendingEntry.id).Nodup :=
    (nodup_pending hsorted).sublist ((List.filter_sublist.trans (List.take_sublist _ _)).map _)
  have hredis : (redisCall .answered (xpending kTasks kGroupMain rescueBatchSize) s.redis).2 =
      s.redis := by
    rw [redisCall, xpending_stream hholds rescueBatchSize hgroup]
  unfold doRescue
  dsimp only
  rw [hids, hredis]
  generalize ((g.pending.take rescueBatchSize).filter (Stale s.redis.now ·)).map
    PendingEntry.id = ids at hnodup
  by_cases hnone : ids = []
  · rw [if_pos hnone, hnone]
    rfl
  · rw [if_neg hnone]
    have hreply := xclaim_reply (hholds.advance pause) env.consumerName minIdleMs hnodup hgroup
    rw [redisCall]
    dsimp only
    rw [hreply]
    rfl

/-- An id whose line is stale takes its entry, if it is still there. -/
theorem taken_of_stale (hsorted : g.pending.Pairwise fun p q => p.id < q.id) {p : PendingEntry}
    (hp : p ∈ g.pending) {now : Nat} (hstale : Stale now p) (pause : Nat) :
    g.taken st (now + pause) minIdleMs p.id = st.entries.find? fun e => e.id = p.id := by
  have hfind : (g.pending.find? fun q => q.id = p.id) = some p := by
    cases hfind : g.pending.find? fun q => q.id = p.id with
    | none => exact absurd (decide_eq_true rfl) (List.find?_eq_none.mp hfind p hp)
    | some q =>
      have hid : q.id = p.id := by simpa using List.find?_some hfind
      rw [List.inj_on_of_nodup_map (nodup_pending hsorted) (List.mem_of_find?_eq_some hfind) hp hid]
  have hidle : ¬ now + pause - p.deliveredAt < minIdleMs := by
    unfold Stale at hstale
    omega
  rw [ConsumerGroup.taken, hfind, Option.bind_some, if_neg hidle]

/-- A rescue claims the stale entries of its window that the stream still holds. -/
theorem mem_claimed_iff (hholds : s.redis.HoldsStream kTasks st)
    (hgroup : st.group? kGroupMain = some g)
    (hsorted : g.pending.Pairwise fun p q => p.id < q.id) (pause : Nat) :
    (∃ e ∈ (doRescue env {} pause s).1, ∃ p ∈ g.pending, Stale s.redis.now p ∧ e.id = p.id) ↔
      ∃ p ∈ g.pending, Stale s.redis.now p ∧ Seen st g p := by
  rw [doRescue_claimed hholds hgroup hsorted]
  constructor
  · rintro ⟨e, he, -⟩
    obtain ⟨id, hid, htaken⟩ := List.mem_filterMap.mp he
    obtain ⟨p, hp, rfl⟩ := List.mem_map.mp hid
    obtain ⟨hwindow, hstale⟩ := List.mem_filter.mp hp
    have hstale := of_decide_eq_true hstale
    have hpending := List.mem_of_mem_take hwindow
    rw [taken_of_stale hsorted hpending hstale] at htaken
    refine ⟨p, hpending, hstale, (mem_take_iff hsorted hpending _).mp hwindow, e,
      List.mem_of_find?_eq_some htaken, ?_⟩
    simpa using List.find?_some htaken
  · rintro ⟨p, hp, hstale, hseen⟩
    obtain ⟨e, he, heid⟩ := hseen.held
    obtain ⟨e', he'⟩ : ∃ e', (st.entries.find? fun e => e.id = p.id) = some e' :=
      Option.isSome_iff_exists.mp (List.find?_isSome.mpr ⟨e, he, decide_eq_true heid⟩)
    have hwindow := (mem_take_iff hsorted hp _).mpr hseen.window
    refine ⟨e', List.mem_filterMap.mpr ⟨p.id, List.mem_map_of_mem (List.mem_filter.mpr
      ⟨hwindow, decide_eq_true hstale⟩), ?_⟩, p, hp, hstale, ?_⟩
    · rw [taken_of_stale hsorted hp hstale]
      exact he'
    · simpa using List.find?_some he'

/-- **When a rescue finds a stale entry.** For every pending list: where an entry is
stale one is claimed, if and only if the window holds a stale one. -/
theorem doRescue_claims_iff (hholds : s.redis.HoldsStream kTasks st)
    (hgroup : st.group? kGroupMain = some g)
    (hsorted : g.pending.Pairwise fun p q => p.id < q.id) (pause : Nat) :
    ((∃ p ∈ g.pending, Stale s.redis.now p) →
      ∃ e ∈ (doRescue env {} pause s).1, ∃ p ∈ g.pending, Stale s.redis.now p ∧ e.id = p.id) ↔
    ((∃ p ∈ g.pending, Stale s.redis.now p) →
      ∃ p ∈ g.pending, Stale s.redis.now p ∧ Seen st g p) :=
  imp_congr_right fun _ => mem_claimed_iff hholds hgroup hsorted pause

end Claimed

/-! Lists of pending entries, 70 seconds after the first delivery. -/

def pendingStream (pending : List PendingEntry) : Stream where
  entries := pending.map fun p => ⟨p.id, []⟩
  lastId := pending.length
  groups := [(kGroupMain, ⟨pending.length, pending⟩)]

def pendingLoop (pending : List PendingEntry) : SchedulerLoop where
  redis := { (Redis.empty.put kTasks (some ⟨.stream (pendingStream pending), none⟩)) with
    now := 70000 }
  db := .empty
  workerManager := .started

/-- Fifty entries that were claimed after a minute, and one behind them. -/
def crowded : List PendingEntry :=
  (List.range 50).map (fun i => ⟨i + 1, "scheduler", 60000, 2⟩) ++ [⟨51, "scheduler", 0, 1⟩]

def oneStale : List PendingEntry := [⟨1, "scheduler", 60000, 2⟩, ⟨2, "scheduler", 0, 1⟩]

theorem holds_pendingLoop (pending : List PendingEntry) :
    (pendingLoop pending).redis.HoldsStream kTasks (pendingStream pending) :=
  .inr (Redis.keys_put_self .empty kTasks (some ⟨.stream (pendingStream pending), none⟩))

theorem doRescue_claims_iff_oneStale :
    ∃ e ∈ (doRescue numeralEnv {} 0 (pendingLoop oneStale)).1,
      ∃ p ∈ oneStale, Stale 70000 p ∧ e.id = p.id := by
  refine (doRescue_claims_iff (holds_pendingLoop oneStale) rfl (by decide) 0).mpr ?_ ?_
  · rintro -
    exact ⟨⟨2, "scheduler", 0, 1⟩, by decide, by decide, by decide, ⟨2, []⟩, by decide, rfl⟩
  · exact ⟨⟨2, "scheduler", 0, 1⟩, by decide, by decide⟩

/-- A stale entry behind fifty younger ones is not found. -/
theorem stale_behind_window :
    (∃ p ∈ crowded, Stale 70000 p) ∧
      (doRescue numeralEnv {} 0 (pendingLoop crowded)).1 = [] := by
  refine ⟨⟨⟨51, "scheduler", 0, 1⟩, by decide, by decide⟩, ?_⟩
  rw [doRescue_claimed (g := ⟨51, crowded⟩) (holds_pendingLoop crowded) rfl (by decide)]
  have hnone : (crowded.take rescueBatchSize).filter (Stale 70000 ·) = [] := by decide
  show (((crowded.take rescueBatchSize).filter (Stale 70000 ·)).map PendingEntry.id).filterMap _ = _
  rw [hnone]
  rfl

end DistTaskSystem
