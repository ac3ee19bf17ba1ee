import DistTaskSystem.Scheduler.Cluster

/-!
# DTS — the main group of the task stream

What the calls of `RedisManager` do to the task stream and the scheduler's group
on it, whatever becomes of the reply. Only an acknowledgement gives an entry up:
every other call leaves the entries that the group can deliver or has pending
within its reach.

## Results

* `Serves`       — the server holds the task stream, and its group keeps to it.
* `Serves.read`, `Serves.claim`, `Serves.ack` — the calls of the scheduler.
* `Serves.step`   — a step of the system gives up the entry it acknowledges only.
-/

namespace DistTaskSystem

/-- `st` is the task stream. A group need not exist. -/
structure Serves (r : Redis) (st : Stream) : Prop where
  holds : r.HoldsStream kTasks st
  ordered : st.Ordered
  within : ∀ g ∈ st.group? kGroupMain, g.Within st

/-- The entry is undelivered or pending. -/
def Stream.Reaches (st : Stream) (id : Nat) : Prop :=
  ∀ g ∈ st.group? kGroupMain, g.Reaches id

/-- The entry was delivered. -/
def Stream.Delivered (st : Stream) (id : Nat) : Prop :=
  ∃ g ∈ st.group? kGroupMain, id ≤ g.lastDelivered

/-- The stream after a command that gives no entry up, and may add one. -/
structure Keeps (st st' : Stream) : Prop where
  entries : ∀ e ∈ st.entries, e ∈ st'.entries
  added : ∀ e ∈ st'.entries, e ∈ st.entries ∨ st'.Reaches e.id
  delivered : ∀ id, st.Delivered id → st'.Delivered id
  reaches : ∀ e ∈ st.entries, st.Reaches e.id → st'.Reaches e.id

namespace Keeps

variable {st : Stream}

theorem rfl : Keeps st st where
  entries _ h := h
  added _ h := .inl h
  delivered _ h := h
  reaches _ _ h := h

/-- A new group that delivered no less and reaches the same. -/
theorem setGroup {g g' : ConsumerGroup} (hg : st.group? kGroupMain = some g)
    (hcursor : g.lastDelivered ≤ g'.lastDelivered)
    (hreaches : ∀ e ∈ st.entries, g.Reaches e.id → g'.Reaches e.id) :
    Keeps st (st.setGroup kGroupMain g') where
  entries _ h := h
  added _ h := .inl h
  delivered := by
    rintro id ⟨g₀, hg₀, hle⟩
    obtain rfl := Option.some.inj (hg.symm.trans hg₀)
    exact ⟨g', st.group?_setGroup g', hle.trans hcursor⟩
  reaches := by
    intro e he h g₁ hg₁
    obtain rfl := Option.some.inj ((st.group?_setGroup g').symm.trans hg₁)
    exact hreaches e he (h g hg)

end Keeps

namespace Serves

variable {r : Redis} {st : Stream}

-- ---------------------------------------------------------------------------
-- Calls that give no entry up
-- ---------------------------------------------------------------------------

/-- A command on another key. -/
theorem other {r' : Redis} (h : Serves r st) (hkeys : r'.keys kTasks = r.keys kTasks) :
    Serves r' st := by
  refine ⟨?_, h.ordered, h.within⟩
  have hholds := h.holds
  rwa [Redis.HoldsStream, ← hkeys] at hholds

theorem advance (h : Serves r st) (ms : Nat) : Serves (r.advance ms) st :=
  ⟨h.holds.advance ms, h.ordered, h.within⟩

/-- The id of a new entry is beyond everything delivered, so the group reaches it. -/
theorem add (h : Serves r st) (fields : List (String × String)) :
    Serves (xadd kTasks fields r).2 (st.add r.now fields) ∧ Keeps st (st.add r.now fields) := by
  refine ⟨⟨(xadd_stream h.holds fields).2, h.ordered.add _ _, ?_⟩, ⟨?_, ?_, ?_, ?_⟩⟩
  · exact fun g hg => (h.within g hg).add _ _
  · exact fun e he => Stream.mem_add.mpr (.inl he)
  · intro e he
    refine (Stream.mem_add.mp he).imp id ?_
    rintro rfl g hg
    exact .inl ((h.within g hg).delivered.trans_lt (st.lastId_lt_nextId _))
  · exact fun id hid => hid
  · exact fun e _ he => he

/-- The entries of a batch are new to the group. -/
structure Reads (st st' : Stream) (batch : List StreamEntry) : Prop where
  keeps : Keeps st st'
  nodup : (batch.map StreamEntry.id).Nodup
  entries : ∀ e ∈ batch, e ∈ st.entries
  fresh : ∀ e ∈ batch, ¬ st.Delivered e.id
  delivered : ∀ e ∈ batch, st'.Delivered e.id

theorem Reads.nil {st' : Stream} (hkeeps : Keeps st st') : Reads st st' [] where
  keeps := hkeeps
  nodup := List.nodup_nil
  entries _ h := absurd h List.not_mem_nil
  fresh _ h := absurd h List.not_mem_nil
  delivered _ h := absurd h List.not_mem_nil

theorem read (h : Serves r st) (outcome : ReplyOutcome) (consumer : String) (count : Nat) :
    ∃ st', Serves (redisCall outcome (xreadgroup kGroupMain consumer kTasks count) r).2 st' ∧
      Reads st st'
        ((redisCall outcome (xreadgroup kGroupMain consumer kTasks count) r).1.getD []) := by
  cases hg : st.group? kGroupMain with
  | none =>
    rw [redisCall_error outcome (xreadgroup_noGroup h.holds consumer count hg)]
    exact ⟨st, h, .nil .rfl⟩
  | some g =>
    obtain ⟨hreply, hholds⟩ := xreadgroup_stream h.holds consumer count hg
    have hwithin := h.within g hg
    have hcursor := ConsumerGroup.le_deliver (g := g) h.ordered consumer r.now count
    set g' := g.deliver consumer r.now ((g.undelivered st).take count) with hg'
    have hserves : Serves (xreadgroup kGroupMain consumer kTasks count r).2
        (st.setGroup kGroupMain g') := by
      refine ⟨hholds, h.ordered.setGroup _ _, fun g₁ hg₁ => ?_⟩
      obtain rfl := Option.some.inj ((st.group?_setGroup g').symm.trans hg₁)
      exact (hwithin.deliver h.ordered consumer r.now count).setGroup _ _
    have hkeeps : Keeps st (st.setGroup kGroupMain g') :=
      .setGroup hg hcursor.1 fun e he => (ConsumerGroup.deliver_reaches h.ordered consumer r.now
        count he).mpr
    cases outcome with
    | refused => exact ⟨st, h, .nil .rfl⟩
    | lost => exact ⟨_, hserves, .nil hkeeps⟩
    | answered =>
      refine ⟨_, hserves, ?_⟩
      have hbatch :
          (redisCall .answered (xreadgroup kGroupMain consumer kTasks count) r).1.getD [] =
          (g.undelivered st).take count := by
        rw [redisCall, hreply]
        rfl
      rw [hbatch]
      refine ⟨hkeeps, ?_, ?_, ?_, ?_⟩
      · have hsorted : ((g.undelivered st).take count).Pairwise fun e e' => e.id < e'.id :=
          (h.ordered.entries.sublist List.filter_sublist).sublist (List.take_sublist _ _)
        rw [List.Nodup, List.pairwise_map]
        exact hsorted.imp fun hlt => Nat.ne_of_lt hlt
      · exact fun e he => (ConsumerGroup.mem_take_undelivered he).1
      · rintro e he ⟨g₀, hg₀, hle⟩
        obtain rfl := Option.some.inj (hg.symm.trans hg₀)
        exact absurd (ConsumerGroup.mem_take_undelivered he).2 (not_lt.mpr hle)
      · exact fun e he => ⟨g', st.group?_setGroup g', hcursor.2 e he⟩

/-- The scan reads. -/
theorem pending (h : Serves r st) (outcome : ReplyOutcome) (count : Nat) :
    (redisCall outcome (xpending kTasks kGroupMain count) r).2 = r ∧
      (Cluster.idleIds (redisCall outcome (xpending kTasks kGroupMain count) r).1).Nodup := by
  cases hg : st.group? kGroupMain with
  | none =>
    rw [redisCall_error outcome (xpending_noGroup h.holds count hg)]
    exact ⟨rfl, List.nodup_nil⟩
  | some g =>
    rw [redisCall_state, xpending_stream h.holds count hg, ite_self]
    refine ⟨rfl, ?_⟩
    cases outcome with
    | lost => exact List.nodup_nil
    | refused => exact List.nodup_nil
    | answered =>
      rw [redisCall, xpending_stream h.holds count hg]
      show ((List.filter _ ((g.pending.take count).map _)).map XPendingDetail.id).Nodup
      refine List.Nodup.sublist (List.filter_sublist.map _) ?_
      rw [List.map_map]
      exact (h.within g hg).nodup.sublist ((List.take_sublist _ _).map _)

/-- The claimed entries were asked for, and have been pending for long enough. -/
structure Claims (now : Nat) (ids : List Nat) (st st' : Stream) (claimed : List StreamEntry) :
    Prop where
  keeps : Keeps st st'
  ids : (claimed.map StreamEntry.id).Sublist ids
  entries : ∀ e ∈ claimed, e ∈ st.entries
  idle : ∀ e ∈ claimed, ∃ g ∈ st.group? kGroupMain, ∃ p ∈ g.pending, p.id = e.id ∧
    minIdleMs ≤ now - p.deliveredAt
  delivered : ∀ e ∈ claimed, st'.Delivered e.id

theorem Claims.nil {now : Nat} {ids : List Nat} {st' : Stream} (hkeeps : Keeps st st') :
    Claims now ids st st' [] where
  keeps := hkeeps
  ids := List.nil_sublist ids
  entries _ h := absurd h List.not_mem_nil
  idle _ h := absurd h List.not_mem_nil
  delivered _ h := absurd h List.not_mem_nil

theorem claim (h : Serves r st) (outcome : ReplyOutcome) (consumer : String) {ids : List Nat}
    (hids : ids.Nodup) :
    ∃ st', Serves (redisCall outcome (xclaim kTasks kGroupMain consumer minIdleMs ids) r).2 st' ∧
      Claims r.now ids st st'
        ((redisCall outcome (xclaim kTasks kGroupMain consumer minIdleMs ids) r).1.getD []) := by
  cases hg : st.group? kGroupMain with
  | none =>
    rw [redisCall_error outcome (xclaim_noGroup h.holds consumer minIdleMs ids hg)]
    exact ⟨st, h, .nil .rfl⟩
  | some g =>
    have hwithin := h.within g hg
    obtain ⟨g', claimed, hclaimed, hreply, hholds⟩ :=
      xclaim_stream h.holds consumer minIdleMs hids hg hwithin
    have hserves : Serves (xclaim kTasks kGroupMain consumer minIdleMs ids r).2
        (st.setGroup kGroupMain g') := by
      refine ⟨hholds, h.ordered.setGroup _ _, fun g₁ hg₁ => ?_⟩
      obtain rfl := Option.some.inj ((st.group?_setGroup g').symm.trans hg₁)
      exact (hclaimed.sameIds.within hwithin).setGroup _ _
    have hkeeps : Keeps st (st.setGroup kGroupMain g') :=
      .setGroup hg hclaimed.sameIds.cursor.ge fun e he => hclaimed.sameIds.reaches.mpr
    cases outcome with
    | refused => exact ⟨st, h, .nil .rfl⟩
    | lost => exact ⟨_, hserves, .nil hkeeps⟩
    | answered =>
      refine ⟨_, hserves, ?_⟩
      have hbatch : (redisCall .answered
          (xclaim kTasks kGroupMain consumer minIdleMs ids) r).1.getD [] = claimed := by
        rw [redisCall, hreply]
        rfl
      rw [hbatch]
      refine ⟨hkeeps, hclaimed.ids, hclaimed.entries, ?_, ?_⟩
      · exact fun e he => ⟨g, hg, hclaimed.idle e he⟩
      · intro e he
        obtain ⟨p, hp, hid, -⟩ := hclaimed.idle e he
        exact hkeeps.delivered _ ⟨g, hg, hid ▸ hwithin.pending p hp⟩

-- ---------------------------------------------------------------------------
-- The acknowledgement
-- ---------------------------------------------------------------------------

/-- The stream after an acknowledgement: the entries stay, and all others are
still reached. -/
structure Acks (id : Nat) (st st' : Stream) : Prop where
  entries : st'.entries = st.entries
  delivered : ∀ id, st.Delivered id → st'.Delivered id
  reaches : ∀ e ∈ st.entries, e.id ≠ id → st.Reaches e.id → st'.Reaches e.id

theorem Acks.rfl {id : Nat} : Acks id st st where
  entries := Eq.refl _
  delivered _ h := h
  reaches _ _ _ h := h

theorem ack (h : Serves r st) (outcome : ReplyOutcome) (id : Nat) :
    ∃ st', Serves (redisCall outcome (xack kTasks kGroupMain id) r).2 st' ∧ Acks id st st' := by
  have hsame : Acks id st st := .rfl
  rw [redisCall_state]
  by_cases houtcome : outcome = .refused
  · rw [if_pos houtcome]
    exact ⟨st, h, hsame⟩
  · rw [if_neg houtcome]
    cases hg : st.group? kGroupMain with
    | none =>
      rw [xack_noGroup h.holds id hg]
      exact ⟨st, h, hsame⟩
    | some g =>
      have hself : (st.setGroup kGroupMain (g.ack [id])).group? kGroupMain = some (g.ack [id]) :=
        st.group?_setGroup _
      refine ⟨_, ⟨(xack_stream h.holds id hg).2, h.ordered.setGroup _ _, ?_⟩, Eq.refl _, ?_, ?_⟩
      · intro g₁ hg₁
        obtain rfl := Option.some.inj (hself.symm.trans hg₁)
        exact ((h.within g hg).ack [id]).setGroup _ _
      · rintro id' ⟨g₀, hg₀, hle⟩
        obtain rfl := Option.some.inj (hg.symm.trans hg₀)
        exact ⟨_, hself, hle⟩
      · intro e he hne hreaches g₁ hg₁
        obtain rfl := Option.some.inj (hself.symm.trans hg₁)
        rcases ConsumerGroup.ack_reaches.mpr (hreaches g hg) with hkept | ⟨heq, -⟩
        · exact hkept
        · exact absurd heq hne

-- ---------------------------------------------------------------------------
-- The steps of the system
-- ---------------------------------------------------------------------------

theorem handled {env : LoopEnv} {faults : EntryFaults} {select : Option WorkerInfo}
    {entry : StreamEntry} {handled : Handled} {l m : SchedulerLoop} (h : Serves l.redis st)
    (heffect : HandleEffect env faults select entry l handled m) :
    ∃ st', Serves m.redis st' ∧ Acks entry.id st st' := by
  cases heffect with
  | skip hlookup => exact h.ack faults.xack entry.id
  | dispatch task worker hlookup hselect => exact ⟨st, h, .rfl⟩
  | noWorker task hlookup hselect => exact ⟨st, h, .rfl⟩

theorem settled {faults : SettleFaults} {job : Dispatch} {answer : Answer} {l : SchedulerLoop}
    (h : Serves l.redis st) :
    ∃ st', Serves (settle faults job answer l).redis st' ∧ Acks job.streamId st st' := by
  unfold settle
  cases answer.success with
  | true => exact h.ack faults.xack job.streamId
  | false => exact ⟨st, h, .rfl⟩

/-- Nobody but the scheduler acknowledges. -/
theorem world {s t : Cluster} {a : Cluster.WorldAction} (h : Serves s.loop.redis st)
    (hstep : s.worldStep a = some t) : ∃ st', Serves t.loop.redis st' ∧ Keeps st st' := by
  cases Cluster.worldStep_moves hstep with
  | push fields => exact ⟨_, h.add fields⟩
  | store taskId payload ttl =>
    exact ⟨st, h.other (onKey_frame (by simp) _), .rfl⟩
  | pass ms => exact ⟨st, h.advance ms, .rfl⟩
  | boot workerId address hasSubmitter hfresh => exact ⟨st, h, .rfl⟩
  | register j node hnode halive => exact ⟨st, h, .rfl⟩
  | heartbeat j runningTaskCount node hnode halive => exact ⟨st, h, .rfl⟩
  | crash j node hnode => exact ⟨st, h, .rfl⟩
  | report j k delivered node task hnode htask halive => exact ⟨st, h, .rfl⟩
  | patrol outcome => exact ⟨st, h, .rfl⟩

/-- The stream after a step that acknowledges at most one entry. -/
structure Follows (acked : Option Nat) (st st' : Stream) : Prop where
  entries : ∀ e ∈ st.entries, e ∈ st'.entries
  added : ∀ e ∈ st'.entries, e ∈ st.entries ∨ st'.Reaches e.id
  reaches : ∀ e ∈ st.entries, acked ≠ some e.id → st.Reaches e.id → st'.Reaches e.id

theorem Follows.of_keeps {acked : Option Nat} {st' : Stream} (h : Keeps st st') :
    Follows acked st st' :=
  ⟨h.entries, h.added, fun e he _ => h.reaches e he⟩

theorem Follows.of_acks {acked : Option Nat} {id : Nat} {st' : Stream} (h : Acks id st st')
    (hacked : acked = some id) : Follows acked st st' where
  entries _ he := h.entries ▸ he
  added _ he := .inl (h.entries ▸ he)
  reaches e he hne := h.reaches e he fun heq => hne (heq ▸ hacked)

section Step

variable {env : LoopEnv} {s t : Cluster}

/-- An entry that is skipped is acknowledged. -/
theorem follows_handled {faults : EntryFaults} {select : Option WorkerInfo} {entry : StreamEntry}
    {rest : List StreamEntry} {handled : Handled} {loop : SchedulerLoop}
    (h : Serves s.loop.redis st) (hhead : s.inHand = entry :: rest)
    (heffect : HandleEffect env faults select entry s.loop handled loop) :
    ∃ st', Serves loop.redis st' ∧ Follows (s.acked env (.loop (.entry faults))) st st' := by
  cases heffect with
  | skip hlookup =>
    obtain ⟨st', hserves, hacks⟩ := h.ack faults.xack entry.id
    refine ⟨st', hserves, .of_acks hacks ?_⟩
    simp only [Cluster.acked, hhead, List.head?_cons, Option.bind_some, hlookup]
  | dispatch task worker hlookup hselect => exact ⟨st, h, .of_keeps .rfl⟩
  | noWorker task hlookup hselect => exact ⟨st, h, .of_keeps .rfl⟩

/-- **Step lemma, loop thread.** -/
theorem step_loop {a : Cluster.LoopAction} (h : Serves s.loop.redis st)
    (hids : ∀ ids, s.work = .claim ids → ids.Nodup) (hstep : s.loopStep env a = some t) :
    ∃ st', Serves t.loop.redis st' ∧ Follows (s.acked env (.loop a)) st st' ∧
      (∀ ids, t.work = .claim ids → ids.Nodup) ∧
      ∀ e ∈ t.inHand, e ∈ s.inHand ∨ e ∈ st.entries := by
  have hnoIds : ∀ {work : LoopWork}, (∀ ids, work ≠ .claim ids) →
      ∀ ids, work = .claim ids → ids.Nodup := fun hne ids heq => absurd heq (hne ids)
  cases Cluster.loopStep_moves hstep with
  | busy hwork hfull => exact ⟨st, h, .of_keeps .rfl, hids, fun _ he => .inl he⟩
  | toScan hwork hroom hdue =>
    exact ⟨st, h, .of_keeps .rfl, hnoIds nofun, fun _ he => absurd he List.not_mem_nil⟩
  | toPull hwork hroom =>
    exact ⟨st, h, .of_keeps .rfl, hnoIds nofun, fun _ he => absurd he List.not_mem_nil⟩
  | scanned outcome call hwork hcall =>
    obtain ⟨hredis, hnodup⟩ := h.pending outcome rescueBatchSize
    rw [← hcall] at hredis hnodup
    refine ⟨st, hredis ▸ h, .of_keeps .rfl, ?_, ?_⟩
    · intro ids hclaim
      by_cases hnone : Cluster.idleIds call.1 = []
      · exact nomatch (if_pos hnone).symm.trans hclaim
      · obtain rfl := LoopWork.claim.inj ((if_neg hnone).symm.trans hclaim)
        exact hnodup
    · intro e he
      by_cases hnone : Cluster.idleIds call.1 = []
      · rw [if_pos hnone] at he
        exact absurd he List.not_mem_nil
      · rw [if_neg hnone] at he
        exact absurd he List.not_mem_nil
  | claimed outcome ids call hwork hcall =>
    obtain ⟨st', hserves, hclaims⟩ := h.claim outcome env.consumerName (hids ids hwork)
    rw [← hcall] at hserves hclaims
    refine ⟨st', hserves, .of_keeps hclaims.keeps, hnoIds (LoopWork.rescueRest_ne_claim _),
      fun e he => ?_⟩
    rw [Cluster.inHand_rescueRest rfl] at he
    exact .inr (hclaims.entries e he)
  | noWorkers outcome hwork hnone =>
    exact ⟨st, h, .of_keeps .rfl, hnoIds nofun, fun _ he => absurd he List.not_mem_nil⟩
  | pulled outcome c call hwork hworkers hcall =>
    obtain ⟨st', hserves, hreads⟩ := h.read outcome env.consumerName readBatchSize
    rw [← hcall] at hserves hreads
    refine ⟨st', hserves, .of_keeps hreads.keeps, hnoIds (LoopWork.batchRest_ne_claim _ _ _),
      fun e he => ?_⟩
    rw [Cluster.inHand_batchRest rfl] at he
    exact .inr (hreads.entries e he)
  | handled faults c workerIdx entry rest handled loop hwork heffect =>
    have hhead : s.inHand = entry :: rest := by rw [Cluster.inHand, hwork]
    obtain ⟨st', hserves, hfollows⟩ := h.follows_handled hhead heffect
    refine ⟨st', hserves, hfollows, hnoIds (LoopWork.batchRest_ne_claim _ _ _), fun e he => ?_⟩
    rw [Cluster.inHand_batchRest rfl] at he
    exact .inl (hhead ▸ List.mem_cons_of_mem entry he)
  | thrown faults c workerIdx entry rest e hwork hthrow =>
    exact ⟨st, h, .of_keeps .rfl, hnoIds nofun, fun _ he => absurd he List.not_mem_nil⟩
  | rescued faults entry rest handled loop hwork heffect =>
    have hhead : s.inHand = entry :: rest := by rw [Cluster.inHand, hwork]
    obtain ⟨st', hserves, hfollows⟩ := h.follows_handled hhead heffect
    refine ⟨st', hserves, hfollows, hnoIds (LoopWork.rescueRest_ne_claim _), fun e he => ?_⟩
    rw [Cluster.inHand_rescueRest rfl] at he
    exact .inl (hhead ▸ List.mem_cons_of_mem entry he)
  | rescueThrown faults entry rest e hwork hthrow =>
    exact ⟨st, h, .of_keeps .rfl, hnoIds nofun, fun _ he => absurd he List.not_mem_nil⟩

/-- **Step lemma, pool.** -/
theorem step_pool {a : Cluster.PoolAction} (h : Serves s.loop.redis st)
    (hids : ∀ ids, s.work = .claim ids → ids.Nodup) (hstep : s.poolStep env a = some t) :
    ∃ st', Serves t.loop.redis st' ∧ Follows (s.acked env (.pool a)) st st' ∧
      (∀ ids, t.work = .claim ids → ids.Nodup) ∧
      ∀ e ∈ t.inHand, e ∈ s.inHand ∨ e ∈ st.entries := by
  cases Cluster.poolStep_moves hstep with
  | start job rest hpool hfree => exact ⟨st, h, .of_keeps .rfl, hids, fun _ he => .inl he⟩
  | fail i call job answer hrunning hfail =>
    exact ⟨st, h, .of_keeps .rfl, hids, fun _ he => .inl he⟩
  | execute i call job j node hrunning hnode halive haddress hstub htarget =>
    exact ⟨st, h, .of_keeps .rfl, hids, fun _ he => .inl he⟩
  | settle i faults job answer hrunning =>
    cases hsuccess : answer.success with
    | true =>
      obtain ⟨st', hserves, hacks⟩ := h.settled
      refine ⟨st', hserves, .of_acks hacks ?_, hids, fun _ he => .inl he⟩
      rw [Cluster.acked, hrunning]
      exact if_pos hsuccess
    | false =>
      refine ⟨st, ?_, .of_keeps .rfl, hids, fun _ he => .inl he⟩
      show Serves (settle faults job answer s.loop).redis st
      rw [settle, hsuccess]
      exact h

/-- **Step lemma.** A step gives up no entry but the one it acknowledges, and what
the loop takes in hand is in the stream. -/
theorem step {a : Cluster.Action} (h : Serves s.loop.redis st)
    (hids : ∀ ids, s.work = .claim ids → ids.Nodup) (hstep : s.step env a = some t) :
    ∃ st', Serves t.loop.redis st' ∧ Follows (s.acked env a) st st' ∧
      (∀ ids, t.work = .claim ids → ids.Nodup) ∧
      ∀ e ∈ t.inHand, e ∈ s.inHand ∨ e ∈ st.entries := by
  cases a with
  | loop a => exact h.step_loop hids hstep
  | pool a => exact h.step_pool hids hstep
  | world a =>
    obtain ⟨st', hserves, hkeeps⟩ := h.world hstep
    obtain ⟨hwork, -, -, -⟩ := Cluster.worldStep_threads hstep
    refine ⟨st', hserves, .of_keeps hkeeps, hwork ▸ hids, fun e he => .inl ?_⟩
    rwa [Cluster.inHand, hwork] at he

end Step

end Serves

end DistTaskSystem
