import DistTaskSystem.Guarantees.DagEngine
import DistTaskSystem.Library.Runs
import DistTaskSystem.Scheduler.TaskStream

/-!
# DTS — where the consumer group starts

A scheduler creates the group with `$`, so that it delivers what is added from
then on. An entry that is in the stream already lies behind the cursor of the
new group: it is not delivered, never becomes pending and is never
acknowledged. Every later command keeps the entries the group accounts for
exactly as they are.

## Results

* `Tracked.step`    — the invariant of the stream and its group.
* `accounted_step`  — what a command does to the entries accounted for.
* `group_start_iff` — when no entry is skipped.
-/

namespace DistTaskSystem

namespace TaskStream

open Runs

variable {s t : TaskStream} {a : StreamAction} {actions : List StreamAction} {st : Stream}

-- ---------------------------------------------------------------------------
-- The invariant
-- ---------------------------------------------------------------------------

/-- `st` is the task stream, with every entry ever added. -/
structure Tracked (s : TaskStream) (st : Stream) : Prop where
  holds : s.redis.HoldsStream kTasks st
  ordered : st.Ordered
  added : s.added = st.entries.map StreamEntry.id
  within : ∀ g ∈ st.group? kGroupMain, g.Within st
  acked : ∀ g ∈ st.group? kGroupMain, ∀ id ∈ s.acked, id ≤ g.lastDelivered
  fresh : st.group? kGroupMain = none → s.acked = []

theorem tracked_started {r : Redis} (hnone : r.keys kTasks = none) :
    Tracked (started r) .empty where
  holds := .inl ⟨hnone, rfl⟩
  ordered := Stream.ordered_empty
  added := rfl
  within _ hg := nomatch hg
  acked _ hg := nomatch hg
  fresh _ := rfl

/-- What the commands do to the stream. -/
inductive Effect (s : TaskStream) (st : Stream) : StreamAction → TaskStream → Stream → Prop
  | submit (taskId jobId : String) (r : Redis) :
      Effect s st (.submit taskId jobId)
        { s with redis := r, added := s.added ++ [st.nextId s.redis.now] }
        (st.add s.redis.now (toXAddArgs taskId jobId))
  /-- nothing is delivered, acknowledged or created -/
  | same (a : StreamAction) (r : Redis)
      (hcreates : ∀ outcome, a = .start outcome → outcome ≠ .refused →
        st.group? kGroupMain ≠ none) :
      Effect s st a { s with redis := r } st
  | create (outcome : ReplyOutcome) (r : Redis) (houtcome : outcome ≠ .refused)
      (hnone : st.group? kGroupMain = none) :
      Effect s st (.start outcome) { s with redis := r } (st.setGroup kGroupMain ⟨st.lastId, []⟩)
  | deliver (consumer : String) (count : Nat) (outcome : ReplyOutcome) (r : Redis)
      (g : ConsumerGroup) (hg : st.group? kGroupMain = some g) :
      Effect s st (.read consumer count outcome) { s with redis := r }
        (st.setGroup kGroupMain (g.deliver consumer s.redis.now ((g.undelivered st).take count)))
  | ack (id : Nat) (outcome : ReplyOutcome) (r : Redis) (acked : List Nat)
      (g : ConsumerGroup) (hg : st.group? kGroupMain = some g)
      (hacked : acked = if ∃ p ∈ g.pending, p.id = id then s.acked ++ [id] else s.acked) :
      Effect s st (.ack id outcome) { s with redis := r, acked := acked }
        (st.setGroup kGroupMain (g.ack [id]))

/-- **Inversion.** An action has one of these effects on the stream. -/
theorem step_effect (h : s.redis.HoldsStream kTasks st) (hstep : s.step a = some t) :
    ∃ st', t.redis.HoldsStream kTasks st' ∧ Effect s st a t st' := by
  cases a with
  | submit taskId jobId =>
    obtain ⟨hreply, hholds⟩ := xadd_stream h (toXAddArgs taskId jobId)
    obtain rfl := Option.some.inj hstep
    refine ⟨_, hholds, ?_⟩
    rw [hreply]
    exact .submit taskId jobId _
  | start outcome =>
    obtain rfl := Option.some.inj hstep
    by_cases houtcome : outcome = .refused
    · rw [startGroup_eq, if_pos houtcome]
      exact ⟨st, h, .same _ _ fun _ heq hne => absurd ((StreamAction.start.inj heq) ▸ houtcome) hne⟩
    · cases hg : st.group? kGroupMain with
      | none =>
        refine ⟨_, ?_, .create outcome _ houtcome hg⟩
        rw [startGroup_eq, if_neg houtcome]
        exact (xgroupCreate_stream h .last hg).2
      | some g =>
        refine ⟨st, ?_, .same _ _ fun _ _ _ hnone => nomatch hg.symm.trans hnone⟩
        rw [startGroup_eq, if_neg houtcome, xgroupCreate_busy h .last hg]
        exact h
  | read consumer count outcome =>
    obtain rfl := Option.some.inj hstep
    rw [redisCall_state]
    by_cases houtcome : outcome = .refused
    · rw [if_pos houtcome]
      exact ⟨st, h, .same _ _ fun _ heq => nomatch heq⟩
    · rw [if_neg houtcome]
      cases hg : st.group? kGroupMain with
      | none =>
        rw [xreadgroup_noGroup h consumer count hg]
        exact ⟨st, h, .same _ _ fun _ heq => nomatch heq⟩
      | some g =>
        exact ⟨_, (xreadgroup_stream h consumer count hg).2, .deliver consumer count outcome _ g hg⟩
  | ack id outcome =>
    obtain rfl := Option.some.inj hstep
    rw [redisCall_state]
    by_cases houtcome : outcome = .refused
    · rw [if_pos houtcome, if_neg fun hcond => hcond.1 houtcome]
      exact ⟨st, h, .same _ _ fun _ heq => nomatch heq⟩
    · rw [if_neg houtcome]
      cases hg : st.group? kGroupMain with
      | none =>
        have hnothing : ¬ (outcome ≠ .refused ∧
            0 < (Except.ok 0 : Except RedisError Nat).toOption.getD 0) :=
          fun hcond => Nat.lt_irrefl 0 hcond.2
        rw [xack_noGroup h id hg, if_neg hnothing]
        exact ⟨st, h, .same _ _ fun _ heq => nomatch heq⟩
      | some g =>
        obtain ⟨hreply, hholds⟩ := xack_stream h id hg
        refine ⟨_, hholds, .ack id outcome _ _ g hg ?_⟩
        have hcount : 0 < (g.pending.countP fun p => p.id = id) ↔ ∃ p ∈ g.pending, p.id = id := by
          rw [List.countP_pos_iff]
          simp only [decide_eq_true_eq]
        rw [hreply]
        show (if outcome ≠ .refused ∧ 0 < (g.pending.countP fun p => p.id = id) then _ else _) = _
        simp only [hcount, ne_eq, houtcome, not_false_eq_true, true_and]
  | pass ms =>
    obtain rfl := Option.some.inj hstep
    exact ⟨st, h.advance ms, .same _ _ fun _ heq => nomatch heq⟩

/-- **Step lemma.** Every action keeps the invariant. -/
theorem Tracked.step {st' : Stream} (h : Tracked s st) (hholds : t.redis.HoldsStream kTasks st')
    (heffect : Effect s st a t st') : Tracked t st' := by
  cases heffect with
  | submit taskId jobId r =>
    refine ⟨hholds, h.ordered.add _ _, ?_, fun g hg => (h.within g hg).add _ _, h.acked, h.fresh⟩
    show s.added ++ [_] = (st.entries ++ [_]).map StreamEntry.id
    rw [List.map_append, h.added]
    rfl
  | same a r hcreates => exact ⟨hholds, h.ordered, h.added, h.within, h.acked, h.fresh⟩
  | create outcome r houtcome hnone =>
    have hgroup : (st.setGroup kGroupMain ⟨st.lastId, []⟩).group? kGroupMain =
        some ⟨st.lastId, []⟩ := st.group?_setGroup _
    refine ⟨hholds, h.ordered.setGroup _ _, h.added, fun g hg => ?_, fun g hg id hid => ?_,
      fun hno => nomatch hgroup.symm.trans hno⟩
    · obtain rfl := Option.some.inj (hgroup.symm.trans hg)
      exact ConsumerGroup.within_new _ le_rfl
    · -- nothing was acknowledged without a group
      rw [show s.acked = [] from h.fresh hnone] at hid
      exact absurd hid List.not_mem_nil
  | deliver consumer count outcome r g hg =>
    set g' := g.deliver consumer s.redis.now ((g.undelivered st).take count) with hg'
    have hgroup : (st.setGroup kGroupMain g').group? kGroupMain = some g' := st.group?_setGroup _
    refine ⟨hholds, h.ordered.setGroup _ _, h.added, fun g₁ hg₁ => ?_, fun g₁ hg₁ id hid => ?_,
      fun hno => nomatch hgroup.symm.trans hno⟩
    · obtain rfl := Option.some.inj (hgroup.symm.trans hg₁)
      exact ((h.within g hg).deliver h.ordered _ _ _).setGroup _ _
    · obtain rfl := Option.some.inj (hgroup.symm.trans hg₁)
      exact (h.acked g hg id hid).trans
        (ConsumerGroup.le_deliver h.ordered consumer s.redis.now count).1
  | ack id outcome r acked g hg hacked =>
    have hgroup : (st.setGroup kGroupMain (g.ack [id])).group? kGroupMain = some (g.ack [id]) :=
      st.group?_setGroup _
    refine ⟨hholds, h.ordered.setGroup _ _, h.added, fun g₁ hg₁ => ?_, fun g₁ hg₁ id' hid' => ?_,
      fun hno => nomatch hgroup.symm.trans hno⟩
    · obtain rfl := Option.some.inj (hgroup.symm.trans hg₁)
      exact ((h.within g hg).ack _).setGroup _ _
    · obtain rfl := Option.some.inj (hgroup.symm.trans hg₁)
      have hold := h.acked g hg
      rw [show acked = _ from hacked] at hid'
      split at hid'
      · next hpending =>
        -- what is pending has been delivered
        obtain ⟨p, hp, hpid⟩ := hpending
        rcases List.mem_append.mp hid' with hid' | hid'
        · exact hold id' hid'
        · rw [List.mem_singleton.mp hid', ← hpid]
          exact (h.within g hg).pending p hp
      · exact hold id' hid'

/-- The invariant without the stream it speaks of. -/
def Sound (s : TaskStream) : Prop := ∃ st, Tracked s st

theorem Sound.step (h : Sound s) (hstep : s.step a = some t) : Sound t := by
  obtain ⟨st, hst⟩ := h
  obtain ⟨st', hholds, heffect⟩ := step_effect hst.holds hstep
  exact ⟨st', hst.step hholds heffect⟩

-- ---------------------------------------------------------------------------
-- The entries accounted for
-- ---------------------------------------------------------------------------

/-- With the group created, every entry ever added can still be delivered, is
pending, or was acknowledged. -/
def Accounted (s : TaskStream) : Prop :=
  ∀ g, (s.redis.streamAt kTasks).group? kGroupMain = some g → ∀ id ∈ s.added,
    g.Reaches id ∨ id ∈ s.acked

/-- A start that creates the group finds no entry in the stream. -/
def CreatesOnEmpty (s : TaskStream) : StreamAction → Prop
  | .start outcome => outcome ≠ .refused →
      (s.redis.streamAt kTasks).group? kGroupMain = none → s.added = []
  | _ => True

theorem Tracked.accounted_iff (h : Tracked s st) {g : ConsumerGroup}
    (hg : st.group? kGroupMain = some g) :
    Accounted s ↔ ∀ e ∈ st.entries, g.Reaches e.id ∨ e.id ∈ s.acked := by
  unfold Accounted
  rw [h.holds.streamAt, h.added, hg]
  simp only [Option.some.injEq, forall_eq', List.forall_mem_map]

theorem Tracked.accounted_of_none (h : Tracked s st) (hg : st.group? kGroupMain = none) :
    Accounted s := by
  intro g hg'
  rw [h.holds.streamAt, hg] at hg'
  exact nomatch hg'

/-- A group that is created covers an empty stream, and no other. -/
theorem Tracked.accounted_create (hst : Tracked s st)
    (ht : Tracked t (st.setGroup kGroupMain ⟨st.lastId, []⟩))
    (hnone : st.group? kGroupMain = none) (hacked : t.acked = s.acked) :
    Accounted t ↔ st.entries = [] := by
  have hgroup : (st.setGroup kGroupMain ⟨st.lastId, []⟩).group? kGroupMain =
      some ⟨st.lastId, []⟩ := st.group?_setGroup _
  rw [ht.accounted_iff hgroup, hacked, hst.fresh hnone]
  constructor
  · intro hall
    by_contra hne
    obtain ⟨e, he⟩ := List.exists_mem_of_ne_nil _ hne
    have hle := hst.ordered.last e he
    rcases hall e he with (hbeyond | ⟨p, hp, -⟩) | hacked
    · exact absurd hbeyond (by simpa using hle)
    · exact absurd hp List.not_mem_nil
    · exact absurd hacked List.not_mem_nil
  · intro hnil e he
    rw [show (st.setGroup kGroupMain _).entries = [] from hnil] at he
    exact absurd he List.not_mem_nil

/-- **Step lemma.** An action keeps the account exactly if it creates no group
behind an entry. -/
theorem accounted_step (h : Sound s) (hstep : s.step a = some t) :
    Accounted t ↔ Accounted s ∧ CreatesOnEmpty s a := by
  obtain ⟨st, hst⟩ := h
  obtain ⟨st', hholds, heffect⟩ := step_effect hst.holds hstep
  have ht := hst.step hholds heffect
  have hstream := hst.holds.streamAt
  cases heffect with
  | submit taskId jobId r =>
    refine Iff.trans ?_ (and_iff_left trivial).symm
    cases hg : st.group? kGroupMain with
    | none => exact iff_of_true (ht.accounted_of_none hg) (hst.accounted_of_none hg)
    | some g =>
      rw [ht.accounted_iff (g := g) hg, hst.accounted_iff hg]
      constructor
      · intro hall e he
        exact hall e (Stream.mem_add.mpr (.inl he))
      · intro hall e he
        rcases Stream.mem_add.mp he with hold | rfl
        · exact hall e hold
        · -- the new entry is beyond everything delivered
          have hle := (hst.within g hg).delivered
          exact .inl (.inl (hle.trans_lt (st.lastId_lt_nextId _)))
  | same a r hcreates =>
    have hok : CreatesOnEmpty s a := by
      cases a with
      | start outcome =>
        intro houtcome hnone
        rw [hstream] at hnone
        exact absurd hnone (hcreates outcome rfl houtcome)
      | _ => trivial
    refine Iff.trans ?_ (and_iff_left hok).symm
    cases hg : st.group? kGroupMain with
    | none => exact iff_of_true (ht.accounted_of_none hg) (hst.accounted_of_none hg)
    | some g => rw [ht.accounted_iff hg, hst.accounted_iff hg]
  | create outcome r houtcome hnone =>
    rw [hst.accounted_create ht hnone rfl, and_iff_right (hst.accounted_of_none hnone)]
    show _ ↔ (outcome ≠ .refused → (s.redis.streamAt kTasks).group? kGroupMain = none →
      s.added = [])
    rw [hstream, hst.added, List.map_eq_nil_iff]
    exact ⟨fun hnil _ _ => hnil, fun himp => himp houtcome hnone⟩
  | deliver consumer count outcome r g hg =>
    refine Iff.trans ?_ (and_iff_left trivial).symm
    rw [ht.accounted_iff (st.group?_setGroup _), hst.accounted_iff hg]
    refine forall₂_congr fun e he => or_congr_left ?_
    exact ConsumerGroup.deliver_reaches hst.ordered consumer s.redis.now count he
  | ack id outcome r acked g hg hacked =>
    refine Iff.trans ?_ (and_iff_left trivial).symm
    rw [ht.accounted_iff (st.group?_setGroup _), hst.accounted_iff hg]
    refine forall₂_congr fun e he => ?_
    have hack : e.id ∈ acked ↔ (e.id = id ∧ ∃ p ∈ g.pending, p.id = id) ∨ e.id ∈ s.acked := by
      rw [hacked]
      split
      · next hpending =>
        rw [List.mem_append, List.mem_singleton, and_iff_left hpending]
        exact or_comm
      · next hpending => simp [hpending]
    show (g.ack [id]).Reaches e.id ∨ e.id ∈ acked ↔ _
    rw [hack, ← or_assoc, ConsumerGroup.ack_reaches]

-- ---------------------------------------------------------------------------
-- The result
-- ---------------------------------------------------------------------------

/-- **When no entry is skipped**: exactly if the stream is empty whenever a
scheduler's start creates the group. -/
theorem group_start_iff (r : Redis) (hnone : r.keys kTasks = none) (actions : List StreamAction)
    (t : TaskStream) (hrun : run step (started r) actions = some t) :
    (∀ g, (t.redis.streamAt kTasks).group? kGroupMain = some g → ∀ id ∈ t.added,
      g.lastDelivered < id ∨ (∃ p ∈ g.pending, p.id = id) ∨ id ∈ t.acked) ↔
    Along step CreatesOnEmpty (started r) actions := by
  have hstart : Sound (started r) := ⟨_, tracked_started hnone⟩
  have haccounted : Accounted (started r) := (tracked_started hnone).accounted_of_none rfl
  have hiff := along_iff (fun _ _ _ h hstep => Sound.step h hstep)
    (fun _ _ _ h hstep => accounted_step h hstep) hrun hstart
  rw [and_iff_right haccounted] at hiff
  rw [← hiff]
  simp only [Accounted, ConsumerGroup.Reaches, or_assoc]

/-- The scheduler is there first. -/
def schedulerFirst : List StreamAction :=
  [.start .answered, .submit taskA.text jobX.text, .read "scheduler" 20 .answered,
    .start .answered, .submit taskB.text jobX.text]

theorem group_start_iff_schedulerFirst :
    ∃ t, run step (started .empty) schedulerFirst = some t ∧
      ∀ g, (t.redis.streamAt kTasks).group? kGroupMain = some g → ∀ id ∈ t.added,
        g.lastDelivered < id ∨ (∃ p ∈ g.pending, p.id = id) ∨ id ∈ t.acked := by
  refine ⟨_, rfl, (group_start_iff .empty rfl schedulerFirst _ rfl).mpr ?_⟩
  refine (along_cons rfl).mpr ⟨fun _ _ => rfl, (along_cons rfl).mpr ⟨trivial, (along_cons rfl).mpr
    ⟨trivial, (along_cons rfl).mpr ⟨fun _ hnone => ?_, (along_cons rfl).mpr ⟨trivial, trivial⟩⟩⟩⟩⟩
  exact absurd hnone (by decide)

/-- **A task is skipped**: the api-server is there first. -/
theorem early_entry_skipped :
    ∃ t, run step (started .empty) [.submit taskA.text jobX.text, .start .answered] = some t ∧
      ¬ ∀ g, (t.redis.streamAt kTasks).group? kGroupMain = some g → ∀ id ∈ t.added,
        g.lastDelivered < id ∨ (∃ p ∈ g.pending, p.id = id) ∨ id ∈ t.acked := by
  have hempty : Redis.empty.HoldsStream kTasks .empty := .inl ⟨rfl, rfl⟩
  obtain ⟨hreply, hadd⟩ := xadd_stream hempty (toXAddArgs taskA.text jobX.text)
  have hnone :
      (Stream.empty.add 0 (toXAddArgs taskA.text jobX.text)).group? kGroupMain = none := rfl
  have hcreate := (xgroupCreate_stream hadd .last hnone).2
  refine ⟨_, rfl, fun hall => ?_⟩
  -- the cursor of the new group stands at the entry
  have hentry := hall ⟨Stream.empty.nextId 0, []⟩ (by
    show ((startGroup .answered (xadd kTasks (toXAddArgs taskA.text jobX.text) .empty).2).streamAt
      kTasks).group? kGroupMain = _
    rw [startGroup_eq, if_neg (by decide), hcreate.streamAt, Stream.group?_setGroup]
    rfl) (Stream.empty.nextId 0) (by
    show _ ∈ [] ++ (xadd kTasks _ Redis.empty).1.toOption.toList
    rw [hreply]
    exact List.mem_singleton_self _)
  rcases hentry with hbeyond | ⟨p, hp, -⟩ | hacked
  · exact absurd hbeyond (lt_irrefl _)
  · exact absurd hp List.not_mem_nil
  · exact absurd hacked List.not_mem_nil

end TaskStream

end DistTaskSystem
