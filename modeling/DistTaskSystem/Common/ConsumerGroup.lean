import DistTaskSystem.Common.Redis
import Mathlib.Data.List.Pairwise

/-!
# DTS — consumer groups

The stream commands of `RedisManager` that go through a consumer group. A group
remembers the id up to which its stream was delivered and the entries delivered
and not yet acknowledged, in the order of their ids.

`XREADGROUP` blocks while there is nothing to deliver. A command here is the
moment at which it answers: with new entries, or with none once the block has
timed out.

## Results

* `Stream.Ordered`         — ids grow along a stream, and no group is ahead of it.
* `Stream.Ordered.add` and its neighbours — the commands keep it.
* `ConsumerGroup.Reaches`  — the group can still deliver an entry, or has it
  pending.
* `deliver_reaches`        — delivery keeps the entries within reach.
* `length_xreadgroup` and its neighbours — a reply is not longer than asked for.
* `Redis.HoldsStream`      — the commands on a stream that stays.
-/

namespace DistTaskSystem

-- ---------------------------------------------------------------------------
-- Groups of a stream
-- ---------------------------------------------------------------------------

namespace Stream

def group? (s : Stream) (name : String) : Option ConsumerGroup :=
  (s.groups.find? fun p => p.1 = name).map Prod.snd

def setGroup (s : Stream) (name : String) (g : ConsumerGroup) : Stream :=
  { s with groups := (name, g) :: s.groups.filter fun p => p.1 ≠ name }

end Stream

/-- Where a new group starts to deliver. -/
inductive StartId where
  /-- `$`: behind the last entry there is -/
  | last
  | after (id : Nat)
deriving DecidableEq, Repr

def StartId.resolve : StartId → Stream → Nat
  | .last, s => s.lastId
  | .after id, _ => id

namespace ConsumerGroup

/-- The entries the group has not delivered yet. -/
def undelivered (g : ConsumerGroup) (s : Stream) : List StreamEntry :=
  s.entries.filter fun e => g.lastDelivered < e.id

/-- The group after a delivery: the entries become pending. -/
def deliver (g : ConsumerGroup) (consumer : String) (now : Nat) (new : List StreamEntry) :
    ConsumerGroup where
  lastDelivered := (new.getLast?.map StreamEntry.id).getD g.lastDelivered
  pending := g.pending ++ new.map fun e => ⟨e.id, consumer, now, 1⟩

def ack (g : ConsumerGroup) (ids : List Nat) : ConsumerGroup :=
  { g with pending := g.pending.filter fun p => p.id ∉ ids }

/-- One id of an `XCLAIM`: it is taken over if it has been idle for long enough.
An entry that is no longer in the stream is dropped instead. -/
def claimOne (s : Stream) (consumer : String) (now minIdle : Nat)
    (acc : ConsumerGroup × List StreamEntry) (id : Nat) : ConsumerGroup × List StreamEntry :=
  match acc.1.pending.find? fun p => p.id = id with
  | none => acc
  | some p =>
    if now - p.deliveredAt < minIdle then acc
    else match s.entries.find? fun e => e.id = id with
      | none => (acc.1.ack [id], acc.2)
      | some e =>
        ({ acc.1 with pending := acc.1.pending.map fun p =>
            if p.id = id then ⟨id, consumer, now, p.deliveryCount + 1⟩ else p },
          acc.2 ++ [e])

end ConsumerGroup

-- ---------------------------------------------------------------------------
-- Commands
-- ---------------------------------------------------------------------------

/-- `XGROUP CREATE key group start MKSTREAM`. -/
def xgroupCreate (key group : String) (start : StartId) : RedisM Unit :=
  onKey key fun _ slot => do
    let s ← Slot.asStream slot
    if (s.group? group).isSome then throw .busyGroup
    else return ((), some ⟨.stream (s.setGroup group ⟨start.resolve s, []⟩), Slot.ttlOf slot⟩)

/-- `XREADGROUP GROUP group consumer COUNT count STREAMS key >`. -/
def xreadgroup (group consumer key : String) (count : Nat) : RedisM (List StreamEntry) :=
  onKey key fun now slot => do
    let s ← Slot.asStream slot
    match s.group? group with
    | none => throw .noGroup
    | some g =>
      let new := (g.undelivered s).take count
      return (new, some ⟨.stream (s.setGroup group (g.deliver consumer now new)), Slot.ttlOf slot⟩)

/-- `XACK key group id`. Without the group there is nothing to acknowledge. -/
def xack (key group : String) (id : Nat) : RedisM Nat := onKey key fun _ slot => do
  let s ← Slot.asStream slot
  match s.group? group with
  | none => return (0, slot)
  | some g =>
    return (g.pending.countP fun p => p.id = id,
      some ⟨.stream (s.setGroup group (g.ack [id])), Slot.ttlOf slot⟩)

/-- A line of `XPENDING`. -/
structure XPendingDetail where
  id : Nat
  consumer : String
  idleTimeMs : Nat
  deliveryCount : Nat
deriving DecidableEq, Repr

/-- `XPENDING key group - + count`. -/
def xpending (key group : String) (count : Nat) : RedisM (List XPendingDetail) :=
  onKey key fun now slot => do
    let s ← Slot.asStream slot
    match s.group? group with
    | none => throw .noGroup
    | some g =>
      return ((g.pending.take count).map fun p =>
        ⟨p.id, p.consumer, now - p.deliveredAt, p.deliveryCount⟩, slot)

/-- `XCLAIM key group consumer minIdle id ...`. -/
def xclaim (key group consumer : String) (minIdle : Nat) (ids : List Nat) :
    RedisM (List StreamEntry) :=
  onKey key fun now slot => do
    let s ← Slot.asStream slot
    match s.group? group with
    | none => throw .noGroup
    | some g =>
      let (g, claimed) := ids.foldl (ConsumerGroup.claimOne s consumer now minIdle) (g, [])
      return (claimed, some ⟨.stream (s.setGroup group g), Slot.ttlOf slot⟩)

-- ---------------------------------------------------------------------------
-- The length of a reply
-- ---------------------------------------------------------------------------

/-- A claimed id brings at most one entry. -/
theorem length_claimOne (s : Stream) (consumer : String) (now minIdle : Nat)
    (acc : ConsumerGroup × List StreamEntry) (id : Nat) :
    (ConsumerGroup.claimOne s consumer now minIdle acc id).2.length ≤ acc.2.length + 1 := by
  unfold ConsumerGroup.claimOne
  split
  · exact Nat.le_succ _
  · split
    · exact Nat.le_succ _
    · split
      · exact Nat.le_succ _
      · rw [List.length_append, List.length_singleton]

theorem length_foldl_claimOne (s : Stream) (consumer : String) (now minIdle : Nat)
    (ids : List Nat) (acc : ConsumerGroup × List StreamEntry) :
    (ids.foldl (ConsumerGroup.claimOne s consumer now minIdle) acc).2.length ≤
      acc.2.length + ids.length := by
  induction ids generalizing acc with
  | nil => exact le_refl _
  | cons id ids ih =>
    have hone := length_claimOne s consumer now minIdle acc id
    have hrest := ih (ConsumerGroup.claimOne s consumer now minIdle acc id)
    rw [List.foldl_cons, List.length_cons]
    omega

section Reply

variable {key group consumer : String} {r : Redis}

/-- A reply of a command on a group that has to be there. -/
theorem group_reply {α : Type} {reply : α}
    {f : Nat → Option Slot → Stream → ConsumerGroup → Except RedisError (α × Option Slot)}
    (h : (onKey key (fun now slot => do
      let s ← Slot.asStream slot
      match s.group? group with
      | none => throw .noGroup
      | some g => f now slot s g) r).1 = .ok reply) :
    ∃ s g slot, f r.now (r.keys key) s g = .ok (reply, slot) := by
  obtain ⟨slot, h⟩ := onKey_reply h
  cases hs : Slot.asStream (r.keys key) with
  | error e =>
    rw [hs] at h
    exact nomatch h
  | ok s =>
    simp only [hs, bind, Except.bind] at h
    split at h
    · exact nomatch h
    · exact ⟨s, _, slot, h⟩

/-- XREADGROUP returns no more entries than it was asked for. -/
theorem length_xreadgroup {count : Nat} {reply : List StreamEntry}
    (h : (xreadgroup group consumer key count r).1 = .ok reply) : reply.length ≤ count := by
  obtain ⟨s, g, slot, h⟩ := group_reply h
  obtain ⟨rfl, -⟩ := Prod.mk.inj (Except.ok.inj h)
  exact List.length_take_le _ _

/-- XPENDING lists no more entries than it was asked for. -/
theorem length_xpending {count : Nat} {reply : List XPendingDetail}
    (h : (xpending key group count r).1 = .ok reply) : reply.length ≤ count := by
  obtain ⟨s, g, slot, h⟩ := group_reply h
  obtain ⟨rfl, -⟩ := Prod.mk.inj (Except.ok.inj h)
  rw [List.length_map]
  exact List.length_take_le _ _

/-- XCLAIM returns no more entries than ids were claimed. -/
theorem length_xclaim {minIdle : Nat} {ids : List Nat} {reply : List StreamEntry}
    (h : (xclaim key group consumer minIdle ids r).1 = .ok reply) :
    reply.length ≤ ids.length := by
  obtain ⟨s, g, slot, h⟩ := group_reply h
  obtain ⟨rfl, -⟩ := Prod.mk.inj (Except.ok.inj h)
  have hall := length_foldl_claimOne s consumer r.now minIdle ids (g, [])
  rwa [List.length_nil, Nat.zero_add] at hall

end Reply

-- ---------------------------------------------------------------------------
-- Reading a group
-- ---------------------------------------------------------------------------

namespace Stream

variable (s : Stream) {name name' : String} (g : ConsumerGroup)

@[simp] theorem group?_setGroup : (s.setGroup name g).group? name = some g := by
  simp [group?, setGroup]

/-- Ids grow along the stream. -/
structure Ordered (s : Stream) : Prop where
  entries : s.entries.Pairwise fun e e' => e.id < e'.id
  last : ∀ e ∈ s.entries, e.id ≤ s.lastId

theorem ordered_empty : Ordered .empty where
  entries := List.Pairwise.nil
  last _ h := absurd h List.not_mem_nil

@[simp] theorem lastId_add (now : Nat) (fields : List (String × String)) :
    (s.add now fields).lastId = s.nextId now := rfl

@[simp] theorem lastId_setGroup (name : String) (g : ConsumerGroup) :
    (s.setGroup name g).lastId = s.lastId := rfl

theorem lastId_lt_nextId (now : Nat) : s.lastId < s.nextId now := by
  have hmax := Nat.le_max_right (now * 2 ^ 64) (s.lastId + 1)
  rw [nextId]
  omega

theorem mem_add {s : Stream} {now : Nat} {fields : List (String × String)} {e : StreamEntry} :
    e ∈ (s.add now fields).entries ↔ e ∈ s.entries ∨ e = ⟨s.nextId now, fields⟩ := by
  rw [add, List.mem_append, List.mem_singleton]

theorem Ordered.add {s : Stream} (h : s.Ordered) (now : Nat) (fields : List (String × String)) :
    (s.add now fields).Ordered := by
  have hnext := s.lastId_lt_nextId now
  constructor
  · refine List.pairwise_append.mpr ⟨h.entries, List.pairwise_singleton _ _, ?_⟩
    intro e he e' he'
    obtain rfl := List.mem_singleton.mp he'
    exact (h.last e he).trans_lt hnext
  · intro e he
    rcases mem_add.mp he with hold | rfl
    · exact ((h.last e hold).trans_lt hnext).le
    · exact le_refl _

theorem Ordered.setGroup {s : Stream} (h : s.Ordered) (name : String) (g : ConsumerGroup) :
    (s.setGroup name g).Ordered :=
  ⟨h.entries, h.last⟩

/-- An id names one entry. -/
theorem Ordered.id_inj {s : Stream} (h : s.Ordered) {e e' : StreamEntry} (he : e ∈ s.entries)
    (he' : e' ∈ s.entries) (hid : e.id = e'.id) : e = e' := by
  have hnodup : (s.entries.map StreamEntry.id).Nodup := by
    rw [List.Nodup, List.pairwise_map]
    exact h.entries.imp fun hlt => Nat.ne_of_lt hlt
  exact List.inj_on_of_nodup_map hnodup he he' hid

end Stream

-- ---------------------------------------------------------------------------
-- What a delivery does
-- ---------------------------------------------------------------------------

/-- The first entries beyond a bound, in order: every other entry beyond the bound
is beyond all of them. -/
theorem take_beyond {entries : List StreamEntry}
    (hsorted : entries.Pairwise fun e e' => e.id < e'.id) (count : Nat) {e : StreamEntry}
    (he : e ∈ entries) : e ∈ entries.take count ∨ ∀ e' ∈ entries.take count, e'.id < e.id := by
  rw [← List.take_append_drop count entries, List.mem_append] at he
  rw [← List.take_append_drop count entries, List.pairwise_append] at hsorted
  exact he.imp id fun hdrop e' he' => hsorted.2.2 e' he' e hdrop

namespace ConsumerGroup

variable {g : ConsumerGroup} {s : Stream}

theorem mem_undelivered {e : StreamEntry} :
    e ∈ g.undelivered s ↔ e ∈ s.entries ∧ g.lastDelivered < e.id := by
  rw [undelivered, List.mem_filter, decide_eq_true_eq]

/-- The entries a group delivers next. -/
theorem mem_take_undelivered {count : Nat} {e : StreamEntry}
    (he : e ∈ (g.undelivered s).take count) : e ∈ s.entries ∧ g.lastDelivered < e.id :=
  mem_undelivered.mp (List.mem_of_mem_take he)

@[simp] theorem lastDelivered_deliver (consumer : String) (now : Nat) (e : StreamEntry) :
    (g.deliver consumer now [e]).lastDelivered = e.id := rfl

/-- What is added to a stream that was delivered to its end is delivered next. -/
theorem undelivered_add (hs : s.Ordered) (hend : g.lastDelivered = s.lastId) (now : Nat)
    (fields : List (String × String)) :
    g.undelivered (s.add now fields) = [⟨s.nextId now, fields⟩] := by
  have hold : s.entries.filter (fun e => decide (g.lastDelivered < e.id)) = [] := by
    refine List.filter_eq_nil_iff.mpr fun e he hlt => ?_
    have hle := hs.last e he
    have hlt := of_decide_eq_true hlt
    omega
  have hnew : decide (g.lastDelivered < s.nextId now) = true := by
    rw [hend]
    exact decide_eq_true (s.lastId_lt_nextId now)
  rw [undelivered, Stream.add, List.filter_append, hold, List.nil_append,
    List.filter_singleton, hnew]
  rfl

/-- The group keeps to its stream: nothing is pending that was not delivered, and
nothing twice. -/
structure Within (g : ConsumerGroup) (s : Stream) : Prop where
  delivered : g.lastDelivered ≤ s.lastId
  pending : ∀ p ∈ g.pending, p.id ≤ g.lastDelivered
  nodup : (g.pending.map PendingEntry.id).Nodup
  entries : ∀ p ∈ g.pending, ∃ e ∈ s.entries, e.id = p.id

theorem within_new (id : Nat) (hid : id ≤ s.lastId) : Within ⟨id, []⟩ s where
  delivered := hid
  pending _ h := absurd h List.not_mem_nil
  nodup := List.nodup_nil
  entries _ h := absurd h List.not_mem_nil

/-- The cursor never moves back over what is delivered. -/
theorem le_deliver (hs : s.Ordered) (consumer : String) (now count : Nat) :
    g.lastDelivered ≤ (g.deliver consumer now ((g.undelivered s).take count)).lastDelivered ∧
    ∀ e ∈ (g.undelivered s).take count,
      e.id ≤ (g.deliver consumer now ((g.undelivered s).take count)).lastDelivered := by
  set new := (g.undelivered s).take count with hnew
  cases hlast : new.getLast? with
  | none =>
    have hnil : new = [] := List.getLast?_eq_none_iff.mp hlast
    constructor
    · show g.lastDelivered ≤ (new.getLast?.map StreamEntry.id).getD g.lastDelivered
      rw [hlast]
      exact le_refl _
    · rw [hnil]
      exact fun e he => absurd he List.not_mem_nil
  | some last =>
    have hcursor : (g.deliver consumer now new).lastDelivered = last.id := by
      show (new.getLast?.map StreamEntry.id).getD g.lastDelivered = last.id
      rw [hlast]
      rfl
    have hmem : last ∈ new := List.mem_of_getLast? hlast
    rw [hcursor]
    refine ⟨(mem_take_undelivered hmem).2.le, fun e he => ?_⟩
    -- the batch is sorted, so its last id is its greatest
    have hsorted : new.Pairwise fun e e' => e.id < e'.id :=
      (hs.entries.sublist List.filter_sublist).sublist (List.take_sublist _ _)
    obtain ⟨init, hinit⟩ := List.getLast?_eq_some_iff.mp hlast
    rw [hinit, List.pairwise_append] at hsorted
    rw [hinit, List.mem_append, List.mem_singleton] at he
    rcases he with he | rfl
    · exact (hsorted.2.2 e he last (List.mem_singleton_self last)).le
    · exact le_refl _

/-- Every id the group has delivered so far is behind every entry of the next
batch. -/
theorem Within.deliver (h : g.Within s) (hs : s.Ordered) (consumer : String) (now count : Nat) :
    (g.deliver consumer now ((g.undelivered s).take count)).Within s := by
  obtain ⟨hmono, hcover⟩ := le_deliver (g := g) hs consumer now count
  have hnewmem := fun e (he : e ∈ (g.undelivered s).take count) => mem_take_undelivered he
  refine ⟨?_, ?_, ?_, ?_⟩
  · show (((g.undelivered s).take count).getLast?.map StreamEntry.id).getD g.lastDelivered ≤
      s.lastId
    cases hlast : ((g.undelivered s).take count).getLast? with
    | none => exact h.delivered
    | some last => exact hs.last last (hnewmem last (List.mem_of_getLast? hlast)).1
  · intro p hp
    rcases List.mem_append.mp hp with hold | hnew
    · exact (h.pending p hold).trans hmono
    · obtain ⟨e, he, rfl⟩ := List.mem_map.mp hnew
      exact hcover e he
  · have hsorted : ((g.undelivered s).take count).Pairwise fun e e' => e.id < e'.id :=
      (hs.entries.sublist List.filter_sublist).sublist (List.take_sublist _ _)
    show ((g.pending ++ ((g.undelivered s).take count).map _).map PendingEntry.id).Nodup
    rw [List.map_append, List.map_map, List.nodup_append]
    refine ⟨h.nodup, ?_, ?_⟩
    · rw [List.Nodup, List.pairwise_map]
      exact hsorted.imp fun hlt => Nat.ne_of_lt hlt
    · intro id hid id' hid' heq
      obtain ⟨p, hp, rfl⟩ := List.mem_map.mp hid
      obtain ⟨e, he, rfl⟩ := List.mem_map.mp hid'
      have hle := h.pending p hp
      have hlt := (hnewmem e he).2
      have heq' : p.id = e.id := heq
      omega
  · intro p hp
    rcases List.mem_append.mp hp with hold | hnew
    · exact h.entries p hold
    · obtain ⟨e, he, rfl⟩ := List.mem_map.mp hnew
      exact ⟨e, (hnewmem e he).1, rfl⟩

theorem Within.ack (h : g.Within s) (ids : List Nat) : (g.ack ids).Within s where
  delivered := h.delivered
  pending p hp := h.pending p (List.mem_of_mem_filter hp)
  nodup := h.nodup.sublist (List.filter_sublist.map _)
  entries p hp := h.entries p (List.mem_of_mem_filter hp)

theorem Within.add (h : g.Within s) (now : Nat) (fields : List (String × String)) :
    g.Within (s.add now fields) where
  delivered := h.delivered.trans (s.lastId_lt_nextId now).le
  pending := h.pending
  nodup := h.nodup
  entries p hp := by
    obtain ⟨e, he, hid⟩ := h.entries p hp
    exact ⟨e, Stream.mem_add.mpr (.inl he), hid⟩

/-- Groups do not belong to the entries. -/
theorem Within.setGroup (h : g.Within s) (name : String) (g' : ConsumerGroup) :
    g.Within (s.setGroup name g') :=
  ⟨h.delivered, h.pending, h.nodup, h.entries⟩

/-- The group can still deliver the entry, or has it pending. -/
def Reaches (g : ConsumerGroup) (id : Nat) : Prop :=
  g.lastDelivered < id ∨ ∃ p ∈ g.pending, p.id = id

/-- **Delivery keeps exactly the entries within reach that were.** -/
theorem deliver_reaches (hs : s.Ordered) (consumer : String) (now count : Nat) {e : StreamEntry}
    (he : e ∈ s.entries) :
    (g.deliver consumer now ((g.undelivered s).take count)).Reaches e.id ↔ g.Reaches e.id := by
  constructor
  · rintro (hbeyond | ⟨p, hp, hid⟩)
    · exact .inl ((le_deliver hs consumer now count).1.trans_lt hbeyond)
    · rcases List.mem_append.mp hp with hold | hnew
      · exact .inr ⟨p, hold, hid⟩
      · obtain ⟨e', he', rfl⟩ := List.mem_map.mp hnew
        have hlt := (mem_take_undelivered he').2
        exact .inl (hid ▸ hlt)
  · rintro (hbeyond | ⟨p, hp, hid⟩)
    · have hund : e ∈ g.undelivered s := mem_undelivered.mpr ⟨he, hbeyond⟩
      rcases take_beyond (hs.entries.sublist List.filter_sublist) count hund with hmem | hlater
      · exact .inr ⟨_, List.mem_append_right _ (List.mem_map.mpr ⟨e, hmem, rfl⟩), rfl⟩
      · left
        show (((g.undelivered s).take count).getLast?.map StreamEntry.id).getD g.lastDelivered <
          e.id
        cases hlast : ((g.undelivered s).take count).getLast? with
        | none => exact hbeyond
        | some last => exact hlater last (List.mem_of_getLast? hlast)
    · exact .inr ⟨p, List.mem_append_left _ hp, hid⟩

/-- An acknowledgement gives up the acknowledged id only. -/
theorem ack_reaches {id id' : Nat} :
    (g.ack [id']).Reaches id ∨ (id = id' ∧ ∃ p ∈ g.pending, p.id = id') ↔ g.Reaches id := by
  have hmem : ∀ p, p ∈ (g.ack [id']).pending ↔ p ∈ g.pending ∧ p.id ≠ id' := by
    intro p
    show p ∈ g.pending.filter (fun p => p.id ∉ [id']) ↔ _
    rw [List.mem_filter, decide_eq_true_eq, List.mem_singleton]
  constructor
  · rintro ((hbeyond | ⟨p, hp, hid⟩) | ⟨rfl, hpending⟩)
    · exact .inl hbeyond
    · exact .inr ⟨p, ((hmem p).mp hp).1, hid⟩
    · exact .inr hpending
  · rintro (hbeyond | ⟨p, hp, rfl⟩)
    · exact .inl (.inl hbeyond)
    · by_cases hid : p.id = id'
      · exact .inr ⟨hid, p, hp, hid⟩
      · exact .inl (.inr ⟨p, (hmem p).mpr ⟨hp, hid⟩, rfl⟩)

/-- Pending entries of the same ids and the same cursor: the group reaches the
same. -/
structure SameIds (g g' : ConsumerGroup) : Prop where
  cursor : g'.lastDelivered = g.lastDelivered
  ids : g'.pending.map PendingEntry.id = g.pending.map PendingEntry.id

theorem exists_pending {id : Nat} :
    (∃ p ∈ g.pending, p.id = id) ↔ id ∈ g.pending.map PendingEntry.id := by
  rw [List.mem_map]

theorem SameIds.within {g' : ConsumerGroup} (h : SameIds g g') (hwithin : g.Within s) :
    g'.Within s := by
  have hback : ∀ p ∈ g'.pending, ∃ q ∈ g.pending, q.id = p.id := by
    intro p hp
    rw [exists_pending, ← h.ids]
    exact List.mem_map_of_mem hp
  refine ⟨h.cursor ▸ hwithin.delivered, ?_, h.ids ▸ hwithin.nodup, ?_⟩
  · intro p hp
    obtain ⟨q, hq, hid⟩ := hback p hp
    rw [h.cursor, ← hid]
    exact hwithin.pending q hq
  · intro p hp
    obtain ⟨q, hq, hid⟩ := hback p hp
    rw [← hid]
    exact hwithin.entries q hq

theorem SameIds.reaches {g' : ConsumerGroup} (h : SameIds g g') {id : Nat} :
    g'.Reaches id ↔ g.Reaches id := by
  rw [Reaches, Reaches, exists_pending, exists_pending, h.ids, h.cursor]

theorem SameIds.trans {g₁ g₂ : ConsumerGroup} (h : SameIds g g₁) (h' : SameIds g₁ g₂) :
    SameIds g g₂ :=
  ⟨h'.cursor.trans h.cursor, h'.ids.trans h.ids⟩

/-- What an `XCLAIM` does on a group that keeps to its stream. -/
structure Claimed (s : Stream) (now minIdle : Nat) (ids : List Nat) (g g' : ConsumerGroup)
    (claimed : List StreamEntry) : Prop where
  sameIds : SameIds g g'
  ids : (claimed.map StreamEntry.id).Sublist ids
  entries : ∀ e ∈ claimed, e ∈ s.entries
  idle : ∀ e ∈ claimed, ∃ p ∈ g.pending, p.id = e.id ∧ minIdle ≤ now - p.deliveredAt

/-- One id that is taken over: its line is written anew, and only that one. -/
structure TakesOver (s : Stream) (now minIdle id : Nat) (g g' : ConsumerGroup) (e : StreamEntry) :
    Prop where
  sameIds : SameIds g g'
  entry : e ∈ s.entries ∧ e.id = id
  idle : ∃ p ∈ g.pending, p.id = id ∧ minIdle ≤ now - p.deliveredAt
  other : ∀ p ∈ g'.pending, p.id ≠ id → p ∈ g.pending

theorem claimOne_cases (consumer : String) (now minIdle id : Nat)
    (hentries : ∀ p ∈ g.pending, ∃ e ∈ s.entries, e.id = p.id) (acc : List StreamEntry) :
    claimOne s consumer now minIdle (g, acc) id = (g, acc) ∨
      ∃ g' e, TakesOver s now minIdle id g g' e ∧
        claimOne s consumer now minIdle (g, acc) id = (g', acc ++ [e]) := by
  unfold claimOne
  cases hfind : g.pending.find? fun p => p.id = id with
  | none => exact .inl rfl
  | some p =>
    have hp : p ∈ g.pending := List.mem_of_find?_eq_some hfind
    have hid : p.id = id := by simpa using List.find?_some hfind
    by_cases hidle : now - p.deliveredAt < minIdle
    · exact .inl (if_pos hidle)
    · right
      dsimp only
      rw [if_neg hidle]
      cases hentry : s.entries.find? fun e => e.id = id with
      | none =>
        obtain ⟨e, he, heid⟩ := hentries p hp
        exact absurd (decide_eq_true (heid.trans hid)) (List.find?_eq_none.mp hentry e he)
      | some e =>
        have heid : e.id = id := by simpa using List.find?_some hentry
        refine ⟨{ g with pending := g.pending.map fun q =>
            if q.id = id then ⟨id, consumer, now, q.deliveryCount + 1⟩ else q }, e,
          ⟨⟨rfl, ?_⟩, ⟨List.mem_of_find?_eq_some hentry, heid⟩,
          ⟨p, hp, hid, not_lt.mp hidle⟩, ?_⟩, rfl⟩
        · show (g.pending.map _).map PendingEntry.id = _
          rw [List.map_map]
          refine List.map_congr_left fun q hq => ?_
          by_cases hq : q.id = id <;> simp [hq]
        · intro q hq hne
          obtain ⟨q₀, hq₀, rfl⟩ := List.mem_map.mp hq
          by_cases hid : q₀.id = id
          · rw [if_pos hid] at hne
            exact absurd rfl hne
          · rw [if_neg hid]
            exact hq₀

theorem foldl_claimOne (consumer : String) (now minIdle : Nat) {ids : List Nat}
    (hentries : ∀ p ∈ g.pending, ∃ e ∈ s.entries, e.id = p.id) (hids : ids.Nodup)
    (acc : List StreamEntry) : ∃ g' claimed, Claimed s now minIdle ids g g' claimed ∧
      ids.foldl (claimOne s consumer now minIdle) (g, acc) = (g', acc ++ claimed) := by
  induction ids generalizing g acc with
  | nil =>
    refine ⟨g, [], ⟨⟨rfl, rfl⟩, List.nil_sublist _, ?_, ?_⟩, ?_⟩
    · exact fun e he => absurd he List.not_mem_nil
    · exact fun e he => absurd he List.not_mem_nil
    · rw [List.append_nil]
      rfl
  | cons id ids ih =>
    obtain ⟨hfresh, hrest⟩ := List.nodup_cons.mp hids
    rcases claimOne_cases consumer now minIdle id hentries acc with hskip | ⟨g₁, e, htakes, hone⟩
    · obtain ⟨g', claimed, hclaimed, hfold⟩ := ih hentries hrest acc
      refine ⟨g', claimed, ⟨hclaimed.sameIds, hclaimed.ids.cons id, hclaimed.entries,
        hclaimed.idle⟩, ?_⟩
      rw [List.foldl_cons, hskip, hfold]
    · have hentries₁ : ∀ q ∈ g₁.pending, ∃ e ∈ s.entries, e.id = q.id := by
        intro q hq
        obtain ⟨q₀, hq₀, hid⟩ := exists_pending.mpr (htakes.sameIds.ids ▸ List.mem_map_of_mem hq)
        rw [← hid]
        exact hentries q₀ hq₀
      obtain ⟨g', claimed, hclaimed, hfold⟩ := ih hentries₁ hrest (acc ++ [e])
      refine ⟨g', e :: claimed, ⟨htakes.sameIds.trans hclaimed.sameIds, ?_, ?_, ?_⟩, ?_⟩
      · rw [List.map_cons, htakes.entry.2]
        exact hclaimed.ids.cons_cons id
      · intro e' he'
        rcases List.mem_cons.mp he' with rfl | hrest'
        · exact htakes.entry.1
        · exact hclaimed.entries e' hrest'
      · intro e' he'
        rcases List.mem_cons.mp he' with rfl | hrest'
        · rw [htakes.entry.2]
          exact htakes.idle
        · -- a later id is another one, so its line is the old one
          obtain ⟨q, hq, hid, hidle⟩ := hclaimed.idle e' hrest'
          have hlater : e'.id ∈ ids := hclaimed.ids.subset (List.mem_map_of_mem hrest')
          exact ⟨q, htakes.other q hq (fun heq => hfresh (heq ▸ hid ▸ hlater)), hid, hidle⟩
      · rw [List.foldl_cons, hone, hfold, List.append_assoc, List.singleton_append]

/-- The entry that an `XCLAIM` of an id returns. -/
def taken (s : Stream) (now minIdle : Nat) (g : ConsumerGroup) (id : Nat) : Option StreamEntry :=
  (g.pending.find? fun p => p.id = id).bind fun p =>
    if now - p.deliveredAt < minIdle then none else s.entries.find? fun e => e.id = id

/-- The line of an id is found where it was as long as only others are removed. -/
theorem find?_ack {id id' : Nat} (hne : id' ≠ id) :
    ((g.ack [id]).pending.find? fun p => p.id = id') = g.pending.find? fun p => p.id = id' := by
  show (g.pending.filter _).find? _ = _
  rw [List.find?_filter]
  congr 1
  funext q
  by_cases hq : q.id = id'
  · simp [hq, hne]
  · simp [hq]

theorem find?_claimed {pending : List PendingEntry} {id id' : Nat} (hne : id' ≠ id)
    (consumer : String) (now : Nat) :
    ((pending.map fun p => if p.id = id then ⟨id, consumer, now, p.deliveryCount + 1⟩ else p).find?
      fun p => p.id = id') = pending.find? fun p => p.id = id' := by
  induction pending with
  | nil => rfl
  | cons p rest ih =>
    rw [List.map_cons, List.find?_cons, List.find?_cons, ih]
    by_cases hp : p.id = id
    · simp [hp, hne.symm]
    · simp [hp]

/-- One id brings what it takes, and leaves the lines of the others alone. -/
theorem claimOne_taken (s : Stream) (consumer : String) (now minIdle : Nat) (g : ConsumerGroup)
    (acc : List StreamEntry) (id : Nat) :
    ∃ g', claimOne s consumer now minIdle (g, acc) id =
        (g', acc ++ (taken s now minIdle g id).toList) ∧
      ∀ id', id' ≠ id → (g'.pending.find? fun p => p.id = id') =
        g.pending.find? fun p => p.id = id' := by
  unfold claimOne taken
  cases hfind : g.pending.find? fun p => p.id = id with
  | none => exact ⟨g, by simp, fun _ _ => rfl⟩
  | some p =>
    dsimp only [Option.bind_some]
    by_cases hidle : now - p.deliveredAt < minIdle
    · rw [if_pos hidle, if_pos hidle]
      exact ⟨g, by simp, fun _ _ => rfl⟩
    · rw [if_neg hidle, if_neg hidle]
      cases hentry : s.entries.find? fun e => e.id = id with
      | none => exact ⟨g.ack [id], by simp, fun id' hne => find?_ack hne⟩
      | some e => exact ⟨_, rfl, fun id' hne => find?_claimed hne consumer now⟩

/-- **XCLAIM of several ids** returns what each of them takes. -/
theorem foldl_claimOne_taken (s : Stream) (consumer : String) (now minIdle : Nat)
    (g : ConsumerGroup) {ids : List Nat} (hids : ids.Nodup) (acc : List StreamEntry) :
    (ids.foldl (claimOne s consumer now minIdle) (g, acc)).2 =
      acc ++ ids.filterMap (taken s now minIdle g) := by
  induction ids generalizing g acc with
  | nil =>
    rw [List.filterMap_nil, List.append_nil]
    rfl
  | cons id ids ih =>
    obtain ⟨hfresh, hrest⟩ := List.nodup_cons.mp hids
    obtain ⟨g', hone, hlines⟩ := claimOne_taken s consumer now minIdle g acc id
    -- the later ids are other ones, so they take what they did
    have hsame : ids.filterMap (taken s now minIdle g') = ids.filterMap (taken s now minIdle g) := by
      refine List.filterMap_congr fun id' hid' => ?_
      have hne : id' ≠ id := fun heq => hfresh (heq ▸ hid')
      rw [taken, taken, hlines id' hne]
    rw [List.foldl_cons, hone, ih g' hrest, hsame, List.append_assoc, List.filterMap_cons]
    cases taken s now minIdle g id with
    | none => rfl
    | some e => rfl

end ConsumerGroup

-- ---------------------------------------------------------------------------
-- The commands on a stream
-- ---------------------------------------------------------------------------

/-- The key is free, or holds a stream without a deadline. -/
def Redis.HoldsStream (r : Redis) (key : String) (s : Stream) : Prop :=
  (r.keys key = none ∧ s = .empty) ∨ r.keys key = some ⟨.stream s, none⟩

section HoldsStream

variable {r : Redis} {key : String} {s : Stream} {group : String}

theorem Redis.HoldsStream.isStream (h : r.HoldsStream key s) : r.IsStream key := by
  rcases h with ⟨hnone, -⟩ | hsome
  · exact Redis.isStream_of_none hnone
  · rw [Redis.IsStream, Redis.streamAt, hsome]
    rfl

theorem Redis.HoldsStream.streamAt (h : r.HoldsStream key s) : r.streamAt key = s := by
  rcases h with ⟨hnone, rfl⟩ | hsome
  · exact Redis.streamAt_of_none hnone
  · rw [Redis.streamAt, hsome]
    rfl

theorem Redis.HoldsStream.asStream (h : r.HoldsStream key s) :
    Slot.asStream (r.keys key) = .ok s := by
  rw [h.isStream, h.streamAt]

theorem Redis.HoldsStream.ttlOf (h : r.HoldsStream key s) : Slot.ttlOf (r.keys key) = none := by
  rcases h with ⟨hnone, -⟩ | hsome
  · rw [hnone]
    rfl
  · rw [hsome]
    rfl

theorem Redis.holdsStream_put (r : Redis) (key : String) (s : Stream) :
    (r.put key (some ⟨.stream s, none⟩)).HoldsStream key s :=
  .inr (Redis.keys_put_self r key _)

/-- A stream without a deadline stays. -/
theorem Redis.HoldsStream.advance (h : r.HoldsStream key s) (ms : Nat) :
    (r.advance ms).HoldsStream key s := by
  rcases h with ⟨hnone, hempty⟩ | hsome
  · left
    refine ⟨?_, hempty⟩
    show (r.keys key).filter _ = none
    rw [hnone]
    rfl
  · right
    show (r.keys key).filter _ = _
    rw [hsome]
    rfl

theorem xadd_stream (h : r.HoldsStream key s) (fields : List (String × String)) :
    (xadd key fields r).1 = .ok (s.nextId r.now) ∧
      (xadd key fields r).2.HoldsStream key (s.add r.now fields) := by
  rw [xadd_ok h.isStream, h.streamAt, h.ttlOf]
  exact ⟨rfl, Redis.holdsStream_put _ _ _⟩

theorem xgroupCreate_stream (h : r.HoldsStream key s) (start : StartId)
    (hnone : s.group? group = none) :
    (xgroupCreate key group start r).1 = .ok () ∧
      (xgroupCreate key group start r).2.HoldsStream key
        (s.setGroup group ⟨start.resolve s, []⟩) := by
  have hrun : xgroupCreate key group start r = (.ok (),
      r.put key (some ⟨.stream (s.setGroup group ⟨start.resolve s, []⟩), none⟩)) := by
    refine onKey_ok ?_
    rw [h.asStream, h.ttlOf]
    show (if (s.group? group).isSome = true then _ else _) = _
    rw [hnone]
    rfl
  rw [hrun]
  exact ⟨rfl, Redis.holdsStream_put _ _ _⟩

/-- A group that exists is left as it is. -/
theorem xgroupCreate_busy (h : r.HoldsStream key s) (start : StartId)
    {g : ConsumerGroup} (hsome : s.group? group = some g) :
    xgroupCreate key group start r = (.error .busyGroup, r) := by
  refine onKey_error ?_
  rw [h.asStream]
  show (if (s.group? group).isSome = true then _ else _) = _
  rw [hsome]
  rfl

theorem xreadgroup_stream (h : r.HoldsStream key s) (consumer : String) (count : Nat)
    {g : ConsumerGroup} (hsome : s.group? group = some g) :
    (xreadgroup group consumer key count r).1 = .ok ((g.undelivered s).take count) ∧
      (xreadgroup group consumer key count r).2.HoldsStream key
        (s.setGroup group (g.deliver consumer r.now ((g.undelivered s).take count))) := by
  have hrun : xreadgroup group consumer key count r = (.ok ((g.undelivered s).take count),
      r.put key (some ⟨.stream (s.setGroup group
        (g.deliver consumer r.now ((g.undelivered s).take count))), none⟩)) := by
    refine onKey_ok ?_
    rw [h.asStream, h.ttlOf]
    show (match s.group? group with
      | none => _
      | some g => _) = _
    rw [hsome]
    rfl
  rw [hrun]
  exact ⟨rfl, Redis.holdsStream_put _ _ _⟩

theorem xreadgroup_noGroup (h : r.HoldsStream key s) (consumer : String)
    (count : Nat) (hnone : s.group? group = none) :
    xreadgroup group consumer key count r = (.error .noGroup, r) := by
  refine onKey_error ?_
  rw [h.asStream]
  show (match s.group? group with
    | none => _
    | some g => _) = _
  rw [hnone]
  rfl

theorem xack_stream (h : r.HoldsStream key s) (id : Nat)
    {g : ConsumerGroup} (hsome : s.group? group = some g) :
    (xack key group id r).1 = .ok (g.pending.countP fun p => p.id = id) ∧
      (xack key group id r).2.HoldsStream key (s.setGroup group (g.ack [id])) := by
  have hrun : xack key group id r = (.ok (g.pending.countP fun p => p.id = id),
      r.put key (some ⟨.stream (s.setGroup group (g.ack [id])), none⟩)) := by
    refine onKey_ok ?_
    rw [h.asStream, h.ttlOf]
    show (match s.group? group with
      | none => _
      | some g => _) = _
    rw [hsome]
    rfl
  rw [hrun]
  exact ⟨rfl, Redis.holdsStream_put _ _ _⟩

theorem xack_noGroup (h : r.HoldsStream key s) (id : Nat)
    (hnone : s.group? group = none) : xack key group id r = (.ok 0, r) := by
  have hrun : xack key group id r = (.ok 0, r.put key (r.keys key)) := by
    refine onKey_ok ?_
    rw [h.asStream]
    show (match s.group? group with
      | none => _
      | some g => _) = _
    rw [hnone]
    rfl
  rw [hrun, Redis.put, Function.update_eq_self]

theorem xpending_stream (h : r.HoldsStream key s) (count : Nat)
    {g : ConsumerGroup} (hsome : s.group? group = some g) :
    xpending key group count r = (.ok ((g.pending.take count).map fun p =>
      ⟨p.id, p.consumer, r.now - p.deliveredAt, p.deliveryCount⟩), r) := by
  have hrun : xpending key group count r = (.ok ((g.pending.take count).map fun p =>
      ⟨p.id, p.consumer, r.now - p.deliveredAt, p.deliveryCount⟩), r.put key (r.keys key)) := by
    refine onKey_ok ?_
    rw [h.asStream]
    show (match s.group? group with
      | none => _
      | some g => _) = _
    rw [hsome]
    rfl
  rw [hrun, Redis.put, Function.update_eq_self]

theorem xpending_noGroup (h : r.HoldsStream key s) (count : Nat)
    (hnone : s.group? group = none) : xpending key group count r = (.error .noGroup, r) := by
  refine onKey_error ?_
  rw [h.asStream]
  show (match s.group? group with
    | none => _
    | some g => _) = _
  rw [hnone]
  rfl

theorem xclaim_stream (h : r.HoldsStream key s) (consumer : String) (minIdle : Nat)
    {ids : List Nat} (hids : ids.Nodup) {g : ConsumerGroup} (hsome : s.group? group = some g)
    (hwithin : g.Within s) : ∃ g' claimed, ConsumerGroup.Claimed s r.now minIdle ids g g' claimed ∧
      (xclaim key group consumer minIdle ids r).1 = .ok claimed ∧
      (xclaim key group consumer minIdle ids r).2.HoldsStream key (s.setGroup group g') := by
  obtain ⟨g', claimed, hclaimed, hfold⟩ :=
    ConsumerGroup.foldl_claimOne consumer r.now minIdle hwithin.entries hids []
  have hrun : xclaim key group consumer minIdle ids r = (.ok claimed,
      r.put key (some ⟨.stream (s.setGroup group g'), none⟩)) := by
    refine onKey_ok ?_
    rw [h.asStream, h.ttlOf]
    show (match s.group? group with
      | none => _
      | some g => _) = _
    rw [hsome]
    dsimp only
    rw [hfold]
    rfl
  rw [hrun]
  exact ⟨g', claimed, hclaimed, rfl, Redis.holdsStream_put _ _ _⟩

/-- What XCLAIM returns, whether or not the stream still holds the pending entries. -/
theorem xclaim_reply (h : r.HoldsStream key s) (consumer : String) (minIdle : Nat)
    {ids : List Nat} (hids : ids.Nodup) {g : ConsumerGroup} (hsome : s.group? group = some g) :
    (xclaim key group consumer minIdle ids r).1 =
      .ok (ids.filterMap (g.taken s r.now minIdle)) := by
  have hrun : ∃ slot, xclaim key group consumer minIdle ids r =
      (.ok (ids.filterMap (g.taken s r.now minIdle)), r.put key slot) := by
    refine ⟨some ⟨.stream (s.setGroup group
      (ids.foldl (ConsumerGroup.claimOne s consumer r.now minIdle) (g, [])).1), none⟩, onKey_ok ?_⟩
    rw [h.asStream, h.ttlOf]
    show (match s.group? group with
      | none => _
      | some g => _) = _
    have hclaimed := ConsumerGroup.foldl_claimOne_taken s consumer r.now minIdle g hids []
    rw [List.nil_append] at hclaimed
    rw [hsome, ← hclaimed]
    rfl
  obtain ⟨slot, hrun⟩ := hrun
  rw [hrun]

theorem xclaim_noGroup (h : r.HoldsStream key s) (consumer : String) (minIdle : Nat)
    (ids : List Nat) (hnone : s.group? group = none) :
    xclaim key group consumer minIdle ids r = (.error .noGroup, r) := by
  refine onKey_error ?_
  rw [h.asStream]
  show (match s.group? group with
    | none => _
    | some g => _) = _
  rw [hnone]
  rfl

end HoldsStream

end DistTaskSystem
