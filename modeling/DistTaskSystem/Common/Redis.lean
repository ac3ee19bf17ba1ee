import DistTaskSystem.Library.TwoRuns
import Mathlib.Algebra.Group.Int.Defs
import Mathlib.Algebra.Group.Nat.Defs
import Mathlib.Data.Finset.Dedup
import Mathlib.Data.Finset.Insert
import Mathlib.Data.List.AList
import Mathlib.Logic.Function.Basic

/-!
# DTS — the Redis keyspace and the commands the program sends

A keyspace maps every key to at most one typed value and the deadline at which
it expires. Commands are state transformers that can fail (`RedisM`): a
command on a key of another type answers `WRONGTYPE` and leaves the keyspace
unchanged, while a *script* that fails keeps what it did before
(`RedisM`'s `bind` hands the state on in both cases).

Conventions:

* the fields of a hash hold 64-bit integers; only the dependency hash is
  modelled, and every value the program writes there is one;
* a stream id `ms-seq` is the number `ms * 2^64 + seq`, which is the order
  Redis uses;
* a set or a hash that becomes empty is deleted with its deadline, a stream is
  not;
* `SMEMBERS` may enumerate a set in any order: the order is a parameter
  (`MembersOrder`).
-/

namespace DistTaskSystem

/-! ## Values -/

/-- A Redis set. -/
structure RedisSet where
  members : List String
  nodup : members.Nodup

def RedisSet.empty : RedisSet := ⟨[], List.nodup_nil⟩

def RedisSet.insert (s : RedisSet) (x : String) : RedisSet :=
  if h : x ∈ s.members then s
  else ⟨s.members ++ [x], by simpa using s.nodup.concat h⟩

@[simp] theorem RedisSet.mem_insert {s : RedisSet} {x y : String} :
    y ∈ (s.insert x).members ↔ y ∈ s.members ∨ y = x := by
  unfold RedisSet.insert
  split
  · next hx =>
    exact ⟨Or.inl, fun h => h.elim id fun hyx => hyx ▸ hx⟩
  · simp

theorem RedisSet.toFinset_insert (s : RedisSet) (x : String) :
    (s.insert x).members.toFinset = Insert.insert x s.members.toFinset := by
  ext y
  simp [or_comm]

/-- A Redis hash with integer fields. -/
abbrev RedisHash := AList (fun _ : String => Int)

theorem RedisHash.lookup_insert (h : RedisHash) (field : String) (value : Int) :
    (fun t => (h.insert field value).lookup t) =
      Function.update (fun t => h.lookup t) field (some value) := by
  funext t
  by_cases ht : t = field
  · subst ht
    simp
  · rw [AList.lookup_insert_ne ht, Function.update_of_ne ht]

theorem RedisHash.lookup_erase (h : RedisHash) (field : String) :
    (fun t => (h.erase field).lookup t) =
      Function.update (fun t => h.lookup t) field none := by
  funext t
  by_cases ht : t = field
  · subst ht
    simp
  · rw [AList.lookup_erase_ne ht, Function.update_of_ne ht]

/-- One entry of a stream. -/
structure StreamEntry where
  id : Nat
  fields : List (String × String)
deriving DecidableEq, Repr

/-- An entry of a group's pending list (`XPENDING` detail). -/
structure PendingEntry where
  id : Nat
  consumer : String
  deliveredAt : Nat
  deliveryCount : Nat
deriving DecidableEq, Repr

/-- A consumer group. -/
structure ConsumerGroup where
  lastDelivered : Nat
  pending : List PendingEntry
deriving DecidableEq, Repr

structure Stream where
  entries : List StreamEntry
  lastId : Nat
  groups : List (String × ConsumerGroup)

def Stream.empty : Stream := ⟨[], 0, []⟩

inductive RedisValue where
  | str (bytes : List UInt8)
  | set (s : RedisSet)
  | hash (h : RedisHash)
  | stream (s : Stream)

/-- A key's value and its deadline in milliseconds, if it has one. -/
structure Slot where
  value : RedisValue
  expireAt : Option Nat

structure Redis where
  keys : String → Option Slot
  /-- the server's clock, in milliseconds -/
  now : Nat

/-- A server without keys. -/
def Redis.empty : Redis := ⟨fun _ => none, 0⟩

/-- The errors a command can answer. -/
inductive RedisError where
  | wrongType
  | overflow
  | noGroup
  | busyGroup
deriving DecidableEq, Repr

/-- Time passes: the clock moves on and every key whose deadline is reached is
dropped. -/
def Redis.advance (r : Redis) (ms : Nat) : Redis where
  keys k := (r.keys k).filter fun slot => slot.expireAt.all (r.now + ms < ·)
  now := r.now + ms

section Advance

variable {r : Redis} {key : String} {slot : Slot} {deadline ms : Nat}

theorem Redis.advance_keys (r : Redis) (ms : Nat) (key : String) :
    (r.advance ms).keys key =
      (r.keys key).filter fun slot => slot.expireAt.all (r.now + ms < ·) := rfl

theorem Redis.advance_none (h : r.keys key = none) (ms : Nat) :
    (r.advance ms).keys key = none := by
  rw [advance_keys, h, Option.filter_none]

theorem Redis.advance_persistent (h : r.keys key = some slot) (hslot : slot.expireAt = none)
    (ms : Nat) : (r.advance ms).keys key = some slot := by
  rw [advance_keys, h]
  exact Option.filter_some_pos (by rw [hslot]; rfl)

theorem Redis.advance_live (h : r.keys key = some slot) (hslot : slot.expireAt = some deadline)
    (hms : r.now + ms < deadline) : (r.advance ms).keys key = some slot := by
  rw [advance_keys, h]
  exact Option.filter_some_pos (by simpa [hslot] using hms)

theorem Redis.advance_due (h : r.keys key = some slot) (hslot : slot.expireAt = some deadline)
    (hms : deadline ≤ r.now + ms) : (r.advance ms).keys key = none := by
  rw [advance_keys, h]
  exact Option.filter_some_neg (by simpa [hslot] using hms)

theorem Redis.advance_gone_or_kept (r : Redis) (ms : Nat) (key : String) :
    (r.advance ms).keys key = none ∨ (r.advance ms).keys key = r.keys key := by
  rw [advance_keys]
  cases hslot : r.keys key with
  | none => exact .inl rfl
  | some slot =>
    by_cases hlive : slot.expireAt.all (r.now + ms < ·) = true
    · exact .inr (Option.filter_some_pos hlive)
    · exact .inl (Option.filter_some_neg (by simpa using hlive))

end Advance

/-! ## Commands as state transformers -/

/-- A command, or a sequence of commands that stops at the first error. -/
def RedisM (α : Type) := Redis → Except RedisError α × Redis

namespace RedisM

variable {α β : Type}

protected def pure (a : α) : RedisM α := fun r => (.ok a, r)

protected def bind (m : RedisM α) (f : α → RedisM β) : RedisM β := fun r =>
  match m r with
  | (.ok a, r') => f a r'
  | (.error e, r') => (.error e, r')

instance : Monad RedisM where
  pure := RedisM.pure
  bind := RedisM.bind

@[simp] theorem pure_apply (a : α) (r : Redis) : (pure a : RedisM α) r = (.ok a, r) := rfl

/-- A command that answered is followed by the rest of the script. -/
theorem bind_ok {m : RedisM α} {f : α → RedisM β} {r r' : Redis} {a : α}
    (h : m r = (.ok a, r')) : (m >>= f) r = f a r' := by
  show RedisM.bind m f r = _
  rw [RedisM.bind, h]

/-- A command that answered an error is the end of the script. -/
theorem bind_error {m : RedisM α} {f : α → RedisM β} {r r' : Redis} {e : RedisError}
    (h : m r = (.error e, r')) : (m >>= f) r = (.error e, r') := by
  show RedisM.bind m f r = _
  rw [RedisM.bind, h]

end RedisM

/-! ### What a sequence leaves unseen -/

section Unseen

open TwoRuns

variable {α β : Type} {R : Redis → Redis → Prop}

theorem bind_eq_andThen (m : RedisM α) (f : α → RedisM β) : (m >>= f) = andThen m f := by
  funext r
  show RedisM.bind m f r = _
  unfold RedisM.bind andThen
  rcases m r with ⟨_ | _, _⟩ <;> rfl

theorem unseen_bind {m : RedisM α} {f : α → RedisM β} (h : Unseen R m)
    (hrest : ∀ a, Unseen R (f a)) : Unseen R (m >>= f) := by
  rw [bind_eq_andThen]
  exact h.andThen hrest

theorem unseen_pure (a : α) : Unseen R (pure a : RedisM α) :=
  Unseen.answer

end Unseen

/-- Replace the slot of a key. -/
def Redis.put (r : Redis) (key : String) (slot : Option Slot) : Redis :=
  { r with keys := Function.update r.keys key slot }

/-- A command on one key: it sees the clock and the slot, and replaces the slot. -/
def onKey {α : Type} (key : String)
    (f : Nat → Option Slot → Except RedisError (α × Option Slot)) : RedisM α := fun r =>
  match f r.now (r.keys key) with
  | .ok (a, slot) => (.ok a, r.put key slot)
  | .error e => (.error e, r)

/-- A command touches only its key. -/
theorem onKey_frame {α : Type} {key k : String}
    {f : Nat → Option Slot → Except RedisError (α × Option Slot)} (hk : k ≠ key) (r : Redis) :
    (onKey key f r).2.keys k = r.keys k := by
  unfold onKey
  split
  · exact Function.update_of_ne hk _ _
  · rfl

theorem onKey_ok {α : Type} {key : String}
    {f : Nat → Option Slot → Except RedisError (α × Option Slot)} {r : Redis} {a : α}
    {slot : Option Slot} (h : f r.now (r.keys key) = .ok (a, slot)) :
    onKey key f r = (.ok a, r.put key slot) := by
  rw [onKey, h]

theorem onKey_error {α : Type} {key : String}
    {f : Nat → Option Slot → Except RedisError (α × Option Slot)} {r : Redis} {e : RedisError}
    (h : f r.now (r.keys key) = .error e) : onKey key f r = (.error e, r) := by
  rw [onKey, h]

/-- The reply of a command is one of the function. -/
theorem onKey_reply {α : Type} {key : String}
    {f : Nat → Option Slot → Except RedisError (α × Option Slot)} {r : Redis} {a : α}
    (h : (onKey key f r).1 = .ok a) : ∃ slot, f r.now (r.keys key) = .ok (a, slot) := by
  unfold onKey at h
  split at h
  · next slot hf =>
    obtain rfl := Except.ok.inj h
    exact ⟨slot, hf⟩
  · exact nomatch h

/-- A command takes no time. -/
theorem onKey_now {α : Type} (key : String)
    (f : Nat → Option Slot → Except RedisError (α × Option Slot)) (r : Redis) :
    (onKey key f r).2.now = r.now := by
  unfold onKey
  split <;> rfl

/-! ### Typed access to a slot -/

/-- The same value with a deadline. -/
def Slot.withDeadline (deadline : Nat) (slot : Slot) : Slot :=
  { slot with expireAt := some deadline }

def Slot.ttlOf (slot : Option Slot) : Option Nat := slot.bind Slot.expireAt

def Slot.asSet : Option Slot → Except RedisError RedisSet
  | none => .ok .empty
  | some ⟨.set s, _⟩ => .ok s
  | some _ => .error .wrongType

def Slot.asHash : Option Slot → Except RedisError RedisHash
  | none => .ok ∅
  | some ⟨.hash h, _⟩ => .ok h
  | some _ => .error .wrongType

def Slot.asStream : Option Slot → Except RedisError Stream
  | none => .ok .empty
  | some ⟨.stream s, _⟩ => .ok s
  | some _ => .error .wrongType

/-- A hash is stored as long as it has a field. -/
def Slot.ofHash (h : RedisHash) (ttl : Option Nat) : Option Slot :=
  if h.entries = [] then none else some ⟨.hash h, ttl⟩

/-! ### Sets, hashes, strings and keys -/

/-- The order in which `SMEMBERS` enumerates a set. -/
structure MembersOrder where
  order : List String → List String
  perm : ∀ l, (order l).Perm l

/-- Insertion order. -/
def MembersOrder.insertion : MembersOrder := ⟨id, fun l => List.Perm.refl l⟩

/-- `SADD key member`. -/
def sadd (key member : String) : RedisM Unit := onKey key fun _ slot => do
  let s ← Slot.asSet slot
  return ((), some ⟨.set (s.insert member), Slot.ttlOf slot⟩)

/-- `SMEMBERS key`. -/
def smembers (ord : MembersOrder) (key : String) : RedisM (List String) :=
  onKey key fun _ slot => do
    let s ← Slot.asSet slot
    return (ord.order s.members, slot)

/-- `HSET key field value`. -/
def hset (key field : String) (value : Int) : RedisM Unit := onKey key fun _ slot => do
  let h ← Slot.asHash slot
  return ((), some ⟨.hash (h.insert field value), Slot.ttlOf slot⟩)

/-- The range of a signed 64-bit integer. -/
def inInt64 (v : Int) : Bool := decide (-2 ^ 63 ≤ v ∧ v < 2 ^ 63)

/-- `HINCRBY key field delta`: a missing field counts as zero. -/
def hincrby (key field : String) (delta : Int) : RedisM Int := onKey key fun _ slot => do
  let h ← Slot.asHash slot
  let v := (h.lookup field).getD 0 + delta
  if inInt64 v then return (v, some ⟨.hash (h.insert field v), Slot.ttlOf slot⟩)
  else throw .overflow

/-- `HDEL key field`. -/
def hdel (key field : String) : RedisM Unit := onKey key fun _ slot => do
  let h ← Slot.asHash slot
  return ((), Slot.ofHash (h.erase field) (Slot.ttlOf slot))

/-- `SET key bytes EX ttl`. -/
def setEx (key : String) (bytes : List UInt8) (ttl : Nat) : RedisM Unit :=
  onKey key fun now _ => return ((), some ⟨.str bytes, some (now + ttl)⟩)

/-- `GET key`. -/
def getStr (key : String) : RedisM (Option (List UInt8)) := onKey key fun _ slot =>
  match slot with
  | none => return (none, none)
  | some ⟨.str bytes, ttl⟩ => return (some bytes, some ⟨.str bytes, ttl⟩)
  | some _ => throw .wrongType

theorem getStr_congr {key : String} {r r' : Redis} (h : r'.keys key = r.keys key) :
    (getStr key r').1 = (getStr key r).1 := by
  unfold getStr onKey
  rw [h]
  rcases r.keys key with _ | ⟨_ | _ | _ | _, _⟩ <;> rfl

theorem getStr_str {key : String} {r : Redis} {bytes : List UInt8} {ttl : Option Nat}
    (h : r.keys key = some ⟨.str bytes, ttl⟩) : (getStr key r).1 = .ok (some bytes) := by
  unfold getStr onKey
  rw [h]
  rfl

/-- `EXISTS key`. -/
def existsKey (key : String) : RedisM Bool :=
  onKey key fun _ slot => return (slot.isSome, slot)

/-- `DEL key`. -/
def delKey (key : String) : RedisM Unit :=
  onKey key fun _ _ => return ((), none)

/-- `EXPIRE key ttl`. -/
def expireKey (key : String) (ttl : Nat) : RedisM Unit :=
  onKey key fun now slot => return ((), slot.map (Slot.withDeadline (now + ttl)))

/-! ### Streams -/

/-- The id `*` stands for: the clock, or the next sequence number. -/
def Stream.nextId (s : Stream) (now : Nat) : Nat := max (now * 2 ^ 64) (s.lastId + 1)

/-- The stream with one more entry. -/
def Stream.add (s : Stream) (now : Nat) (fields : List (String × String)) : Stream :=
  { s with entries := s.entries ++ [⟨s.nextId now, fields⟩], lastId := s.nextId now }

/-- `XADD key * field value ...`. -/
def xadd (key : String) (fields : List (String × String)) : RedisM Nat :=
  onKey key fun now slot => do
    let s ← Slot.asStream slot
    return (s.nextId now, some ⟨.stream (s.add now fields), Slot.ttlOf slot⟩)

/-! ## Reading a keyspace -/

namespace Redis

/-- The set at a key, empty if there is none. -/
def setAt (r : Redis) (key : String) : RedisSet := (Slot.asSet (r.keys key)).toOption.getD .empty

/-- The hash at a key, empty if there is none. -/
def hashAt (r : Redis) (key : String) : RedisHash := (Slot.asHash (r.keys key)).toOption.getD ∅

/-- The stream at a key, empty if there is none. -/
def streamAt (r : Redis) (key : String) : Stream :=
  (Slot.asStream (r.keys key)).toOption.getD .empty

/-- Whether a key exists. -/
def has (r : Redis) (key : String) : Bool := (r.keys key).isSome

/-- The key is free or holds a set. -/
def IsSet (r : Redis) (key : String) : Prop := Slot.asSet (r.keys key) = .ok (r.setAt key)

/-- The key is free or holds a hash. -/
def IsHash (r : Redis) (key : String) : Prop := Slot.asHash (r.keys key) = .ok (r.hashAt key)

/-- The key is free or holds a stream. -/
def IsStream (r : Redis) (key : String) : Prop :=
  Slot.asStream (r.keys key) = .ok (r.streamAt key)

/-! What is read at a key depends on its slot only. -/

section Congr

variable {r r' : Redis} {key : String}

theorem setAt_congr (h : r.keys key = r'.keys key) : r.setAt key = r'.setAt key := by
  rw [setAt, setAt, h]

theorem hashAt_congr (h : r.keys key = r'.keys key) : r.hashAt key = r'.hashAt key := by
  rw [hashAt, hashAt, h]

theorem streamAt_congr (h : r.keys key = r'.keys key) : r.streamAt key = r'.streamAt key := by
  rw [streamAt, streamAt, h]

theorem isSet_congr (h : r.keys key = r'.keys key) : r.IsSet key ↔ r'.IsSet key := by
  rw [IsSet, IsSet, setAt_congr h, h]

theorem isHash_congr (h : r.keys key = r'.keys key) : r.IsHash key ↔ r'.IsHash key := by
  rw [IsHash, IsHash, hashAt_congr h, h]

theorem isStream_congr (h : r.keys key = r'.keys key) : r.IsStream key ↔ r'.IsStream key := by
  rw [IsStream, IsStream, streamAt_congr h, h]

end Congr

/-! A free key holds the empty value of every type. -/

section Free

variable {r : Redis} {key : String}

theorem setAt_of_none (h : r.keys key = none) : r.setAt key = .empty := by rw [setAt, h]; rfl

theorem hashAt_of_none (h : r.keys key = none) : r.hashAt key = ∅ := by rw [hashAt, h]; rfl

theorem isSet_of_none (h : r.keys key = none) : r.IsSet key := by
  rw [IsSet, setAt_of_none h, h]; rfl

theorem isHash_of_none (h : r.keys key = none) : r.IsHash key := by
  rw [IsHash, hashAt_of_none h, h]; rfl

theorem streamAt_of_none (h : r.keys key = none) : r.streamAt key = .empty := by
  rw [streamAt, h]; rfl

theorem isStream_of_none (h : r.keys key = none) : r.IsStream key := by
  rw [IsStream, streamAt_of_none h, h]; rfl

end Free

/-! A key that holds a set. -/

section Held

variable {r : Redis} {key : String} {members : RedisSet} {deadline : Option Nat}

theorem setAt_of_set (h : r.keys key = some ⟨.set members, deadline⟩) : r.setAt key = members := by
  rw [setAt, h]; rfl

theorem isSet_of_set (h : r.keys key = some ⟨.set members, deadline⟩) : r.IsSet key := by
  rw [IsSet, setAt_of_set h, h]; rfl

end Held

/-! What a replaced slot leaves to read. -/

section Put

variable (r : Redis) (key : String) {k : String}

@[simp] theorem keys_put_self (slot : Option Slot) : (r.put key slot).keys key = slot :=
  Function.update_self ..

@[simp] theorem keys_put_ne (slot : Option Slot) (hk : k ≠ key) :
    (r.put key slot).keys k = r.keys k :=
  Function.update_of_ne hk _ _

@[simp] theorem now_put (slot : Option Slot) : (r.put key slot).now = r.now := rfl

@[simp] theorem setAt_put_ne (slot : Option Slot) (hk : k ≠ key) :
    (r.put key slot).setAt k = r.setAt k :=
  setAt_congr (keys_put_ne r key slot hk)

@[simp] theorem hashAt_put_ne (slot : Option Slot) (hk : k ≠ key) :
    (r.put key slot).hashAt k = r.hashAt k :=
  hashAt_congr (keys_put_ne r key slot hk)

@[simp] theorem streamAt_put_ne (slot : Option Slot) (hk : k ≠ key) :
    (r.put key slot).streamAt k = r.streamAt k :=
  streamAt_congr (keys_put_ne r key slot hk)

@[simp] theorem has_put_ne (slot : Option Slot) (hk : k ≠ key) :
    (r.put key slot).has k = r.has k := by
  rw [has, keys_put_ne r key slot hk, has]

@[simp] theorem isSet_put_ne (slot : Option Slot) (hk : k ≠ key) :
    (r.put key slot).IsSet k ↔ r.IsSet k :=
  isSet_congr (keys_put_ne r key slot hk)

@[simp] theorem isHash_put_ne (slot : Option Slot) (hk : k ≠ key) :
    (r.put key slot).IsHash k ↔ r.IsHash k :=
  isHash_congr (keys_put_ne r key slot hk)

@[simp] theorem isStream_put_ne (slot : Option Slot) (hk : k ≠ key) :
    (r.put key slot).IsStream k ↔ r.IsStream k :=
  isStream_congr (keys_put_ne r key slot hk)

@[simp] theorem setAt_put_set (s : RedisSet) (ttl : Option Nat) :
    (r.put key (some ⟨.set s, ttl⟩)).setAt key = s := by
  rw [setAt, keys_put_self]; rfl

@[simp] theorem setAt_put_none : (r.put key none).setAt key = .empty := by
  rw [setAt, keys_put_self]; rfl

@[simp] theorem hashAt_put_hash (h : RedisHash) (ttl : Option Nat) :
    (r.put key (some ⟨.hash h, ttl⟩)).hashAt key = h := by
  rw [hashAt, keys_put_self]; rfl

@[simp] theorem streamAt_put_stream (s : Stream) (ttl : Option Nat) :
    (r.put key (some ⟨.stream s, ttl⟩)).streamAt key = s := by
  rw [streamAt, keys_put_self]; rfl

@[simp] theorem isSet_put_set (s : RedisSet) (ttl : Option Nat) :
    (r.put key (some ⟨.set s, ttl⟩)).IsSet key := by
  rw [IsSet, setAt_put_set, keys_put_self]; rfl

@[simp] theorem isSet_put_none : (r.put key none).IsSet key := by
  rw [IsSet, setAt_put_none, keys_put_self]; rfl

@[simp] theorem isHash_put_hash (h : RedisHash) (ttl : Option Nat) :
    (r.put key (some ⟨.hash h, ttl⟩)).IsHash key := by
  rw [IsHash, hashAt_put_hash, keys_put_self]; rfl

@[simp] theorem isStream_put_stream (s : Stream) (ttl : Option Nat) :
    (r.put key (some ⟨.stream s, ttl⟩)).IsStream key := by
  rw [IsStream, streamAt_put_stream, keys_put_self]; rfl

@[simp] theorem hashAt_put_ofHash (h : RedisHash) (ttl : Option Nat) :
    (r.put key (Slot.ofHash h ttl)).hashAt key = h := by
  by_cases hh : h.entries = []
  · have hempty : h = ∅ := AList.ext hh
    rw [hashAt, keys_put_self, Slot.ofHash, if_pos hh, hempty]
    rfl
  · rw [Slot.ofHash, if_neg hh, hashAt_put_hash]

@[simp] theorem isHash_put_ofHash (h : RedisHash) (ttl : Option Nat) :
    (r.put key (Slot.ofHash h ttl)).IsHash key := by
  rw [IsHash, hashAt_put_ofHash, keys_put_self, Slot.ofHash]
  split
  · next hh =>
    rw [AList.ext (t := ∅) hh]
    rfl
  · rfl

end Put

/-! A deadline changes no value. -/

section Deadline

variable (r : Redis) (key : String) (deadline : Nat) (k : String)

private theorem asSet_withDeadline (slot : Option Slot) :
    Slot.asSet (slot.map (Slot.withDeadline deadline)) = Slot.asSet slot := by
  rcases slot with _ | ⟨_ | _ | _ | _, _⟩ <;> rfl

private theorem asHash_withDeadline (slot : Option Slot) :
    Slot.asHash (slot.map (Slot.withDeadline deadline)) = Slot.asHash slot := by
  rcases slot with _ | ⟨_ | _ | _ | _, _⟩ <;> rfl

private theorem asStream_withDeadline (slot : Option Slot) :
    Slot.asStream (slot.map (Slot.withDeadline deadline)) = Slot.asStream slot := by
  rcases slot with _ | ⟨_ | _ | _ | _, _⟩ <;> rfl

/-- The keyspace with a deadline set on one key. -/
def expire : Redis := r.put key ((r.keys key).map (Slot.withDeadline deadline))

@[simp] theorem setAt_expire : (r.expire key deadline).setAt k = r.setAt k := by
  by_cases hk : k = key
  · rw [hk, setAt, expire, keys_put_self, asSet_withDeadline, setAt]
  · exact setAt_put_ne r key _ hk

@[simp] theorem hashAt_expire : (r.expire key deadline).hashAt k = r.hashAt k := by
  by_cases hk : k = key
  · rw [hk, hashAt, expire, keys_put_self, asHash_withDeadline, hashAt]
  · exact hashAt_put_ne r key _ hk

@[simp] theorem streamAt_expire : (r.expire key deadline).streamAt k = r.streamAt k := by
  by_cases hk : k = key
  · rw [hk, streamAt, expire, keys_put_self, asStream_withDeadline, streamAt]
  · exact streamAt_put_ne r key _ hk

@[simp] theorem has_expire : (r.expire key deadline).has k = r.has k := by
  by_cases hk : k = key
  · rw [hk, has, expire, keys_put_self, Option.isSome_map, has]
  · exact has_put_ne r key _ hk

@[simp] theorem isSet_expire : (r.expire key deadline).IsSet k ↔ r.IsSet k := by
  by_cases hk : k = key
  · rw [IsSet, setAt_expire, hk, expire, keys_put_self, asSet_withDeadline, IsSet]
  · exact isSet_put_ne r key _ hk

@[simp] theorem isHash_expire : (r.expire key deadline).IsHash k ↔ r.IsHash k := by
  by_cases hk : k = key
  · rw [IsHash, hashAt_expire, hk, expire, keys_put_self, asHash_withDeadline, IsHash]
  · exact isHash_put_ne r key _ hk

@[simp] theorem isStream_expire : (r.expire key deadline).IsStream k ↔ r.IsStream k := by
  by_cases hk : k = key
  · rw [IsStream, streamAt_expire, hk, expire, keys_put_self, asStream_withDeadline, IsStream]
  · exact isStream_put_ne r key _ hk

end Deadline

end Redis

/-! ## The commands on keys of their type -/

section Commands

variable {r : Redis} {key : String}

theorem sadd_ok (h : r.IsSet key) (member : String) :
    sadd key member r = (.ok (),
      r.put key (some ⟨.set ((r.setAt key).insert member), Slot.ttlOf (r.keys key)⟩)) :=
  onKey_ok (by rw [h]; rfl)

theorem smembers_ok (ord : MembersOrder) (h : r.IsSet key) :
    smembers ord key r = (.ok (ord.order (r.setAt key).members), r) := by
  have hput : r.put key (r.keys key) = r := by
    rw [Redis.put, Function.update_eq_self]
  have hrun : smembers ord key r =
      (.ok (ord.order (r.setAt key).members), r.put key (r.keys key)) :=
    onKey_ok (by rw [h]; rfl)
  rw [hrun, hput]

theorem hset_ok (h : r.IsHash key) (field : String) (value : Int) :
    hset key field value r = (.ok (),
      r.put key (some ⟨.hash ((r.hashAt key).insert field value), Slot.ttlOf (r.keys key)⟩)) :=
  onKey_ok (by rw [h]; rfl)

theorem hincrby_ok (h : r.IsHash key) {field : String} {delta : Int}
    (hv : inInt64 (((r.hashAt key).lookup field).getD 0 + delta) = true) :
    hincrby key field delta r = (.ok (((r.hashAt key).lookup field).getD 0 + delta),
      r.put key (some ⟨.hash ((r.hashAt key).insert field
        (((r.hashAt key).lookup field).getD 0 + delta)), Slot.ttlOf (r.keys key)⟩)) :=
  onKey_ok (by
    rw [h]
    show (if inInt64 _ = true then _ else _) = _
    rw [if_pos hv]
    rfl)

theorem hdel_ok (h : r.IsHash key) (field : String) :
    hdel key field r = (.ok (),
      r.put key (Slot.ofHash ((r.hashAt key).erase field) (Slot.ttlOf (r.keys key)))) :=
  onKey_ok (by rw [h]; rfl)

theorem setEx_ok (r : Redis) (key : String) (bytes : List UInt8) (ttl : Nat) :
    setEx key bytes ttl r = (.ok (), r.put key (some ⟨.str bytes, some (r.now + ttl)⟩)) := rfl

theorem existsKey_ok (r : Redis) (key : String) : existsKey key r = (.ok (r.has key), r) := by
  have hput : r.put key (r.keys key) = r := by
    rw [Redis.put, Function.update_eq_self]
  have hrun : existsKey key r = (.ok (r.has key), r.put key (r.keys key)) := onKey_ok rfl
  rw [hrun, hput]

theorem delKey_ok (r : Redis) (key : String) : delKey key r = (.ok (), r.put key none) := rfl

theorem expireKey_ok (r : Redis) (key : String) (ttl : Nat) :
    expireKey key ttl r = (.ok (), r.expire key (r.now + ttl)) := rfl

theorem xadd_ok (h : r.IsStream key) (fields : List (String × String)) :
    xadd key fields r = (.ok ((r.streamAt key).nextId r.now),
      r.put key (some ⟨.stream ((r.streamAt key).add r.now fields), Slot.ttlOf (r.keys key)⟩)) :=
  onKey_ok (by rw [h]; rfl)

end Commands

/-! ## The commands on keys of another type -/

section WrongType

variable {r : Redis} {key : String}

theorem smembers_error (ord : MembersOrder) (h : ¬ r.IsSet key) :
    ∃ e, smembers ord key r = (.error e, r) := by
  cases hset : Slot.asSet (r.keys key) with
  | ok s => exact absurd (by rw [Redis.IsSet, Redis.setAt, hset]; rfl) h
  | error e => exact ⟨e, onKey_error (by rw [hset]; rfl)⟩

theorem hincrby_error {field : String} {delta : Int} (h : ¬ (r.IsHash key ∧
    inInt64 (((r.hashAt key).lookup field).getD 0 + delta) = true)) :
    ∃ e, hincrby key field delta r = (.error e, r) := by
  cases hhash : Slot.asHash (r.keys key) with
  | ok map =>
    have hat : r.hashAt key = map := by rw [Redis.hashAt, hhash]; rfl
    have hover : ¬ inInt64 ((map.lookup field).getD 0 + delta) = true := fun hin =>
      h ⟨by rw [Redis.IsHash, hat, hhash], by rw [hat]; exact hin⟩
    refine ⟨.overflow, onKey_error ?_⟩
    rw [hhash]
    show (if inInt64 _ = true then _ else _) = _
    rw [if_neg hover]
    rfl
  | error e => exact ⟨e, onKey_error (by rw [hhash]; rfl)⟩

theorem xadd_error (h : ¬ r.IsStream key) (fields : List (String × String)) :
    ∃ e, xadd key fields r = (.error e, r) := by
  cases hstream : Slot.asStream (r.keys key) with
  | ok s => exact absurd (by rw [Redis.IsStream, Redis.streamAt, hstream]; rfl) h
  | error e => exact ⟨e, onKey_error (by rw [hstream]; rfl)⟩

end WrongType

end DistTaskSystem
