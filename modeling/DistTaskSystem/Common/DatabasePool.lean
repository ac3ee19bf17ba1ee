import Mathlib.Data.List.Basic

/-!
# DTS — the connection pool

`DatabasePool` keeps the idle connections in a queue. A call of `ExecuteTx`
takes the first of them, runs its transaction on it and gives it back; a
connection that is no longer open is replaced on the way, outside of the mutex.
The calls run on threads of their own, so the pool and all its calls are one
transition system, whose steps are the critical sections under `m_mutex` and
the transactions between them.

The standard allows `m_cond.wait` to return for no reason: `wake`.

## Results

* `releaseConnection_open` — what goes back to the queue is open.
* `step_moves`             — a step is one of the moves of the code.
-/

namespace DistTaskSystem

/-- A `pqxx::connection`; the number tells the connections apart. -/
structure Connection where
  id : Nat
  isOpen : Bool := true
deriving DecidableEq, Repr

/-- How the `try` block of `ExecuteTx` is left. -/
inductive TryExit where
  | committed
  /-- `pqxx::broken_connection` -/
  | brokenConnection
  | stdException
  /-- an exception that is no `std::exception`: neither handler catches it -/
  | foreignException
deriving DecidableEq, Repr

/-- Where a call of `ExecuteTx` stands. -/
inductive CallPoint where
  /-- before the predicate of `m_cond.wait` is tested -/
  | acquiring
  /-- blocked in `m_cond.wait` -/
  | waiting
  | running (conn : Connection)
  /-- in `ReleaseConnection` -/
  | releasing (conn : Connection) (left : TryExit)
  | returned
  | thrown
deriving DecidableEq, Repr

/-- The connection a call has checked out. -/
def CallPoint.conn? : CallPoint → Option Connection
  | .running conn => some conn
  | .releasing conn _ => some conn
  | _ => none

structure DatabasePool where
  pool : List Connection
  /-- the calls of `ExecuteTx` so far -/
  calls : List CallPoint := []
  /-- the number of the next connection; numbers may be left out -/
  made : Nat
  /-- the calls whose transaction was committed: kept for the statements, no
  function reads it -/
  committed : List Nat := []

/-- What becomes of an attempt to connect. -/
inductive Reconnect where
  | connected
  /-- a connection that is not open -/
  | notOpen
  | threw
deriving DecidableEq, Repr

/-- `ReleaseConnection` up to its lock: the connection that goes back, if one
does. The new connection, if one is made, gets the number `made`. -/
def releaseConnection (conn : Connection) (forceReconnect : Bool) (attempt : Reconnect)
    (made : Nat) : Option Connection :=
  if forceReconnect || !conn.isOpen then
    match attempt with
    | .connected => some ⟨made, true⟩
    | .notOpen => none
    | .threw => none
  else if conn.isOpen then some conn
  else none

/-- The argument `conn_broken` of the call that follows the handlers; the handlers
leave `force_reconnect` at its default. -/
def connBroken : Bool := false

inductive PoolStep where
  /-- a thread calls `ExecuteTx` -/
  | call
  /-- `AcquireConnection` tests its predicate -/
  | acquire (i : Nat)
  /-- the transaction ends, and leaves the connection open or not -/
  | logic (i : Nat) (left : TryExit) (isOpen : Bool)
  /-- `ReleaseConnection`; `notify_one` wakes a waiting call, if there is one -/
  | release (i : Nat) (attempt : Reconnect) (notified : Option Nat)
  | wake (i : Nat)

namespace DatabasePool

/-- The constructor: the connections that are open when they are made are kept.
Without a connection to make it ends the process. -/
def construct (opened : List Bool) : Option DatabasePool :=
  if opened = [] then none
  else
    let conns := (opened.zipIdx.filter Prod.fst).map fun made => ⟨made.2, made.1⟩
    some { pool := conns, made := opened.length }

def setCall (s : DatabasePool) (i : Nat) (c : CallPoint) : DatabasePool :=
  { s with calls := s.calls.set i c }

/-- The connections checked out by calls. -/
def checkedOut (s : DatabasePool) : List Connection := s.calls.filterMap CallPoint.conn?

/-- The end of the `try` block. -/
def leaveTry (s : DatabasePool) (i : Nat) (conn : Connection) (left : TryExit) (isOpen : Bool) :
    DatabasePool :=
  match left with
  | .committed =>
    { s.setCall i (.releasing { conn with isOpen } .committed) with
      committed := s.committed ++ [i] }
  | .brokenConnection => s.setCall i (.releasing { conn with isOpen } .brokenConnection)
  | .stdException => s.setCall i (.releasing { conn with isOpen } .stdException)
  -- the stack is unwound, and the connection with it
  | .foreignException => s.setCall i .thrown

/-- The handlers throw on, and the call of a committed transaction returns. -/
def afterRelease (left : TryExit) : CallPoint :=
  if left = .committed then .returned else .thrown

/-- The connection is pushed, and a waiting call is notified. -/
def push (s : DatabasePool) (conn : Connection) (notified : Option Nat) : DatabasePool :=
  let s := { s with pool := s.pool ++ [conn] }
  match notified with
  | none => s
  | some j => s.setCall j .acquiring

/-- The call that `notify_one` wakes is one that waits, and it wakes one if it
can. -/
def mayNotify (s : DatabasePool) : Option Nat → Bool
  | none => decide (.waiting ∉ s.calls)
  | some j => decide (s.calls[j]? = some .waiting)

def step (s : DatabasePool) : PoolStep → Option DatabasePool
  | .call => some { s with calls := s.calls ++ [.acquiring] }
  | .acquire i =>
    match s.calls[i]? with
    | some .acquiring =>
      match s.pool with
      | [] => some (s.setCall i .waiting)
      | conn :: rest => some { s.setCall i (.running conn) with pool := rest }
    | _ => none
  | .logic i left isOpen =>
    match s.calls[i]? with
    | some (.running conn) => some (s.leaveTry i conn left isOpen)
    | _ => none
  | .release i attempt notified =>
    match s.calls[i]? with
    | some (.releasing conn left) =>
      let after := { s.setCall i (afterRelease left) with made := s.made + 1 }
      match releaseConnection conn connBroken attempt s.made with
      | some conn => if after.mayNotify notified then some (after.push conn notified) else none
      | none => some after
    | _ => none
  | .wake i =>
    match s.calls[i]? with
    | some .waiting => some (s.setCall i .acquiring)
    | _ => none

-- ---------------------------------------------------------------------------
-- What a step does
-- ---------------------------------------------------------------------------

variable {s t : DatabasePool}

/-- The moves of the pool. -/
inductive Moves (s : DatabasePool) : PoolStep → DatabasePool → Prop
  | call : Moves s .call { s with calls := s.calls ++ [.acquiring] }
  | wait (i : Nat) (hcall : s.calls[i]? = some .acquiring) (hpool : s.pool = []) :
      Moves s (.acquire i) (s.setCall i .waiting)
  | take (i : Nat) (conn : Connection) (rest : List Connection)
      (hcall : s.calls[i]? = some .acquiring) (hpool : s.pool = conn :: rest) :
      Moves s (.acquire i) { s.setCall i (.running conn) with pool := rest }
  | commit (i : Nat) (conn : Connection) (isOpen : Bool)
      (hcall : s.calls[i]? = some (.running conn)) :
      Moves s (.logic i .committed isOpen)
        { s.setCall i (.releasing { conn with isOpen } .committed) with
          committed := s.committed ++ [i] }
  | catch (i : Nat) (conn : Connection) (left : TryExit) (isOpen : Bool)
      (hcall : s.calls[i]? = some (.running conn))
      (hleft : left = .brokenConnection ∨ left = .stdException) :
      Moves s (.logic i left isOpen) (s.setCall i (.releasing { conn with isOpen } left))
  | unwind (i : Nat) (conn : Connection) (isOpen : Bool)
      (hcall : s.calls[i]? = some (.running conn)) :
      Moves s (.logic i .foreignException isOpen) (s.setCall i .thrown)
  | giveBack (i : Nat) (attempt : Reconnect) (notified : Option Nat) (old conn : Connection)
      (left : TryExit) (hcall : s.calls[i]? = some (.releasing old left))
      (hconn : releaseConnection old connBroken attempt s.made = some conn)
      (hnotify : (s.setCall i (afterRelease left)).mayNotify notified = true) :
      Moves s (.release i attempt notified)
        (({ s.setCall i (afterRelease left) with made := s.made + 1 } : DatabasePool).push conn
          notified)
  | lose (i : Nat) (attempt : Reconnect) (notified : Option Nat) (old : Connection)
      (left : TryExit) (hcall : s.calls[i]? = some (.releasing old left))
      (hconn : releaseConnection old connBroken attempt s.made = none) :
      Moves s (.release i attempt notified)
        { s.setCall i (afterRelease left) with made := s.made + 1 }
  | wake (i : Nat) (hcall : s.calls[i]? = some .waiting) :
      Moves s (.wake i) (s.setCall i .acquiring)

/-- **Inversion.** A step of the pool is one of its moves. -/
theorem step_moves {a : PoolStep} (h : s.step a = some t) : Moves s a t := by
  cases a with
  | call => exact Option.some.inj h ▸ .call
  | acquire i =>
    rw [step] at h
    split at h
    · next hcall =>
      split at h
      · next hpool => exact Option.some.inj h ▸ .wait i hcall hpool
      · next conn rest hpool => exact Option.some.inj h ▸ .take i conn rest hcall hpool
    · exact nomatch h
  | logic i left isOpen =>
    rw [step] at h
    split at h
    · next conn hcall =>
      obtain rfl := Option.some.inj h
      cases left with
      | committed => exact .commit i conn isOpen hcall
      | brokenConnection => exact .catch i conn _ isOpen hcall (.inl rfl)
      | stdException => exact .catch i conn _ isOpen hcall (.inr rfl)
      | foreignException => exact .unwind i conn isOpen hcall
    · exact nomatch h
  | release i attempt notified =>
    rw [step] at h
    split at h
    · next old left hcall =>
      dsimp only at h
      split at h
      · next conn hconn =>
        rw [Option.ite_none_right_eq_some] at h
        obtain ⟨hnotify, h⟩ := h
        exact Option.some.inj h ▸ .giveBack i attempt notified old conn left hcall hconn hnotify
      · next hconn => exact Option.some.inj h ▸ .lose i attempt notified old left hcall hconn
    · exact nomatch h
  | wake i =>
    rw [step] at h
    split at h
    · next hcall => exact Option.some.inj h ▸ .wake i hcall
    · exact nomatch h

/-- What goes back is open: it is the connection of the call if that is open, and
a new one otherwise. -/
theorem releaseConnection_open {old conn : Connection} {attempt : Reconnect} {made : Nat}
    (h : releaseConnection old connBroken attempt made = some conn) :
    conn.isOpen = true ∧ (conn = old ∨ conn.id = made) := by
  unfold releaseConnection connBroken at h
  rw [Bool.false_or] at h
  cases hopen : old.isOpen with
  | true =>
    rw [hopen] at h
    obtain rfl := Option.some.inj h
    exact ⟨hopen, .inl rfl⟩
  | false =>
    rw [hopen] at h
    cases attempt with
    | connected =>
      obtain rfl := Option.some.inj h
      exact ⟨rfl, .inr rfl⟩
    | notOpen => exact nomatch h
    | threw => exact nomatch h

/-- A connection is lost exactly if it is not open and is not replaced. -/
theorem releaseConnection_none {old : Connection} {attempt : Reconnect} {made : Nat} :
    releaseConnection old connBroken attempt made = none ↔
      old.isOpen = false ∧ attempt ≠ .connected := by
  unfold releaseConnection connBroken
  rw [Bool.false_or]
  cases old.isOpen <;> cases attempt <;> simp

end DatabasePool

end DistTaskSystem
