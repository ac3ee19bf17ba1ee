import DistTaskSystem.Common.DatabasePool
import DistTaskSystem.Library.Parties
import DistTaskSystem.Library.Runs
import Mathlib.Data.List.Perm.Basic
import Mathlib.Order.Nat

/-!
# DTS — what the connection pool keeps

No connection has two owners, and there are never more of them than at the
start. There can be fewer: an exception that is no `std::exception` takes the
connection of its call with it, and a connection that broke is gone if its
replacement fails. Nothing ever makes a new one for it, so a pool that has lost
its last connection blocks every caller.

## Results

* `ids_step`            — what a step does to the connections.
* `pool_conserved_iff`  — when none is lost.
* `pool_exclusive`      — owners, bound and commits in any run.
-/

namespace DistTaskSystem

/-- The transaction of the call was committed. -/
def CallPoint.hasCommitted : CallPoint → Bool
  | .releasing _ left => left = .committed
  | .returned => true
  | _ => false

namespace DatabasePool

open Runs

variable {s t : DatabasePool} {a : PoolStep} {actions : List PoolStep}

-- ---------------------------------------------------------------------------
-- The connections of a pool
-- ---------------------------------------------------------------------------

/-- The idle connections and those checked out, by their numbers. -/
def ids (s : DatabasePool) : List Nat := (s.pool ++ s.checkedOut).map Connection.id

/-- The step gives no connection away for good: its transaction does not end with an
exception that no handler catches, and a connection that is not open is
replaced. -/
def KeepsConnection (s : DatabasePool) : PoolStep → Prop
  | .logic _ left _ => left ≠ .foreignException
  | .release i attempt _ => ∀ conn left, s.calls[i]? = some (.releasing conn left) →
      conn.isOpen = false → attempt = .connected
  | _ => True

/-- What a step may do to the connections, and whether it keeps them all. -/
inductive Ledger (s t : DatabasePool) : Bool → Prop
  | same (hids : t.ids.Perm s.ids) (hmade : s.made ≤ t.made) : Ledger s t true
  /-- a connection is closed and a new one takes its place -/
  | replaced (id : Nat) (rest : List Nat) (hs : s.ids.Perm (id :: rest))
      (ht : t.ids.Perm (s.made :: rest)) (hmade : t.made = s.made + 1) : Ledger s t true
  | lost (id : Nat) (hids : s.ids.Perm (id :: t.ids)) (hmade : s.made ≤ t.made) : Ledger s t false

theorem ids_length : s.ids.length = s.pool.length + s.checkedOut.length := by
  rw [ids, List.length_map, List.length_append]

/-- What the calls have checked out, with the call that moves taken out. -/
theorem checkedOut_setCall {i : Nat} {c : CallPoint} (h : s.calls[i]? = some c) :
    ∃ rest, s.checkedOut.Perm (c.conn?.toList ++ rest) ∧
      ∀ x, (s.setCall i x).checkedOut.Perm (x.conn?.toList ++ rest) :=
  Parties.perm_set CallPoint.conn? h

/-- A call that goes on with its connection. -/
theorem checkedOut_same {i : Nat} {c x : CallPoint} (h : s.calls[i]? = some c)
    (hconn : x.conn?.map Connection.id = c.conn?.map Connection.id) :
    ((s.setCall i x).checkedOut.map Connection.id).Perm (s.checkedOut.map Connection.id) := by
  obtain ⟨rest, hs, ht⟩ := checkedOut_setCall h
  have hids : x.conn?.toList.map Connection.id = c.conn?.toList.map Connection.id := by
    rw [← Option.toList_map, ← Option.toList_map, hconn]
  refine ((ht x).map _).trans (List.Perm.trans ?_ (hs.map _).symm)
  rw [List.map_append, List.map_append, hids]

theorem ids_same {u : DatabasePool} (hpool : u.pool = s.pool)
    (hout : (u.checkedOut.map Connection.id).Perm (s.checkedOut.map Connection.id)) :
    u.ids.Perm s.ids := by
  rw [ids, ids, List.map_append, List.map_append, hpool]
  exact hout.append_left _

/-- A notification takes nothing from the call it wakes. -/
theorem push_ids {conn : Connection} {notified : Option Nat}
    (hnotify : s.mayNotify notified = true) :
    (s.push conn notified).ids.Perm (conn.id :: s.ids) := by
  have hpush : ∀ u : DatabasePool, u.pool = s.pool ++ [conn] →
      (u.checkedOut.map Connection.id).Perm (s.checkedOut.map Connection.id) →
      u.ids.Perm (conn.id :: s.ids) := by
    intro u hpool hout
    rw [ids, ids, hpool, List.append_assoc, List.singleton_append, List.map_append,
      List.map_cons, List.map_append]
    exact List.perm_middle.trans ((hout.append_left _).cons _)
  cases notified with
  | none => exact hpush _ rfl (List.Perm.refl _)
  | some j =>
    have hwaiting : s.calls[j]? = some .waiting := of_decide_eq_true hnotify
    exact hpush _ rfl (checkedOut_same hwaiting rfl)

/-- A call that is left without its connection. -/
theorem ids_takeOut {i : Nat} {c x : CallPoint} {conn : Connection} (h : s.calls[i]? = some c)
    (hc : c.conn? = some conn) (hx : x.conn? = none) :
    s.ids.Perm (conn.id :: (s.setCall i x).ids) := by
  obtain ⟨others, hs, ht⟩ := checkedOut_setCall h
  have hout := ht x
  rw [hc] at hs
  rw [hx] at hout
  rw [ids, ids, ← List.map_cons]
  refine List.Perm.map _ ?_
  exact (hs.append_left _).trans (List.perm_middle.trans ((hout.append_left _).symm.cons _))

theorem afterRelease_conn (left : TryExit) : (afterRelease left).conn? = none := by
  rw [afterRelease]
  split <;> rfl

/-- **Step lemma.** -/
theorem ids_step (h : s.step a = some t) :
    (KeepsConnection s a → Ledger s t true) ∧ (¬ KeepsConnection s a → Ledger s t false) := by
  have hkeep : KeepsConnection s a → Ledger s t true →
      (KeepsConnection s a → Ledger s t true) ∧ (¬ KeepsConnection s a → Ledger s t false) := by
    intro hok hledger
    exact ⟨fun _ => hledger, fun hno => absurd hok hno⟩
  have hlose : ¬ KeepsConnection s a → Ledger s t false →
      (KeepsConnection s a → Ledger s t true) ∧ (¬ KeepsConnection s a → Ledger s t false) := by
    intro hno hledger
    exact ⟨fun hok => absurd hok hno, fun _ => hledger⟩
  cases step_moves h with
  | call =>
    refine hkeep trivial (.same (ids_same rfl ?_) (Nat.le_refl s.made))
    show ((s.calls ++ [_]).filterMap CallPoint.conn?).map Connection.id |>.Perm _
    rw [List.filterMap_append]
    exact (List.append_nil (s.calls.filterMap CallPoint.conn?)).symm ▸ List.Perm.refl _
  | wait i hcall hpool =>
    exact hkeep trivial (.same (ids_same rfl (checkedOut_same hcall rfl)) (Nat.le_refl s.made))
  | take i conn rest hcall hpool =>
    refine hkeep trivial (.same ?_ (Nat.le_refl s.made))
    obtain ⟨others, hs, ht⟩ := checkedOut_setCall hcall
    rw [ids, ids, hpool]
    refine List.Perm.map _ ?_
    show (rest ++ (s.setCall i (.running conn)).checkedOut).Perm (conn :: rest ++ s.checkedOut)
    refine ((ht _).append_left rest).trans (List.perm_middle.trans ?_)
    exact (hs.append_left rest).symm.cons _
  | commit i conn isOpen hcall =>
    exact hkeep nofun (.same (ids_same rfl (checkedOut_same hcall rfl)) (Nat.le_refl s.made))
  | «catch» i conn left isOpen hcall hleft =>
    refine hkeep ?_ (.same (ids_same rfl (checkedOut_same hcall rfl)) (Nat.le_refl s.made))
    rcases hleft with rfl | rfl <;> exact nofun
  | unwind i conn isOpen hcall =>
    exact hlose (fun hok => hok rfl)
      (.lost conn.id (ids_takeOut hcall rfl rfl) (Nat.le_refl s.made))
  | giveBack i attempt notified old conn left hcall hconn hnotify =>
    have hok : KeepsConnection s (.release i attempt notified) := by
      intro conn' left' hcall' hclosed
      obtain ⟨rfl, -⟩ := CallPoint.releasing.inj (Option.some.inj (hcall.symm.trans hcall'))
      by_contra hfailed
      exact nomatch (releaseConnection_none.mpr ⟨hclosed, hfailed⟩).symm.trans hconn
    let after : DatabasePool := { s.setCall i (afterRelease left) with made := s.made + 1 }
    have hids : s.ids.Perm (old.id :: after.ids) := ids_takeOut hcall rfl (afterRelease_conn left)
    have hpush : (after.push conn notified).ids.Perm (conn.id :: after.ids) :=
      push_ids (s := after) hnotify
    have hmade : (after.push conn notified).made = s.made + 1 := by
      cases notified <;> rfl
    rcases (releaseConnection_open hconn).2 with rfl | hnew
    · exact hkeep hok (.same (hpush.trans hids.symm) ((Nat.le_succ s.made).trans hmade.ge))
    · rw [hnew] at hpush
      exact hkeep hok (.replaced old.id _ hids hpush hmade)
  | lose i attempt notified old left hcall hconn =>
    obtain ⟨hclosed, hfailed⟩ := releaseConnection_none.mp hconn
    exact hlose (fun hok => hfailed (hok old left hcall hclosed))
      (.lost old.id (ids_takeOut hcall rfl (afterRelease_conn left)) (Nat.le_succ _))
  | wake i hcall =>
    exact hkeep trivial (.same (ids_same rfl (checkedOut_same hcall rfl)) (Nat.le_refl s.made))

-- ---------------------------------------------------------------------------
-- How many there are
-- ---------------------------------------------------------------------------

/-- The connections that are idle and those that a running call has. -/
def capacity (s : DatabasePool) : Nat := s.pool.length + s.checkedOut.length

/-- A step keeps the capacity or takes one away. -/
theorem capacity_step (h : s.step a = some t) :
    (KeepsConnection s a → t.capacity = s.capacity) ∧
      (¬ KeepsConnection s a → t.capacity + 1 = s.capacity) := by
  have hlength : ∀ u : DatabasePool, u.capacity = u.ids.length := fun u => ids_length.symm
  rw [hlength, hlength]
  obtain ⟨hkeep, hlose⟩ := ids_step h
  constructor
  · intro hok
    cases hkeep hok with
    | same hids hmade => exact hids.length_eq
    | replaced id rest hs ht hmade =>
      rw [hs.length_eq, ht.length_eq, List.length_cons, List.length_cons]
  · intro hno
    cases hlose hno with
    | lost id hids hmade => rw [hids.length_eq, List.length_cons]

theorem capacity_le (h : s.step a = some t) : t.capacity ≤ s.capacity := by
  obtain ⟨hkeep, hlose⟩ := capacity_step h
  by_cases hok : KeepsConnection s a
  · exact (hkeep hok).le
  · have hlost := hlose hok
    omega

/-- **Run lemma.** The capacity never rises, so it is what it was exactly if no step
took a connection away. -/
theorem capacity_run (hrun : run step s actions = some t) :
    t.capacity = s.capacity ↔ Along step KeepsConnection s actions := by
  have hiff : t.capacity = s.capacity ↔
      s.capacity = s.capacity ∧ Along step KeepsConnection s actions := by
    refine along_iff (I := fun u => u.capacity ≤ s.capacity)
      (P := fun u => u.capacity = s.capacity) ?_ ?_ hrun le_rfl
    · intro u b v hle hstep
      exact (capacity_le hstep).trans hle
    · intro u b v hle hstep
      obtain ⟨hkeep, hlose⟩ := capacity_step hstep
      constructor
      · intro hv
        have hok : KeepsConnection u b := by
          by_contra hno
          have hlost := hlose hno
          omega
        exact ⟨(hkeep hok).symm.trans hv, hok⟩
      · rintro ⟨hu, hok⟩
        exact (hkeep hok).trans hu
  rw [hiff]
  exact and_iff_right rfl

-- ---------------------------------------------------------------------------
-- Who waits
-- ---------------------------------------------------------------------------

/-- The calls that are about to test the predicate. -/
def acquirers (s : DatabasePool) : Nat := s.calls.countP fun c => c = .acquiring

/-- A connection that is idle while a call waits is about to be taken: each was
pushed with a notification. -/
def Notified (s : DatabasePool) : Prop := .waiting ∈ s.calls → s.pool.length ≤ s.acquirers

theorem acquirers_setCall {i : Nat} {c x : CallPoint} (h : s.calls[i]? = some c) :
    (s.setCall i x).acquirers + (if c = .acquiring then 1 else 0) =
      s.acquirers + if x = .acquiring then 1 else 0 := by
  have hcount := Parties.countP_set (fun c : CallPoint => decide (c = .acquiring)) (x := x) h
  simp only [decide_eq_true_eq] at hcount
  exact hcount

/-- A call that moves on makes no other wait. -/
theorem waiting_setCall {i : Nat} {x : CallPoint} (hx : x ≠ .waiting)
    (h : CallPoint.waiting ∈ (s.setCall i x).calls) : .waiting ∈ s.calls :=
  (List.mem_or_eq_of_mem_set h).resolve_right (Ne.symm hx)

/-- A call that neither comes to the predicate nor leaves it. -/
theorem Notified.move {i : Nat} {c x : CallPoint} (hs : s.Notified) (hcall : s.calls[i]? = some c)
    (hc : c ≠ .acquiring) (hx : x ≠ .waiting ∧ x ≠ .acquiring) (hpool : t.pool = s.pool)
    (hcalls : t.calls = (s.setCall i x).calls) : t.Notified := by
  intro hwait
  rw [hcalls] at hwait
  have hle := hs (waiting_setCall hx.1 hwait)
  have hcount := acquirers_setCall (x := x) hcall
  rw [if_neg hc, if_neg hx.2] at hcount
  have ht : t.acquirers = (s.setCall i x).acquirers := by rw [acquirers, acquirers, hcalls]
  rw [hpool]
  omega

theorem afterRelease_rest (left : TryExit) :
    afterRelease left ≠ .waiting ∧ afterRelease left ≠ .acquiring := by
  rw [afterRelease]
  split <;> exact ⟨nofun, nofun⟩

/-- **Step lemma.** No notification is lost. -/
theorem notified_step (hs : s.Notified) (h : s.step a = some t) : t.Notified := by
  cases step_moves h with
  | call =>
    intro hwait
    have hold : CallPoint.waiting ∈ s.calls := by simpa using hwait
    have hle := hs hold
    show s.pool.length ≤ (s.calls ++ [_]).countP _
    rw [List.countP_append]
    exact hle.trans (Nat.le_add_right _ _)
  | wait i hcall hpool =>
    intro hwait
    show s.pool.length ≤ _
    rw [hpool]
    exact Nat.zero_le _
  | take i conn rest hcall hpool =>
    intro hwait
    have hle := hs (waiting_setCall (x := .running conn) nofun hwait)
    have hcount := acquirers_setCall (x := .running conn) hcall
    rw [hpool, List.length_cons] at hle
    rw [if_pos rfl, if_neg nofun] at hcount
    show rest.length ≤ (s.setCall i (.running conn)).acquirers
    omega
  | commit i conn isOpen hcall =>
    exact hs.move (x := .releasing { conn with isOpen } .committed) hcall nofun ⟨nofun, nofun⟩
      rfl rfl
  | «catch» i conn left isOpen hcall hleft =>
    exact hs.move (x := .releasing { conn with isOpen } left) hcall nofun ⟨nofun, nofun⟩ rfl rfl
  | unwind i conn isOpen hcall =>
    exact hs.move (x := .thrown) hcall nofun ⟨nofun, nofun⟩ rfl rfl
  | giveBack i attempt notified old conn left hcall hconn hnotify =>
    cases notified with
    | none =>
      -- nobody waits
      intro hwait
      exact absurd hwait (of_decide_eq_true hnotify)
    | some j =>
      intro hwait
      have hwaiting : (s.setCall i (afterRelease left)).calls[j]? = some .waiting :=
        of_decide_eq_true hnotify
      have hcount := acquirers_setCall (x := afterRelease left) hcall
      rw [if_neg nofun, if_neg (afterRelease_rest left).2] at hcount
      have hwoken := acquirers_setCall (x := .acquiring) hwaiting
      rw [if_neg nofun, if_pos rfl] at hwoken
      have hle := hs (waiting_setCall (afterRelease_rest left).1 (List.mem_of_getElem? hwaiting))
      show (s.pool ++ [conn]).length ≤
        ((s.setCall i (afterRelease left)).setCall j .acquiring).acquirers
      rw [List.length_append, List.length_singleton]
      omega
  | lose i attempt notified old left hcall hconn =>
    exact hs.move hcall nofun (afterRelease_rest left) rfl rfl
  | wake i hcall =>
    have hcount := acquirers_setCall (x := .acquiring) hcall
    rw [if_neg nofun, if_pos rfl] at hcount
    intro hwait
    have hle := hs (List.mem_of_getElem? hcall)
    show s.pool.length ≤ (s.setCall i .acquiring).acquirers
    omega

-- ---------------------------------------------------------------------------
-- Owners and commits
-- ---------------------------------------------------------------------------

/-- Each committed transaction has one commit, and no other has any. -/
def CommitsCounted (calls : List CallPoint) (committed : List Nat) : Prop :=
  ∀ i, committed.count i = if (calls[i]?).any CallPoint.hasCommitted then 1 else 0

/-- Each connection has one owner. -/
structure Exclusive (s : DatabasePool) : Prop where
  nodup : s.ids.Nodup
  numbered : ∀ id ∈ s.ids, id < s.made
  commits : CommitsCounted s.calls s.committed

theorem any_set {calls : List CallPoint} {i j : Nat} {c x : CallPoint} (h : calls[i]? = some c) :
    ((calls.set i x)[j]?).any CallPoint.hasCommitted =
      if i = j then x.hasCommitted else (calls[j]?).any CallPoint.hasCommitted := by
  obtain ⟨hi, -⟩ := List.getElem?_eq_some_iff.mp h
  rw [List.getElem?_set]
  by_cases hij : i = j
  · rw [if_pos hij, if_pos hij, if_pos hi]
    rfl
  · rw [if_neg hij, if_neg hij]

/-- A call that goes on without a commit. -/
theorem CommitsCounted.move {calls : List CallPoint} {committed : List Nat} {i : Nat}
    {c x : CallPoint} (hs : CommitsCounted calls committed) (h : calls[i]? = some c)
    (hx : x.hasCommitted = c.hasCommitted) : CommitsCounted (calls.set i x) committed := by
  intro j
  rw [hs j, any_set h]
  by_cases hij : i = j
  · subst hij
    rw [if_pos rfl, h, hx]
    rfl
  · rw [if_neg hij]

/-- A commit is counted for its call. -/
theorem CommitsCounted.commit {calls : List CallPoint} {committed : List Nat} {i : Nat}
    {c x : CallPoint} (hs : CommitsCounted calls committed) (h : calls[i]? = some c)
    (hc : c.hasCommitted = false) (hx : x.hasCommitted = true) :
    CommitsCounted (calls.set i x) (committed ++ [i]) := by
  intro j
  have hj := hs j
  rw [any_set h, List.count_append]
  by_cases hij : i = j
  · subst hij
    rw [h, Option.any_some, hc] at hj
    rw [if_pos rfl, hx, hj, List.count_singleton_self]
    rfl
  · rw [if_neg hij, hj, List.count_singleton, beq_eq_false_iff_ne.mpr hij]
    rfl

/-- **Step lemma.** -/
theorem commits_step (hs : CommitsCounted s.calls s.committed) (h : s.step a = some t) :
    CommitsCounted t.calls t.committed := by
  cases step_moves h with
  | call =>
    intro i
    rw [hs i]
    show _ = if ((s.calls ++ [_])[i]?).any _ then 1 else 0
    rw [List.getElem?_append]
    by_cases hi : i < s.calls.length
    · rw [if_pos hi]
    · rw [if_neg hi, List.getElem?_eq_none (not_lt.mp hi)]
      cases hrest : i - s.calls.length with
      | zero => rfl
      | succ n => rfl
  | wait i hcall hpool => exact hs.move hcall rfl
  | take i conn rest hcall hpool => exact hs.move hcall rfl
  | commit i conn isOpen hcall => exact hs.commit hcall rfl rfl
  | «catch» i conn left isOpen hcall hleft =>
    refine hs.move hcall ?_
    rcases hleft with rfl | rfl <;> rfl
  | unwind i conn isOpen hcall => exact hs.move hcall rfl
  | giveBack i attempt notified old conn left hcall hconn hnotify =>
    have hafter : CommitsCounted (s.calls.set i (afterRelease left)) s.committed := by
      refine hs.move hcall ?_
      cases left <;> rfl
    cases notified with
    | none => exact hafter
    | some j =>
      have hwaiting : (s.calls.set i (afterRelease left))[j]? = some .waiting :=
        of_decide_eq_true hnotify
      exact hafter.move hwaiting rfl
  | lose i attempt notified old left hcall hconn =>
    refine hs.move hcall ?_
    cases left <;> rfl
  | wake i hcall => exact hs.move hcall rfl

/-- **Step lemma.** -/
theorem exclusive_step (hs : s.Exclusive) (h : s.step a = some t) : t.Exclusive := by
  have hledger : ∃ kept, Ledger s t kept := by
    obtain ⟨hkeep, hlose⟩ := ids_step h
    by_cases hok : KeepsConnection s a
    · exact ⟨true, hkeep hok⟩
    · exact ⟨false, hlose hok⟩
  obtain ⟨kept, hledger⟩ := hledger
  have hcommits := commits_step hs.commits h
  cases hledger with
  | same hids hmade =>
    refine ⟨hids.nodup_iff.mpr hs.nodup, ?_, hcommits⟩
    intro id hid
    exact (hs.numbered id (hids.mem_iff.mp hid)).trans_le hmade
  | replaced id rest hperm ht hmade =>
    have hnodup := hperm.nodup_iff.mp hs.nodup
    have hold : ∀ x ∈ rest, x < s.made := by
      intro x hx
      exact hs.numbered x (hperm.mem_iff.mpr (List.mem_cons_of_mem _ hx))
    refine ⟨ht.nodup_iff.mpr (List.nodup_cons.mpr ⟨?_, hnodup.of_cons⟩), ?_, hcommits⟩
    · intro hmem
      exact absurd (hold _ hmem) (lt_irrefl _)
    · intro x hx
      rw [hmade]
      rcases List.mem_cons.mp (ht.mem_iff.mp hx) with rfl | hrest
      · exact Nat.lt_succ_self _
      · exact (hold x hrest).trans (Nat.lt_succ_self _)
  | lost id hids hmade =>
    have hnodup := hids.nodup_iff.mp hs.nodup
    refine ⟨hnodup.of_cons, ?_, hcommits⟩
    intro x hx
    exact (hs.numbered x (hids.mem_iff.mpr (List.mem_cons_of_mem _ hx))).trans_le hmade

-- ---------------------------------------------------------------------------
-- A pool in use
-- ---------------------------------------------------------------------------

/-- What the constructor makes: connections with numbers of their own, and no
call. -/
theorem construct_fresh {opened : List Bool} (h : construct opened = some s) :
    s.calls = [] ∧ s.committed = [] ∧ s.ids.Nodup ∧ ∀ id ∈ s.ids, id < s.made := by
  rw [construct, Option.ite_none_left_eq_some] at h
  obtain ⟨-, h⟩ := h
  obtain rfl := Option.some.inj h
  let conns : List Connection := (opened.zipIdx.filter Prod.fst).map fun made => ⟨made.2, made.1⟩
  have hids : ids { pool := conns, made := opened.length } =
      (opened.zipIdx.filter Prod.fst).map Prod.snd := by
    show (conns ++ []).map Connection.id = _
    rw [List.append_nil, List.map_map]
    rfl
  rw [hids]
  refine ⟨rfl, rfl, ?_, ?_⟩
  · refine (List.filter_sublist.map Prod.snd).nodup ?_
    rw [List.zipIdx_map_snd]
    exact List.nodup_range'
  · intro id hid
    obtain ⟨made, hmade, rfl⟩ := List.mem_map.mp hid
    have hlt := List.snd_lt_of_mem_zipIdx (List.mem_of_mem_filter hmade)
    omega

/-- The connections are all there, and nobody waits for one that nobody has. -/
structure Conserved (n : Nat) (s : DatabasePool) : Prop where
  capacity : s.capacity = n
  /-- `AcquireConnection` does not block -/
  noWait : s.checkedOut = [] → ∀ i t, s.step (.acquire i) = some t → t.calls[i]? ≠ some .waiting
  /-- a call that is still blocked is not the only one to come -/
  woken : s.checkedOut = [] → .waiting ∈ s.calls → .acquiring ∈ s.calls

/-- **The capacity of the pool.** After any run of a pool built with some open
connections they are all idle or checked out, and no call waits while nobody has
one, exactly if no step of the run gave one away: no transaction ended with an
exception that is no `std::exception`, and every connection that broke was
replaced. -/
theorem pool_conserved_iff {opened : List Bool} (hs : construct opened = some s)
    (hopen : s.pool ≠ []) (hrun : run step s actions = some t) :
    Conserved s.pool.length t ↔ Along step KeepsConnection s actions := by
  obtain ⟨hcalls, -, -, -⟩ := construct_fresh hs
  have hcapacity : s.capacity = s.pool.length := by
    rw [capacity, checkedOut, hcalls]
    rfl
  have hnotified : t.Notified := by
    refine run_invariant (P := Notified) (fun u b v hu hstep => notified_step hu hstep) hrun ?_
    intro hwait
    rw [hcalls] at hwait
    exact nomatch hwait
  rw [← capacity_run hrun, hcapacity]
  constructor
  · exact fun h => h.capacity
  · intro hfull
    have hidle : t.checkedOut = [] → 0 < t.pool.length := by
      intro hnone
      have hpos := List.length_pos_iff.mpr hopen
      rw [capacity, hnone, List.length_nil] at hfull
      omega
    refine ⟨hfull, ?_, ?_⟩
    · intro hnone i u hstep hwait
      have hpool := List.length_pos_iff.mp (hidle hnone)
      cases step_moves hstep with
      | wait i hcall hempty => exact hpool hempty
      | take i conn rest hcall htaken =>
        obtain ⟨hi, -⟩ := List.getElem?_eq_some_iff.mp hcall
        have hat : (t.calls.set i (.running conn))[i]? = some (.running conn) :=
          List.getElem?_set_self hi
        exact nomatch hat.symm.trans hwait
    · intro hnone hwait
      have hle := hnotified hwait
      have hpos := hidle hnone
      obtain ⟨c, hc, hacquiring⟩ := List.countP_pos_iff.mp (hpos.trans_le hle)
      exact of_decide_eq_true hacquiring ▸ hc

/-- Two calls after each other: the first one's connection breaks and is replaced. -/
def brokenAndReplaced : List PoolStep :=
  [.call, .acquire 0, .logic 0 .brokenConnection false, .release 0 .connected none,
    .call, .acquire 1, .logic 1 .committed true, .release 1 .connected none]

/-- The transaction throws an `int`, and the next call comes. -/
def foreignThrow : List PoolStep :=
  [.call, .acquire 0, .logic 0 .foreignException true, .call, .acquire 1]

/-- A pool of one connection. -/
def onePool : DatabasePool := { pool := [⟨0, true⟩], made := 1 }

theorem construct_one : construct [true] = some onePool := rfl

/-- A replacement in time. -/
theorem pool_conserved_iff_replaced : ∃ t, run step onePool brokenAndReplaced = some t ∧
    (Conserved onePool.pool.length t ↔ Along step KeepsConnection onePool brokenAndReplaced) := by
  have hend : (run step onePool brokenAndReplaced).isSome = true := by decide
  obtain ⟨t, hrun⟩ := Option.isSome_iff_exists.mp hend
  exact ⟨t, hrun, pool_conserved_iff construct_one (by decide) hrun⟩

/-- **A thrown `int` empties the pool**: nobody has a connection, and the next call
waits for ever. -/
theorem foreign_throw_leaks : ∃ t, construct [true] = some onePool ∧
    run step onePool foreignThrow = some t ∧ t.checkedOut = [] ∧
    t.calls[1]? = some .waiting ∧ ¬ Conserved onePool.pool.length t := by
  have hend : ((run step onePool foreignThrow).any fun t =>
      t.checkedOut = [] ∧ t.calls[1]? = some .waiting ∧ t.capacity = 0) = true := by
    decide
  obtain ⟨t, hrun, ht⟩ := (Option.any_eq_true _ _).mp hend
  obtain ⟨hnone, hwait, hempty⟩ := of_decide_eq_true ht
  refine ⟨t, construct_one, hrun, hnone, hwait, ?_⟩
  intro h
  exact absurd (hempty.symm.trans h.capacity) (by decide)

/-- **Owners, bound and commits.** In any run of the pool no connection is held by
two calls or both held and idle, at most as many transactions are under way as
the pool had connections, and a call that returned has committed its transaction
once. -/
theorem pool_exclusive {opened : List Bool} (hs : construct opened = some s)
    (hrun : run step s actions = some t) :
    ((t.pool ++ t.checkedOut).map Connection.id).Nodup ∧
      t.checkedOut.length ≤ s.pool.length ∧
      ∀ i, t.calls[i]? = some .returned → t.committed.count i = 1 := by
  obtain ⟨hcalls, hcommitted, hnodup, hnumbered⟩ := construct_fresh hs
  have hcapacity : s.capacity = s.pool.length := by
    rw [capacity, checkedOut, hcalls]
    rfl
  have hexclusive : t.Exclusive := by
    refine run_invariant (P := Exclusive) (fun u b v hu hstep => exclusive_step hu hstep) hrun
      ⟨hnodup, hnumbered, ?_⟩
    intro i
    rw [hcalls, hcommitted]
    rfl
  have hbound : t.capacity ≤ s.capacity :=
    run_invariant (P := fun u => u.capacity ≤ s.capacity)
      (fun u b v hu hstep => (capacity_le hstep).trans hu) hrun le_rfl
  refine ⟨hexclusive.nodup, ?_, ?_⟩
  · rw [hcapacity, capacity] at hbound
    omega
  · intro i hreturned
    rw [hexclusive.commits i, hreturned]
    rfl

/-- A pool of two connections. -/
def twoPool : DatabasePool := { pool := [⟨0, true⟩, ⟨1, true⟩], made := 2 }

theorem construct_two : construct [true, true] = some twoPool := rfl

/-- Three calls at once: two take the connections, the third waits. The connection of the
second breaks and is replaced, that of the first goes to the third. -/
def threeAtOnce : List PoolStep :=
  [.call, .call, .call, .acquire 0, .acquire 1, .acquire 2, .logic 1 .brokenConnection false,
    .logic 0 .committed true, .release 0 .connected (some 2), .acquire 2,
    .release 1 .connected none, .logic 2 .committed true]

theorem pool_exclusive_overlapping :
    (∃ t, run step twoPool (threeAtOnce.take 6) = some t ∧
      t.checkedOut = [⟨0, true⟩, ⟨1, true⟩] ∧
      ((t.pool ++ t.checkedOut).map Connection.id).Nodup) ∧
    ∃ t, run step twoPool threeAtOnce = some t ∧ t.pool = [⟨3, true⟩] ∧
      t.checkedOut = [⟨0, true⟩] ∧ ((t.pool ++ t.checkedOut).map Connection.id).Nodup ∧
      t.committed.count 0 = 1 := by
  have hfull : ((run step twoPool (threeAtOnce.take 6)).any fun t =>
      t.checkedOut = [⟨0, true⟩, ⟨1, true⟩]) = true := by decide
  have hend : ((run step twoPool threeAtOnce).any fun t => t.pool = [⟨3, true⟩] ∧
      t.checkedOut = [⟨0, true⟩] ∧ t.calls[0]? = some .returned) = true := by decide
  obtain ⟨t, hrun, ht⟩ := (Option.any_eq_true _ _).mp hfull
  obtain ⟨u, hrun', hu⟩ := (Option.any_eq_true _ _).mp hend
  obtain ⟨hpool, hout, hreturned⟩ := of_decide_eq_true hu
  obtain ⟨hnodup, -, hcommits⟩ := pool_exclusive construct_two hrun'
  exact ⟨⟨t, hrun, of_decide_eq_true ht, (pool_exclusive construct_two hrun).1⟩,
    u, hrun', hpool, hout, hnodup, hcommits 0 hreturned⟩

end DatabasePool

end DistTaskSystem
