import DistTaskSystem.Client.GrpcClient
import DistTaskSystem.Library.Parties

/-!
# DTS — submission from a coroutine

The web api submits with `submit_dag_co`. A coroutine, `AsyncSubmitBridge`, suspends on a
`GrpcAwaiter`, whose tag shares the completion queue of the client with the tags of
`submit_dag_async`; the thread that polls it (`CompleteRpc`) resumes the coroutine, and that
fulfils the promise of the waiting http thread and ends. The frame of the coroutine holds
a `shared_ptr` to the client, and whoever gives up the last one runs the destructor.

Of gRPC the model keeps what `GrpcClient` keeps; the tags of `submit_dag_async` look like a
time-out here. A thread that joins itself throws, and as it does so in a destructor the
process is aborted.

## Results

* `references_set` — the references after a frame was replaced.
* `step_moves`     — a step is one of the moves of the code.
-/

namespace DistTaskSystem

-- ---------------------------------------------------------------------------
-- One call
-- ---------------------------------------------------------------------------

/-- What gRPC reports about a call of `Finish`. -/
structure RpcReport where
  ok : Bool
  response : SubmitDagResponse
  status : GrpcStatus

/-- What is thrown out of `await_resume`: a `GrpcError` with its status, or a
`std::runtime_error`. -/
inductive RpcException where
  | grpcError (status : GrpcStatus)
  | runtimeError (what : String)
deriving DecidableEq, Repr

/-- The number of a `grpc::StatusCode`. -/
def StatusCode.toNat : StatusCode → Nat
  | .ok => 0
  | .cancelled => 1
  | .unknown => 2
  | .invalidArgument => 3
  | .deadlineExceeded => 4
  | .notFound => 5
  | .alreadyExists => 6
  | .permissionDenied => 7
  | .resourceExhausted => 8
  | .failedPrecondition => 9
  | .aborted => 10
  | .outOfRange => 11
  | .unimplemented => 12
  | .internal => 13
  | .unavailable => 14
  | .dataLoss => 15
  | .unauthenticated => 16

/-- `GrpcError::FormatMessage`, of a status without details. -/
def formatMessage (status : GrpcStatus) : String :=
  let code := toString status.code.toNat
  "gRPC Error: Code=" ++ code ++ " (" ++ code ++ ") | Msg=\"" ++ status.message ++ "\""

def RpcException.what : RpcException → String
  | .grpcError status => formatMessage status
  | .runtimeError what => what

abbrev RpcResult := Except RpcException SubmitDagResponse

structure GrpcAwaiter where
  response : SubmitDagResponse := { body := "" }
  status : GrpcStatus := {}

namespace GrpcAwaiter

variable (c : GrpcAwaiter)

/-- `Proceed`, up to the call of `resume`. -/
def proceed (ok : Bool) : GrpcAwaiter :=
  if ok = false ∧ c.status.code = .ok then
    { c with status := ⟨.internal, "CompletionQueue Shutdown"⟩ }
  else c

def awaitResume : RpcResult :=
  if c.status.code ≠ .ok then .error (.grpcError c.status)
  else match c.response.header.error with
    | some err => .error (.runtimeError ("Server Rejected: " ++ err.msg))
    | none => .ok c.response

end GrpcAwaiter

/-- A frame of `AsyncSubmitBridge`, with its awaiter. -/
structure AsyncSubmitBridge where
  awaiter : GrpcAwaiter := {}
  /-- the calls of `Finish` gRPC has not reported -/
  pending : Nat := 0
  /-- what the promise was fulfilled with -/
  promise : List RpcResult := []
  /-- the frame, and the reference to the client in it, are there -/
  alive : Bool := true
  /-- the calls of `Finish` and of `resume`, what gRPC reported, and the ends of the frame:
  kept for the statements, no function reads them -/
  finishes : Nat := 0
  resumes : Nat := 0
  reports : List RpcReport := []
  ends : Nat := 0

namespace AsyncSubmitBridge

variable (c : AsyncSubmitBridge)

/-- The coroutine goes on behind `co_await`: the result or the exception goes to the
promise. -/
def resume : AsyncSubmitBridge :=
  { c with promise := c.promise ++ [c.awaiter.awaitResume], resumes := c.resumes + 1 }

/-- The coroutine ends: nothing keeps its frame. -/
def finalSuspend : AsyncSubmitBridge := { c with alive := false, ends := c.ends + 1 }

/-- The coroutine up to `await_suspend`. If there is no reader it is resumed on the spot. -/
def awaitSuspend (reader : Bool) : AsyncSubmitBridge :=
  if reader then { pending := 1, finishes := 1 }
  else
    let frame : AsyncSubmitBridge :=
      { awaiter := { status := ⟨.unavailable, "Failed to init RPC"⟩ } }
    frame.resume.finalSuspend

/-- gRPC has written the response and the status. -/
def report (r : RpcReport) : AsyncSubmitBridge :=
  { c with
    awaiter := ⟨r.response, r.status⟩
    pending := c.pending - 1
    reports := c.reports ++ [r] }

/-- `Proceed(ok)`. -/
def proceed (ok : Bool) : AsyncSubmitBridge := { c with awaiter := c.awaiter.proceed ok }.resume

end AsyncSubmitBridge

-- ---------------------------------------------------------------------------
-- The client
-- ---------------------------------------------------------------------------

/-- Where the thread that polls the queue stands. -/
inductive ResumePoint where
  /-- at the test of `shutdown_` -/
  | testing
  /-- in `AsyncNext` -/
  | polling
  /-- at `Proceed(ok)` -/
  | proceeding (tag : Nat) (ok : Bool)
  /-- in the coroutine, behind `set_value` -/
  | returning (tag : Nat)
  /-- in the destructor of the client -/
  | destroying
  | exited
deriving DecidableEq, Repr

def ResumePoint.tag? : ResumePoint → Option Nat
  | .proceeding tag _ => some tag
  | .returning tag => some tag
  | _ => none

structure CoroutineClient where
  /-- the `shared_ptr`s outside of the frames -/
  owners : Nat
  /-- `shutdown_` -/
  shutdown : Bool := false
  poll : ResumePoint := .testing
  destructor : ClientDestructor := .notCalled
  /-- `std::terminate` -/
  aborted : Bool := false
  /-- the frames, those that have ended included -/
  frames : List AsyncSubmitBridge := []

inductive CoroutineAction where
  /-- an owner starts an `AsyncSubmitBridge`; `PrepareAsync` may give no reader -/
  | submit (reader : Bool)
  /-- an owner copies its `shared_ptr`, -/
  | copy
  /-- or gives it up -/
  | drop
  | test
  /-- `AsyncNext` returns GOT_EVENT -/
  | event (tag : Nat) (r : RpcReport)
  /-- it returns TIMEOUT -/
  | timeout
  /-- it returns SHUTDOWN -/
  | drained
  /-- `Proceed`, up to the end of `set_value` -/
  | resume
  /-- the coroutine ends -/
  | finalSuspend
  /-- the destructor sets `shutdown_`, -/
  | setShutdown
  /-- shuts the queue down -/
  | shutdownQueue
  /-- and joins the thread -/
  | join

namespace CoroutineClient

/-- The client, and the `shared_ptr`s to it. -/
def construct (owners : Nat) : CoroutineClient := { owners := owners }

/-- The reference count. -/
def references (s : CoroutineClient) : Nat := s.owners + s.frames.countP AsyncSubmitBridge.alive

def step (s : CoroutineClient) (a : CoroutineAction) : Option CoroutineClient :=
  if s.aborted then none
  else match a with
  | .submit reader =>
    if 0 < s.owners then some { s with frames := s.frames ++ [.awaitSuspend reader] } else none
  | .copy => if 0 < s.owners then some { s with owners := s.owners + 1 } else none
  | .drop => if 0 < s.owners then some { s with owners := s.owners - 1 } else none
  | .test =>
    if s.poll = .testing then
      some { s with poll := if s.shutdown then .exited else .polling }
    else none
  | .event tag r =>
    match s.frames[tag]? with
    | none => none
    | some c =>
      if s.poll = .polling ∧ 0 < c.pending then
        some { s with poll := .proceeding tag r.ok, frames := s.frames.set tag (c.report r) }
      else none
  | .timeout => if s.poll = .polling then some { s with poll := .testing } else none
  | .drained =>
    if s.poll = .polling ∧ s.destructor = .joining ∧ ∀ c ∈ s.frames, c.pending = 0 then
      some { s with poll := .exited }
    else none
  | .resume =>
    match s.poll with
    | .proceeding tag ok => (s.frames[tag]?).map fun c =>
      { s with poll := .returning tag, frames := s.frames.set tag (c.proceed ok) }
    | _ => none
  | .finalSuspend =>
    match s.poll with
    | .returning tag => (s.frames[tag]?).map fun c =>
      let s := { s with frames := s.frames.set tag c.finalSuspend }
      -- the last reference may be the one in the frame
      { s with poll := if s.references = 0 then .destroying else .testing }
    | _ => none
  | .setShutdown =>
    if s.references = 0 ∧ s.destructor = .notCalled then
      some { s with shutdown := true, destructor := .flagged }
    else none
  | .shutdownQueue =>
    if s.destructor = .flagged then some { s with destructor := .joining } else none
  | .join =>
    if s.destructor = .joining then
      match s.poll with
      | .exited => some { s with destructor := .returned }
      | .destroying => some { s with aborted := true }
      | _ => none
    else none

-- ---------------------------------------------------------------------------
-- What a step does
-- ---------------------------------------------------------------------------

variable {s t : CoroutineClient}

theorem references_set {tag : Nat} {c c' : AsyncSubmitBridge} (hc : s.frames[tag]? = some c)
    (p : ResumePoint) : references { s with poll := p, frames := s.frames.set tag c' } +
      c.alive.toNat = s.references + c'.alive.toNat := by
  have hcount := Parties.countP_set (x := c') AsyncSubmitBridge.alive hc
  unfold references
  dsimp only
  cases hold : c.alive <;> cases hnew : c'.alive <;>
    simp only [hold, hnew, Bool.toNat_true, Bool.toNat_false, if_true, Bool.false_eq_true,
      if_false] at hcount ⊢ <;> omega

/-- The moves of the client, its owners and its coroutines. -/
inductive Moves (s : CoroutineClient) : CoroutineAction → CoroutineClient → Prop
  | submit (reader : Bool) (howner : 0 < s.owners) :
      Moves s (.submit reader) { s with frames := s.frames ++ [.awaitSuspend reader] }
  | copy (howner : 0 < s.owners) : Moves s .copy { s with owners := s.owners + 1 }
  | drop (howner : 0 < s.owners) : Moves s .drop { s with owners := s.owners - 1 }
  | test (p : ResumePoint) (hpoll : s.poll = .testing)
      (hp : p = if s.shutdown then .exited else .polling) : Moves s .test { s with poll := p }
  | event (tag : Nat) (r : RpcReport) (c : AsyncSubmitBridge) (hc : s.frames[tag]? = some c)
      (hpoll : s.poll = .polling) (hpending : 0 < c.pending) :
      Moves s (.event tag r)
        { s with poll := .proceeding tag r.ok, frames := s.frames.set tag (c.report r) }
  | timeout (hpoll : s.poll = .polling) : Moves s .timeout { s with poll := .testing }
  | drained (hpoll : s.poll = .polling) (hdestructor : s.destructor = .joining)
      (hempty : ∀ c ∈ s.frames, c.pending = 0) : Moves s .drained { s with poll := .exited }
  | resume (tag : Nat) (ok : Bool) (c : AsyncSubmitBridge) (hc : s.frames[tag]? = some c)
      (hpoll : s.poll = .proceeding tag ok) :
      Moves s .resume
        { s with poll := .returning tag, frames := s.frames.set tag (c.proceed ok) }
  | finalSuspend (tag : Nat) (c : AsyncSubmitBridge) (p : ResumePoint)
      (hc : s.frames[tag]? = some c) (hpoll : s.poll = .returning tag)
      (hp : p = if references { s with frames := s.frames.set tag c.finalSuspend } = 0
        then .destroying else .testing) :
      Moves s .finalSuspend { s with poll := p, frames := s.frames.set tag c.finalSuspend }
  | setShutdown (hnone : s.references = 0) (hdestructor : s.destructor = .notCalled) :
      Moves s .setShutdown { s with shutdown := true, destructor := .flagged }
  | shutdownQueue (hdestructor : s.destructor = .flagged) :
      Moves s .shutdownQueue { s with destructor := .joining }
  | join (hdestructor : s.destructor = .joining) (hpoll : s.poll = .exited) :
      Moves s .join { s with destructor := .returned }
  | selfJoin (hdestructor : s.destructor = .joining) (hpoll : s.poll = .destroying) :
      Moves s .join { s with aborted := true }

/-- Nothing is done after an abort. -/
theorem not_aborted {a : CoroutineAction} (h : s.step a = some t) : s.aborted = false := by
  by_contra haborted
  rw [Bool.not_eq_false] at haborted
  unfold step at h
  rw [if_pos haborted] at h
  exact nomatch h

/-- **Inversion.** A step is one of the moves. -/
theorem step_moves {a : CoroutineAction} (h : s.step a = some t) : Moves s a t := by
  have hfine := not_aborted h
  unfold step at h
  rw [if_neg (by rw [hfine]; exact Bool.false_ne_true)] at h
  cases a with
  | submit reader =>
    dsimp only at h
    rw [Option.ite_none_right_eq_some] at h
    exact Option.some.inj h.2 ▸ .submit reader h.1
  | copy =>
    dsimp only at h
    rw [Option.ite_none_right_eq_some] at h
    exact Option.some.inj h.2 ▸ .copy h.1
  | drop =>
    dsimp only at h
    rw [Option.ite_none_right_eq_some] at h
    exact Option.some.inj h.2 ▸ .drop h.1
  | test =>
    dsimp only at h
    rw [Option.ite_none_right_eq_some] at h
    exact Option.some.inj h.2 ▸ .test _ h.1 rfl
  | event tag r =>
    dsimp only at h
    split at h
    · exact nomatch h
    · next c hc =>
      rw [Option.ite_none_right_eq_some] at h
      obtain ⟨⟨hpoll, hpending⟩, h⟩ := h
      exact Option.some.inj h ▸ .event tag r c hc hpoll hpending
  | timeout =>
    dsimp only at h
    rw [Option.ite_none_right_eq_some] at h
    exact Option.some.inj h.2 ▸ .timeout h.1
  | drained =>
    dsimp only at h
    rw [Option.ite_none_right_eq_some] at h
    obtain ⟨⟨hpoll, hdestructor, hempty⟩, h⟩ := h
    exact Option.some.inj h ▸ .drained hpoll hdestructor hempty
  | resume =>
    dsimp only at h
    split at h
    · next tag ok hpoll =>
      obtain ⟨c, hc, rfl⟩ := Option.map_eq_some_iff.mp h
      exact .resume tag ok c hc hpoll
    · exact nomatch h
  | finalSuspend =>
    dsimp only at h
    split at h
    · next tag hpoll =>
      obtain ⟨c, hc, rfl⟩ := Option.map_eq_some_iff.mp h
      exact .finalSuspend tag c _ hc hpoll rfl
    · exact nomatch h
  | setShutdown =>
    dsimp only at h
    rw [Option.ite_none_right_eq_some] at h
    obtain ⟨⟨hnone, hdestructor⟩, h⟩ := h
    exact Option.some.inj h ▸ .setShutdown hnone hdestructor
  | shutdownQueue =>
    dsimp only at h
    rw [Option.ite_none_right_eq_some] at h
    exact Option.some.inj h.2 ▸ .shutdownQueue h.1
  | join =>
    dsimp only at h
    rw [Option.ite_none_right_eq_some] at h
    obtain ⟨hdestructor, h⟩ := h
    split at h
    · next hpoll => exact Option.some.inj h ▸ .join hdestructor hpoll
    · next hpoll => exact Option.some.inj h ▸ .selfJoin hdestructor hpoll
    · exact nomatch h

end CoroutineClient

end DistTaskSystem
