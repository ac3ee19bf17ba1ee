import DistTaskSystem.Common.ApiMessages
import Mathlib.Data.List.Basic

/-!
# DTS — asynchronous submission

`submit_dag_async` starts a call with a tag on the heap, an `AsyncDagSubmitTag`, and
returns the future of its promise. One thread polls the completion queue
(`CompleteRpc`) and hands what comes out of it to the tag, which fulfils the promise
and deletes itself. The destructor stops that thread.

Of gRPC the model keeps that each call of `Finish` is reported by at most one event with
its tag, at any time and with either flag, and that a queue that was shut down answers
SHUTDOWN once nothing is left in it. `StartCall` takes no tag and is not reported. The tags
of `submit_dag_co`, which share the queue, look like a time-out here.

## Results

* `setResult_promise` — the first result fulfils the promise.
* `step_moves`        — a step is one of the moves of the code.
-/

namespace DistTaskSystem

/-- `grpc::StatusCode`. -/
inductive StatusCode where
  | ok
  | cancelled
  | unknown
  | invalidArgument
  | deadlineExceeded
  | notFound
  | alreadyExists
  | permissionDenied
  | resourceExhausted
  | failedPrecondition
  | aborted
  | outOfRange
  | unimplemented
  | internal
  | unavailable
  | dataLoss
  | unauthenticated
deriving DecidableEq, Repr

/-- `grpc::Status`, and the `GrpcError` made of one. -/
structure GrpcStatus where
  code : StatusCode := .ok
  message : String := ""
deriving DecidableEq, Repr

/-- `step_` of a tag. -/
inductive TagStep where
  | launch
  | finish
deriving DecidableEq, Repr

structure AsyncDagSubmitTag where
  step : TagStep := .launch
  response : SubmitDagResponse := { body := "" }
  status : GrpcStatus := {}
  hasCallback : Bool
  /-- `once_` has been passed -/
  once : Bool := false
  /-- the calls of `Finish` gRPC has not reported -/
  pending : Nat := 0
  /-- the calls of `Finish` and the deletions: kept for the statements, no function
  reads them -/
  finishes : Nat := 0
  deletes : Nat := 0
  /-- what the promise was fulfilled with -/
  promise : List (Except GrpcStatus SubmitDagResponse) := []
  /-- what the callback was called with -/
  callbacks : List (SubmitDagResponse × GrpcStatus) := []

namespace AsyncDagSubmitTag

variable (c : AsyncDagSubmitTag)

/-- `reader->Finish(&response, &status, this)`. -/
def callFinish : AsyncDagSubmitTag :=
  { c with pending := c.pending + 1, finishes := c.finishes + 1 }

/-- `delete this`. -/
def delete : AsyncDagSubmitTag := { c with deletes := c.deletes + 1 }

/-- `status = grpc::Status(...)`. -/
def setStatus (status : GrpcStatus) : AsyncDagSubmitTag := { c with status := status }

/-- The body of `std::call_once`: the promise, then the callback. -/
def fulfil (status : GrpcStatus) (result : Except GrpcStatus SubmitDagResponse)
    (response : SubmitDagResponse) : AsyncDagSubmitTag :=
  { c with
    once := true
    status := status
    promise := c.promise ++ [result]
    callbacks := if c.hasCallback then c.callbacks ++ [(response, status)] else c.callbacks }

/-- `SetResult`. -/
def setResult : AsyncDagSubmitTag :=
  if c.once then c
  else if c.status.code = .ok then
    match c.response.header.error with
    | some err =>
      let status : GrpcStatus := ⟨.failedPrecondition, "BizError: " ++ err.msg⟩
      c.fulfil status (.error status) c.response
    | none => c.fulfil c.status (.ok c.response) c.response
  else c.fulfil c.status (.error c.status) { body := "" }

/-- `ProceedImpl`. -/
def proceedImpl (ok : Bool) : AsyncDagSubmitTag :=
  match c.step with
  | .launch =>
    if ok then { c with step := .finish }.callFinish
    else (c.setStatus ⟨.internal, "Failed to start RPC call"⟩).setResult.delete
  | .finish =>
    if ok then c.setResult.delete
    else (c.setStatus ⟨.internal, "RPC finished with !ok (CQ shutdown?)"⟩).setResult.delete

/-- The first call fulfils the promise. -/
theorem setResult_promise (honce : c.once = false) :
    c.setResult.promise.length = c.promise.length + 1 ∧ c.setResult.pending = c.pending ∧
      c.setResult.finishes = c.finishes ∧ c.setResult.deletes = c.deletes := by
  unfold setResult
  rw [if_neg (by rw [honce]; exact Bool.false_ne_true)]
  split
  · split <;> exact ⟨List.length_append, rfl, rfl, rfl⟩
  · exact ⟨List.length_append, rfl, rfl, rfl⟩

end AsyncDagSubmitTag

-- ---------------------------------------------------------------------------
-- The client
-- ---------------------------------------------------------------------------

/-- Where `CompleteRpc` stands. -/
inductive PollPoint where
  /-- at the test of `shutdown_` -/
  | testing
  /-- in `AsyncNext` -/
  | polling
  /-- at `Proceed(ok)` -/
  | proceeding (tag : Nat) (ok : Bool)
  | exited
deriving DecidableEq, Repr

def PollPoint.tag? : PollPoint → Option Nat
  | .proceeding tag _ => some tag
  | _ => none

/-- Where the destructor stands. -/
inductive ClientDestructor where
  | notCalled
  /-- `shutdown_` is set -/
  | flagged
  /-- `cq_` is shut down -/
  | joining
  | returned
deriving DecidableEq, Repr

structure GrpcClient where
  /-- `stub_` is set -/
  stub : Bool
  /-- `shutdown_` -/
  shutdown : Bool := false
  poll : PollPoint := .testing
  destructor : ClientDestructor := .notCalled
  /-- the tags, those that were deleted included -/
  calls : List AsyncDagSubmitTag := []
  /-- the calls without a tag: what the promise was fulfilled with, and what the callback
  was called with -/
  refused : List (Except GrpcStatus SubmitDagResponse × Option (SubmitDagResponse × GrpcStatus)) :=
    []

inductive ClientAction where
  /-- a thread calls `submit_dag_async` -/
  | submit (hasCallback : Bool)
  | test
  /-- `AsyncNext` returns GOT_EVENT; gRPC has written the response and the status -/
  | event (tag : Nat) (ok : Bool) (response : SubmitDagResponse) (status : GrpcStatus)
  /-- it returns TIMEOUT -/
  | timeout
  /-- it returns SHUTDOWN -/
  | drained
  | proceed
  /-- the destructor sets `shutdown_`, -/
  | setShutdown
  /-- shuts the queue down -/
  | shutdownQueue
  /-- and joins the thread -/
  | join

namespace GrpcClient

/-- The constructors. -/
def construct : GrpcClient := { stub := true }

/-- `submit_dag_async`. -/
def submitDagAsync (s : GrpcClient) (hasCallback : Bool) : GrpcClient :=
  if s.stub then
    { s with calls := s.calls ++ [{ hasCallback := hasCallback : AsyncDagSubmitTag }.callFinish] }
  else
    { s with refused := s.refused ++ [(.error ⟨.unavailable, "stub_ is null"⟩,
        if hasCallback then some ({ body := "" }, ⟨.unavailable, "stub_ null"⟩) else none)] }

/-- gRPC reports a call of `Finish`. -/
def report (c : AsyncDagSubmitTag) (response : SubmitDagResponse) (status : GrpcStatus) :
    AsyncDagSubmitTag :=
  { c with pending := c.pending - 1, response := response, status := status }

def step (s : GrpcClient) : ClientAction → Option GrpcClient
  | .submit hasCallback =>
    -- nobody calls a client that is being destroyed
    if s.destructor = .notCalled then some (s.submitDagAsync hasCallback) else none
  | .test =>
    if s.poll = .testing then
      some { s with poll := if s.shutdown then .exited else .polling }
    else none
  | .event tag ok response status =>
    match s.calls[tag]? with
    | none => none
    | some c =>
      if s.poll = .polling ∧ 0 < c.pending then
        some { s with
          poll := .proceeding tag ok
          calls := s.calls.set tag (report c response status) }
      else none
  | .timeout => if s.poll = .polling then some { s with poll := .testing } else none
  | .drained =>
    if s.poll = .polling ∧ s.destructor = .joining ∧ ∀ c ∈ s.calls, c.pending = 0 then
      some { s with poll := .exited }
    else none
  | .proceed =>
    match s.poll with
    | .proceeding tag ok => (s.calls[tag]?).map fun c =>
      { s with poll := .testing, calls := s.calls.set tag (c.proceedImpl ok) }
    | _ => none
  | .setShutdown =>
    if s.destructor = .notCalled then some { s with shutdown := true, destructor := .flagged }
    else none
  | .shutdownQueue =>
    if s.destructor = .flagged then some { s with destructor := .joining } else none
  | .join =>
    if s.destructor = .joining ∧ s.poll = .exited then some { s with destructor := .returned }
    else none

-- ---------------------------------------------------------------------------
-- What a step does
-- ---------------------------------------------------------------------------

variable {s t : GrpcClient}

/-- The moves of the client. -/
inductive Moves (s : GrpcClient) : ClientAction → GrpcClient → Prop
  | submit (hasCallback : Bool) (hdestructor : s.destructor = .notCalled) :
      Moves s (.submit hasCallback) (s.submitDagAsync hasCallback)
  | test (p : PollPoint) (hpoll : s.poll = .testing)
      (hp : p = if s.shutdown then .exited else .polling) :
      Moves s .test { s with poll := p }
  | event (tag : Nat) (ok : Bool) (response : SubmitDagResponse) (status : GrpcStatus)
      (c : AsyncDagSubmitTag) (hc : s.calls[tag]? = some c) (hpoll : s.poll = .polling)
      (hpending : 0 < c.pending) :
      Moves s (.event tag ok response status) { s with
        poll := .proceeding tag ok
        calls := s.calls.set tag (report c response status) }
  | timeout (hpoll : s.poll = .polling) : Moves s .timeout { s with poll := .testing }
  | drained (hpoll : s.poll = .polling) (hdestructor : s.destructor = .joining)
      (hempty : ∀ c ∈ s.calls, c.pending = 0) : Moves s .drained { s with poll := .exited }
  | proceed (tag : Nat) (ok : Bool) (c : AsyncDagSubmitTag) (hc : s.calls[tag]? = some c)
      (hpoll : s.poll = .proceeding tag ok) :
      Moves s .proceed
        { s with poll := .testing, calls := s.calls.set tag (c.proceedImpl ok) }
  | setShutdown (hdestructor : s.destructor = .notCalled) :
      Moves s .setShutdown { s with shutdown := true, destructor := .flagged }
  | shutdownQueue (hdestructor : s.destructor = .flagged) :
      Moves s .shutdownQueue { s with destructor := .joining }
  | join (hdestructor : s.destructor = .joining) (hpoll : s.poll = .exited) :
      Moves s .join { s with destructor := .returned }

/-- **Inversion.** A step of the client is one of its moves. -/
theorem step_moves {a : ClientAction} (h : s.step a = some t) : Moves s a t := by
  cases a with
  | submit hasCallback =>
    rw [step, Option.ite_none_right_eq_some] at h
    obtain ⟨hdestructor, h⟩ := h
    exact Option.some.inj h ▸ .submit hasCallback hdestructor
  | test =>
    rw [step, Option.ite_none_right_eq_some] at h
    obtain ⟨hpoll, h⟩ := h
    exact Option.some.inj h ▸ .test _ hpoll rfl
  | event tag ok response status =>
    rw [step] at h
    split at h
    · exact nomatch h
    · next c hc =>
      rw [Option.ite_none_right_eq_some] at h
      obtain ⟨⟨hpoll, hpending⟩, h⟩ := h
      exact Option.some.inj h ▸ .event tag ok response status c hc hpoll hpending
  | timeout =>
    rw [step, Option.ite_none_right_eq_some] at h
    obtain ⟨hpoll, h⟩ := h
    exact Option.some.inj h ▸ .timeout hpoll
  | drained =>
    rw [step, Option.ite_none_right_eq_some] at h
    obtain ⟨⟨hpoll, hdestructor, hempty⟩, h⟩ := h
    exact Option.some.inj h ▸ .drained hpoll hdestructor hempty
  | proceed =>
    rw [step] at h
    split at h
    · next tag ok hpoll =>
      obtain ⟨c, hc, rfl⟩ := Option.map_eq_some_iff.mp h
      exact .proceed tag ok c hc hpoll
    · exact nomatch h
  | setShutdown =>
    rw [step, Option.ite_none_right_eq_some] at h
    obtain ⟨hdestructor, h⟩ := h
    exact Option.some.inj h ▸ .setShutdown hdestructor
  | shutdownQueue =>
    rw [step, Option.ite_none_right_eq_some] at h
    obtain ⟨hdestructor, h⟩ := h
    exact Option.some.inj h ▸ .shutdownQueue hdestructor
  | join =>
    rw [step, Option.ite_none_right_eq_some] at h
    obtain ⟨⟨hdestructor, hpoll⟩, h⟩ := h
    exact Option.some.inj h ▸ .join hdestructor hpoll

end GrpcClient

end DistTaskSystem
