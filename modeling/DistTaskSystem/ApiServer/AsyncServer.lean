import DistTaskSystem.Common.ApiMessages
import Mathlib.Data.List.Basic

/-!
# DTS — the asynchronous server

`AsyncServer` has one thread for each completion queue. The tag of an event is an
`AsyncCallContext`, and `Proceed` is its state machine: a context is registered for one
request, answers it, puts a new context in its place and frees itself when its
response has been sent.

Of gRPC the model keeps what the code relies on: an event answers one operation that was
started with its tag, comes out of the queue of the context, and is taken by `Next`. A
context is found by its index; those that were freed stay in the list, so that a use of
one can be seen.

## Results

* `fillSysError_header` — an error that the server fills in has a request id.
* `step_moves`          — a step is one of the moves of the code.
-/

namespace DistTaskSystem

-- ---------------------------------------------------------------------------
-- Handlers
-- ---------------------------------------------------------------------------

/-- The rpcs of `TaskService` the server registers contexts for. -/
inductive ApiMethod where
  | submitDag
  | getJobStatus
deriving DecidableEq, Repr

/-- How a registered handler ends. -/
inductive HandlerEnd where
  | returned
  /-- a `std::exception`, with its `what` -/
  | threw (what : String)
  | threwUnknown
deriving DecidableEq, Repr

/-- A handler fills in the response, and returns or throws. -/
abbrev ApiHandler (Body : Type) := ApiResponse Body → ApiResponse Body × HandlerEnd

section Execute

variable {Body : Type}

/-- `FillSysError`; `now` is `std::time`. -/
def fillSysError (resp : ApiResponse Body) (code : ErrorCode) (msg : String) (now : Nat) :
    ApiResponse Body :=
  { resp with header := {
      error := some ⟨some code, msg⟩
      requestId :=
        if resp.header.requestId = "" then "gen-" ++ toString now else resp.header.requestId } }

/-- `SafeExecute`. -/
def safeExecute (handler : Option (ApiHandler Body)) (now : Nat) (response : ApiResponse Body) :
    ApiResponse Body :=
  match handler with
  | some handler =>
    match handler response with
    | (response, .returned) => response
    | (response, .threw what) => fillSysError response .sysInternal what now
    | (response, .threwUnknown) => fillSysError response .sysInternal "Unknown server error" now
  | none => fillSysError response .sysInternal "API handler not registered on server" now

/-- Whoever gets an error from the server can name the request. -/
theorem fillSysError_header (resp : ApiResponse Body) (code : ErrorCode) (msg : String)
    (now : Nat) : (fillSysError resp code msg now).header.requestId ≠ "" ∧
      (fillSysError resp code msg now).header.error = some ⟨some code, msg⟩ := by
  refine ⟨?_, rfl⟩
  unfold fillSysError
  dsimp only
  split
  · intro h
    have hempty := congrArg String.toList h
    simp at hempty
  · next hid => exact hid

end Execute

-- ---------------------------------------------------------------------------
-- Contexts and threads
-- ---------------------------------------------------------------------------

inductive CallStatus where
  | create
  | finish
deriving DecidableEq, Repr

/-- What gRPC was asked for with the tag of a context. -/
inductive TagOperation where
  /-- the request of a client: `setup_func_` -/
  | request
  /-- the sending of the response: `responder_.Finish` -/
  | response
deriving DecidableEq, Repr

/-- What has happened to a context: request events taken, calls of `Finish`, contexts
put in its place, response-sent events taken, deletions. -/
structure CallTally where
  accepted : Nat := 0
  finishes : Nat := 0
  replaced : Nat := 0
  sent : Nat := 0
  deletes : Nat := 0
deriving DecidableEq, Repr

structure AsyncCallContext (Body : Type) where
  method : ApiMethod
  /-- the queue it was created for -/
  cq : Nat
  status : CallStatus := .create
  /-- the operation gRPC has not reported yet -/
  operation : Option TagOperation := none
  response : ApiResponse Body
  /-- kept for the statements, no function reads it -/
  tally : CallTally := {}

/-- The constructor, with its call of `RequestNext`. -/
def AsyncCallContext.construct {Body : Type} [Inhabited Body] (method : ApiMethod) (cq : Nat) :
    AsyncCallContext Body where
  method := method
  cq := cq
  status := .create
  operation := some .request
  response := { body := default }

namespace AsyncCallContext

variable {Body : Type} (c : AsyncCallContext Body)

/-- gRPC has reported the request. -/
def requestTaken : AsyncCallContext Body :=
  { c with operation := none, tally := { c.tally with accepted := c.tally.accepted + 1 } }

/-- gRPC has reported that the response was sent, or could not be. -/
def responseTaken : AsyncCallContext Body :=
  { c with operation := none, tally := { c.tally with sent := c.tally.sent + 1 } }

/-- `status_ = CallStatus::FINISH`, and `responder_.Finish`. -/
def finish : AsyncCallContext Body :=
  { c with
    status := .finish
    operation := some .response
    tally := { c.tally with finishes := c.tally.finishes + 1 } }

/-- The context has created its successor. -/
def succeeded : AsyncCallContext Body :=
  { c with tally := { c.tally with replaced := c.tally.replaced + 1 } }

/-- `delete this`. -/
def delete : AsyncCallContext Body :=
  { c with tally := { c.tally with deletes := c.tally.deletes + 1 } }

end AsyncCallContext

/-- Where the thread of a queue stands. -/
inductive DriverPoint where
  /-- in `cq->Next` -/
  | next
  /-- at the beginning of `Proceed(ok)` -/
  | proceed (tag : Nat) (ok : Bool)
  /-- at `proceed_(this)` -/
  | execute (tag : Nat)
  /-- behind it -/
  | finish (tag : Nat)
  /-- behind `Finish`, before the new context -/
  | replace (tag : Nat)
deriving DecidableEq, Repr

/-- The context whose `Proceed` a thread is in. -/
def DriverPoint.tag? : DriverPoint → Option Nat
  | .next => none
  | .proceed tag _ => some tag
  | .execute tag => some tag
  | .finish tag => some tag
  | .replace tag => some tag

structure AsyncServer (Body : Type) where
  /-- `submit_task_` and `get_job_status_` are set -/
  registered : ApiMethod → Bool
  contexts : List (AsyncCallContext Body)
  /-- the thread of each completion queue -/
  threads : List DriverPoint

inductive ServerAction (Body : Type) where
  /-- `Next` returns the tag of a context in the thread of its queue -/
  | event (tag : Nat) (ok : Bool)
  /-- the i-th thread goes on: it looks at `ok` and `status_`, -/
  | proceed (i : Nat)
  /-- comes back from the handler, -/
  | execute (i : Nat) (handler : ApiHandler Body) (now : Nat)
  /-- calls `Finish`, -/
  | finish (i : Nat)
  /-- and creates the next context -/
  | replace (i : Nat)

namespace AsyncServer

variable {Body : Type} [Inhabited Body]

/-- `Run`: without `submit_task_` the process is aborted. `concurrencyFactor` comes from
the environment and may be negative. -/
def run (registered : ApiMethod → Bool) (concurrencyFactor : Int) (cqCount : Nat) :
    Option (AsyncServer Body) :=
  if registered .submitDag then
    some {
      registered := registered
      contexts := (List.range concurrencyFactor.toNat).flatMap fun i =>
        [.construct .submitDag (i % cqCount), .construct .getJobStatus (i % cqCount)]
      threads := List.replicate cqCount .next }
  else none

/-- A thread goes on, and its context with it. -/
def move (s : AsyncServer Body) (i : Nat) (p : DriverPoint) (tag : Nat)
    (c : AsyncCallContext Body) : AsyncServer Body :=
  { s with contexts := s.contexts.set tag c, threads := s.threads.set i p }

/-- `proceed_(this)`. -/
def execute (s : AsyncServer Body) (handler : ApiHandler Body) (now : Nat)
    (c : AsyncCallContext Body) : AsyncCallContext Body :=
  { c with response :=
      safeExecute (if s.registered c.method then some handler else none) now c.response }

/-- `new AsyncCallContext`. -/
def create (s : AsyncServer Body) (method : ApiMethod) (cq : Nat) : AsyncServer Body :=
  { s with contexts := s.contexts ++ [.construct method cq] }

def step (s : AsyncServer Body) : ServerAction Body → Option (AsyncServer Body)
  | .event tag ok =>
    match s.contexts[tag]? with
    | none => none
    | some c =>
      match s.threads[c.cq]?, c.operation with
      | some .next, some .request =>
        -- `ok` is false only when the server is shut down
        if ok then some (s.move c.cq (.proceed tag true) tag c.requestTaken) else none
      | some .next, some .response => some (s.move c.cq (.proceed tag ok) tag c.responseTaken)
      | _, _ => none
  | .proceed i =>
    match s.threads[i]? with
    | some (.proceed tag ok) => (s.contexts[tag]?).map fun c =>
      if ok then
        match c.status with
        | .create => s.move i (.execute tag) tag c
        | .finish => s.move i .next tag c.delete
      else s.move i .next tag c.delete
    | _ => none
  | .execute i handler now =>
    match s.threads[i]? with
    | some (.execute tag) => (s.contexts[tag]?).map fun c =>
      s.move i (.finish tag) tag (s.execute handler now c)
    | _ => none
  | .finish i =>
    match s.threads[i]? with
    | some (.finish tag) => (s.contexts[tag]?).map fun c => s.move i (.replace tag) tag c.finish
    | _ => none
  | .replace i =>
    match s.threads[i]? with
    | some (.replace tag) => (s.contexts[tag]?).map fun c =>
      (s.move i .next tag c.succeeded).create c.method c.cq
    | _ => none

-- ---------------------------------------------------------------------------
-- What a step does
-- ---------------------------------------------------------------------------

variable {s t : AsyncServer Body}

/-- The moves of the server. -/
inductive Moves (s : AsyncServer Body) : ServerAction Body → AsyncServer Body → Prop
  | accept (tag : Nat) (c : AsyncCallContext Body) (hc : s.contexts[tag]? = some c)
      (hthread : s.threads[c.cq]? = some .next) (hoperation : c.operation = some .request) :
      Moves s (.event tag true) (s.move c.cq (.proceed tag true) tag c.requestTaken)
  | sent (tag : Nat) (ok : Bool) (c : AsyncCallContext Body) (hc : s.contexts[tag]? = some c)
      (hthread : s.threads[c.cq]? = some .next) (hoperation : c.operation = some .response) :
      Moves s (.event tag ok) (s.move c.cq (.proceed tag ok) tag c.responseTaken)
  | create (i tag : Nat) (c : AsyncCallContext Body) (hc : s.contexts[tag]? = some c)
      (hthread : s.threads[i]? = some (.proceed tag true)) (hstatus : c.status = .create) :
      Moves s (.proceed i) (s.move i (.execute tag) tag c)
  | delete (i tag : Nat) (ok : Bool) (c : AsyncCallContext Body)
      (hc : s.contexts[tag]? = some c) (hthread : s.threads[i]? = some (.proceed tag ok))
      (hdone : ok = false ∨ c.status = .finish) :
      Moves s (.proceed i) (s.move i .next tag c.delete)
  | execute (i tag : Nat) (handler : ApiHandler Body) (now : Nat) (c : AsyncCallContext Body)
      (hc : s.contexts[tag]? = some c) (hthread : s.threads[i]? = some (.execute tag)) :
      Moves s (.execute i handler now) (s.move i (.finish tag) tag (s.execute handler now c))
  | finish (i tag : Nat) (c : AsyncCallContext Body) (hc : s.contexts[tag]? = some c)
      (hthread : s.threads[i]? = some (.finish tag)) :
      Moves s (.finish i) (s.move i (.replace tag) tag c.finish)
  | replace (i tag : Nat) (c : AsyncCallContext Body) (hc : s.contexts[tag]? = some c)
      (hthread : s.threads[i]? = some (.replace tag)) :
      Moves s (.replace i) ((s.move i .next tag c.succeeded).create c.method c.cq)

/-- **Inversion.** A step of the server is one of its moves. -/
theorem step_moves {a : ServerAction Body} (h : s.step a = some t) : Moves s a t := by
  cases a with
  | event tag ok =>
    rw [step] at h
    split at h
    · exact nomatch h
    · next c hc =>
      split at h
      · next hthread hoperation =>
        split at h
        · next hok =>
          subst hok
          exact Option.some.inj h ▸ .accept tag c hc hthread hoperation
        · exact nomatch h
      · next hthread hoperation =>
        exact Option.some.inj h ▸ .sent tag ok c hc hthread hoperation
      · exact nomatch h
  | proceed i =>
    rw [step] at h
    split at h
    · next tag ok hthread =>
      obtain ⟨c, hc, rfl⟩ := Option.map_eq_some_iff.mp h
      cases ok with
      | false => exact .delete i tag false c hc hthread (.inl rfl)
      | true =>
        rw [if_pos rfl]
        cases hstatus : c.status with
        | create => exact .create i tag c hc hthread hstatus
        | finish => exact .delete i tag true c hc hthread (.inr hstatus)
    · exact nomatch h
  | execute i handler now =>
    rw [step] at h
    split at h
    · next tag hthread =>
      obtain ⟨c, hc, rfl⟩ := Option.map_eq_some_iff.mp h
      exact .execute i tag handler now c hc hthread
    · exact nomatch h
  | finish i =>
    rw [step] at h
    split at h
    · next tag hthread =>
      obtain ⟨c, hc, rfl⟩ := Option.map_eq_some_iff.mp h
      exact .finish i tag c hc hthread
    · exact nomatch h
  | replace i =>
    rw [step] at h
    split at h
    · next tag hthread =>
      obtain ⟨c, hc, rfl⟩ := Option.map_eq_some_iff.mp h
      exact .replace i tag c hc hthread
    · exact nomatch h

end AsyncServer

end DistTaskSystem
