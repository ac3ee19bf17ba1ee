import DistTaskSystem.ApiServer.AsyncServer

/-!
# DTS — shutting the asynchronous server down

`AsyncServer::Shutdown` shuts down the server, then its queues one after the other, and
joins the threads. Meanwhile the threads go on as before: a context whose request was
taken is answered, and puts a new one in its place.

Of gRPC the model keeps what it documents: once the server is shut down, a context that
waits for a request gets its event with `ok = false`; the call returns when all calls are
finished; `Next` returns false when its queue was shut down and nothing is left in it; and
no operation may be started on a queue that was shut down. The code makes no provision
for the last: what happens after such an operation is not defined.

## Results

* `step_moves` — a step is one of the moves of the code.
-/

namespace DistTaskSystem

/-- Where the thread stands that called `Shutdown`. -/
inductive ShutdownPhase where
  | notCalled
  /-- in `server_->Shutdown()` -/
  | closing
  /-- in the loop over `cqs_`, the first `n` of which are shut down -/
  | queues (n : Nat)
  | returned
deriving DecidableEq, Repr

structure ServerShutdown (Body : Type) where
  server : AsyncServer Body
  phase : ShutdownPhase := .notCalled
  /-- the threads that have left `DriveCompletionQueue` -/
  exited : List Nat := []
  /-- an operation was started on a queue that was shut down -/
  misused : Bool := false

inductive ShutdownAction (Body : Type) where
  /-- the server goes on -/
  | serve (a : ServerAction Body)
  /-- `Next` returns the tag of a waiting context, with `ok = false` -/
  | refuse (tag : Nat)
  /-- `Shutdown` is called: `shutdown_` is set, -/
  | shutdown
  /-- `server_->Shutdown()` returns, -/
  | closed
  /-- the next queue is shut down, -/
  | shutdownQueue
  /-- `Next` returns false in the i-th thread, -/
  | drained (i : Nat)
  /-- and all threads are joined -/
  | join

/-- gRPC has reported that there will be no request. -/
def AsyncCallContext.refused {Body : Type} (c : AsyncCallContext Body) : AsyncCallContext Body :=
  { c with operation := none }

/-- The queue on which an action starts an operation. -/
def ServerAction.startsOn {Body : Type} : ServerAction Body → Option Nat
  | .finish i => some i
  | .replace i => some i
  | _ => none

namespace ServerShutdown

variable {Body : Type} [Inhabited Body]

/-- The server that `Run` has started. -/
def serving (server : AsyncServer Body) : ServerShutdown Body where
  server := server

def queueShut (s : ServerShutdown Body) (i : Nat) : Bool :=
  match s.phase with
  | .queues n => i < n
  | .returned => true
  | _ => false

/-- The server takes no new call after `server_->Shutdown()` has returned. -/
def takesCalls (s : ServerShutdown Body) : Bool :=
  match s.phase with
  | .notCalled => true
  | .closing => true
  | _ => false

/-- The event is one of a new call. -/
def isCall (s : ServerShutdown Body) : ServerAction Body → Bool
  | .event tag _ => (s.server.contexts[tag]?).any fun c => c.operation = some .request
  | _ => false

def serve (s : ServerShutdown Body) (a : ServerAction Body) : Option (ServerShutdown Body) :=
  (s.server.step a).map fun server =>
    { s with server := server, misused := a.startsOn.any s.queueShut }

def step (s : ServerShutdown Body) (a : ShutdownAction Body) : Option (ServerShutdown Body) :=
  if s.misused then none
  else match a with
  | .serve a => if s.isCall a ∧ s.takesCalls = false then none else s.serve a
  | .refuse tag =>
    match s.server.contexts[tag]? with
    | none => none
    | some c =>
      if s.phase ≠ .notCalled ∧ c.operation = some .request ∧
          s.server.threads[c.cq]? = some .next then
        some { s with server := s.server.move c.cq (.proceed tag false) tag c.refused }
      else none
  | .shutdown => if s.phase = .notCalled then some { s with phase := .closing } else none
  | .closed =>
    -- gRPC knows which of the calls it delivered are finished
    if s.phase = .closing ∧ ∀ c ∈ s.server.contexts, c.tally.finishes = c.tally.accepted then
      some { s with phase := .queues 0 }
    else none
  | .shutdownQueue =>
    match s.phase with
    | .queues n =>
      if n < s.server.threads.length then some { s with phase := .queues (n + 1) } else none
    | _ => none
  | .drained i =>
    if s.queueShut i ∧ s.server.threads[i]? = some .next ∧ i ∉ s.exited ∧
        ∀ c ∈ s.server.contexts, c.cq = i → c.operation = none then
      some { s with exited := i :: s.exited }
    else none
  | .join =>
    if s.phase = .queues s.server.threads.length ∧
        ∀ i < s.server.threads.length, i ∈ s.exited then
      some { s with phase := .returned }
    else none

-- ---------------------------------------------------------------------------
-- What a step does
-- ---------------------------------------------------------------------------

variable {s t : ServerShutdown Body}

/-- The moves of the server and of the thread that shuts it down. -/
inductive Moves (s : ServerShutdown Body) : ShutdownAction Body → ServerShutdown Body → Prop
  | serve (a : ServerAction Body) (server : AsyncServer Body)
      (hstep : s.server.step a = some server)
      (hcall : s.isCall a = true → s.takesCalls = true) :
      Moves s (.serve a) { s with server := server, misused := a.startsOn.any s.queueShut }
  | refuse (tag : Nat) (c : AsyncCallContext Body) (hc : s.server.contexts[tag]? = some c)
      (hphase : s.phase ≠ .notCalled) (hoperation : c.operation = some .request)
      (hthread : s.server.threads[c.cq]? = some .next) :
      Moves s (.refuse tag)
        { s with server := s.server.move c.cq (.proceed tag false) tag c.refused }
  | shutdown (hphase : s.phase = .notCalled) : Moves s .shutdown { s with phase := .closing }
  | closed (hphase : s.phase = .closing)
      (hfinished : ∀ c ∈ s.server.contexts, c.tally.finishes = c.tally.accepted) :
      Moves s .closed { s with phase := .queues 0 }
  | shutdownQueue (n : Nat) (hphase : s.phase = .queues n) (hn : n < s.server.threads.length) :
      Moves s .shutdownQueue { s with phase := .queues (n + 1) }
  | drained (i : Nat) (hshut : s.queueShut i = true) (hthread : s.server.threads[i]? = some .next)
      (hstays : i ∉ s.exited) (hempty : ∀ c ∈ s.server.contexts, c.cq = i → c.operation = none) :
      Moves s (.drained i) { s with exited := i :: s.exited }
  | join (hphase : s.phase = .queues s.server.threads.length)
      (hexited : ∀ i < s.server.threads.length, i ∈ s.exited) :
      Moves s .join { s with phase := .returned }

/-- **Inversion.** A step is one of the moves. -/
theorem step_moves {a : ShutdownAction Body} (h : s.step a = some t) : Moves s a t := by
  unfold step at h
  split at h
  · exact nomatch h
  · cases a with
    | serve a =>
      dsimp only at h
      split at h
      · exact nomatch h
      · next hallowed =>
        obtain ⟨server, hstep, rfl⟩ := Option.map_eq_some_iff.mp h
        refine .serve a server hstep fun hcall => ?_
        exact Bool.of_not_eq_false fun hnot => hallowed ⟨hcall, hnot⟩
    | refuse tag =>
      dsimp only at h
      split at h
      · exact nomatch h
      · next c hc =>
        rw [Option.ite_none_right_eq_some] at h
        obtain ⟨⟨hphase, hoperation, hthread⟩, h⟩ := h
        exact Option.some.inj h ▸ .refuse tag c hc hphase hoperation hthread
    | shutdown =>
      dsimp only at h
      rw [Option.ite_none_right_eq_some] at h
      exact Option.some.inj h.2 ▸ .shutdown h.1
    | closed =>
      dsimp only at h
      rw [Option.ite_none_right_eq_some] at h
      obtain ⟨⟨hphase, hfinished⟩, h⟩ := h
      exact Option.some.inj h ▸ .closed hphase hfinished
    | shutdownQueue =>
      dsimp only at h
      split at h
      · next n hphase =>
        rw [Option.ite_none_right_eq_some] at h
        exact Option.some.inj h.2 ▸ .shutdownQueue n hphase h.1
      · exact nomatch h
    | drained i =>
      dsimp only at h
      rw [Option.ite_none_right_eq_some] at h
      obtain ⟨⟨hshut, hthread, hstays, hempty⟩, h⟩ := h
      exact Option.some.inj h ▸ .drained i hshut hthread hstays hempty
    | join =>
      dsimp only at h
      rw [Option.ite_none_right_eq_some] at h
      obtain ⟨⟨hphase, hexited⟩, h⟩ := h
      exact Option.some.inj h ▸ .join hphase hexited

end ServerShutdown

end DistTaskSystem
