import DistTaskSystem.Client.Coroutine
import DistTaskSystem.Library.Custody
import DistTaskSystem.Library.Runs

/-!
# DTS — what becomes of a submission from a coroutine

As a suspended coroutine holds the client, the destructor cannot begin before it has
ended, and the thread that polls the queue does not leave while it waits: no call is lost
to a shutdown, unlike those of `submit_dag_async`. The price is that the last reference
may be the one in a frame. That frame ends on the polling thread, which then has to join
itself.

## Results

* `step_holding`    — a step takes one frame from a stage to the next.
* `coroutine_once`  — each promise is fulfilled once, with what gRPC reported.
* `coroutine_ends`  — each call that waits can be answered, whatever it waits behind.
* `self_join_iff`   — when the process is aborted.
-/

namespace DistTaskSystem

namespace AsyncSubmitBridge

/-- What a call comes to that gRPC has reported. -/
def outcome (r : RpcReport) : RpcResult :=
  ((awaitSuspend true).report r |>.awaiter.proceed r.ok).awaitResume

/-- The outcome, read off the report. -/
theorem outcome_eq (r : RpcReport) : outcome r =
    if r.status.code ≠ .ok then .error (.grpcError r.status)
    else if r.ok = false then .error (.grpcError ⟨.internal, "CompletionQueue Shutdown"⟩)
    else match r.response.header.error with
      | some err => .error (.runtimeError ("Server Rejected: " ++ err.msg))
      | none => .ok r.response := by
  show GrpcAwaiter.awaitResume (GrpcAwaiter.proceed ⟨r.response, r.status⟩ r.ok) = _
  by_cases hcode : r.status.code = .ok
  · by_cases hok : r.ok = false
    · simp [GrpcAwaiter.proceed, GrpcAwaiter.awaitResume, hcode, hok]
    · cases herr : r.response.header.error with
      | none => simp [GrpcAwaiter.proceed, GrpcAwaiter.awaitResume, hcode, hok, herr]
      | some err => simp [GrpcAwaiter.proceed, GrpcAwaiter.awaitResume, hcode, hok, herr]
  · simp [GrpcAwaiter.proceed, GrpcAwaiter.awaitResume, hcode]

/-- A frame at the end of its coroutine. -/
def resumed (r : RpcReport) : AsyncSubmitBridge := ((awaitSuspend true).report r).proceed r.ok

end AsyncSubmitBridge

namespace CoroutineClient

open AsyncSubmitBridge (awaitSuspend outcome resumed)
open Custody (Kept)

-- ---------------------------------------------------------------------------
-- The life of a frame
-- ---------------------------------------------------------------------------

/-- The stage of a frame, while the polling thread is at `p`. -/
inductive BridgeStage (tag : Nat) (c : AsyncSubmitBridge) (p : ResumePoint) : Prop
  | refused (hc : c = awaitSuspend false) (hp : p.tag? ≠ some tag)
  | suspended (hc : c = awaitSuspend true) (hp : p.tag? ≠ some tag)
  | reported (r : RpcReport) (hc : c = (awaitSuspend true).report r)
      (hp : p = .proceeding tag r.ok)
  | returning (r : RpcReport) (hc : c = resumed r) (hp : p = .returning tag)
  | ended (r : RpcReport) (hc : c = (resumed r).finalSuspend) (hp : p.tag? ≠ some tag)

namespace BridgeStage

variable {tag : Nat} {c : AsyncSubmitBridge} {p p' : ResumePoint}

theorem elsewhere (h : BridgeStage tag c p) (hp : p.tag? ≠ some tag)
    (hp' : p'.tag? ≠ some tag) : BridgeStage tag c p' := by
  cases h with
  | refused hc _ => exact .refused hc hp'
  | suspended hc _ => exact .suspended hc hp'
  | reported r _ hat => exact absurd (hat ▸ rfl) hp
  | returning r _ hat => exact absurd (hat ▸ rfl) hp
  | ended r hc _ => exact .ended r hc hp'

/-- Only a suspended frame waits for gRPC. -/
theorem waits (h : BridgeStage tag c p) (hpending : 0 < c.pending) : c = awaitSuspend true := by
  cases h with
  | suspended hc _ => exact hc
  | refused hc _ => exact absurd hpending (by rw [hc]; decide)
  | reported r hc _ => exact absurd hpending (by rw [hc]; exact Nat.lt_irrefl 0)
  | returning r hc _ => exact absurd hpending (by rw [hc]; exact Nat.lt_irrefl 0)
  | ended r hc _ => exact absurd hpending (by rw [hc]; exact Nat.lt_irrefl 0)

theorem at_proceeding {ok : Bool} (h : BridgeStage tag c (.proceeding tag ok)) :
    ∃ r : RpcReport, c = (awaitSuspend true).report r ∧ r.ok = ok := by
  cases h with
  | refused _ hnot => exact absurd rfl hnot
  | suspended _ hnot => exact absurd rfl hnot
  | reported r hc hat => exact ⟨r, hc, (ResumePoint.proceeding.inj hat).2.symm⟩
  | returning r _ hat => exact nomatch hat
  | ended r _ hnot => exact absurd rfl hnot

theorem at_returning (h : BridgeStage tag c (.returning tag)) : ∃ r, c = resumed r := by
  cases h with
  | refused _ hnot => exact absurd rfl hnot
  | suspended _ hnot => exact absurd rfl hnot
  | reported r _ hat => exact nomatch hat
  | returning r hc _ => exact ⟨r, hc⟩
  | ended r _ hnot => exact absurd rfl hnot

/-- A frame that has ended was left by the thread. -/
theorem not_alive (h : BridgeStage tag c p) (halive : c.alive = false) :
    c.ends = 1 ∧ c.promise.length = 1 ∧ c.pending = 0 ∧ p.tag? ≠ some tag := by
  cases h with
  | refused hc hp => exact ⟨by rw [hc]; rfl, by rw [hc]; rfl, by rw [hc]; rfl, hp⟩
  | suspended hc _ => exact nomatch (by rw [← halive, hc]; rfl : true = false)
  | reported r hc _ => exact nomatch (by rw [← halive, hc]; rfl : true = false)
  | returning r hc _ => exact nomatch (by rw [← halive, hc]; rfl : true = false)
  | ended r hc hp => exact ⟨by rw [hc]; rfl, by rw [hc]; rfl, by rw [hc]; rfl, hp⟩

end BridgeStage

/-- The frames, and the one thread that resumes them. -/
def bridgeHouse : Custody.House AsyncSubmitBridge ResumePoint where
  home _ := 0
  held := ResumePoint.tag?
  idle := .testing
  Stage := BridgeStage
  elsewhere := BridgeStage.elsewhere

/-- What is so at every moment. -/
structure Holding (s : CoroutineClient) : Prop where
  kept : Kept bridgeHouse s.frames [s.poll]
  shutdown : s.shutdown = true ↔ s.destructor ≠ .notCalled
  released : s.destructor ≠ .notCalled → s.references = 0
  destroying : s.poll = .destroying → s.references = 0 ∧ s.destructor ≠ .returned
  exited : s.poll = .exited → s.shutdown = true
  returned : s.destructor = .returned → s.poll = .exited
  aborted : s.aborted = true → s.poll = .destroying ∧ s.destructor = .joining

section Holding

variable {s t : CoroutineClient} {tag : Nat} {c c' : AsyncSubmitBridge} {a : CoroutineAction}

theorem Holding.stage (h : Holding s) (hc : s.frames[tag]? = some c) : BridgeStage tag c s.poll :=
  h.kept.stage_at hc rfl

theorem Holding.frame (h : Holding s) (htag : s.poll.tag? = some tag) :
    ∃ c, s.frames[tag]? = some c := by
  obtain ⟨c, hc, -⟩ := h.kept.holds 0 s.poll tag rfl htag
  exact ⟨c, hc⟩

/-- Who has a frame that is alive has the client. -/
theorem references_pos (hc : s.frames[tag]? = some c) (halive : c.alive = true) :
    0 < s.references :=
  Nat.lt_of_lt_of_le (List.countP_pos_iff.mpr ⟨c, List.mem_of_getElem? hc, halive⟩)
    (Nat.le_add_left _ _)

/-- The destructor has not begun while a frame is alive. -/
theorem Holding.not_called (h : Holding s) (hpos : 0 < s.references) :
    s.destructor = .notCalled ∧ s.shutdown = false ∧ s.poll ≠ .exited ∧ s.poll ≠ .destroying := by
  have hnot : s.destructor = .notCalled :=
    of_not_not fun hcalled => Nat.ne_of_gt hpos (h.released hcalled)
  have hopen : s.shutdown = false :=
    Bool.eq_false_iff.mpr fun hshut => h.shutdown.mp hshut hnot
  refine ⟨hnot, hopen, fun hexited => ?_, fun hdestroying => ?_⟩
  · exact nomatch hopen.symm.trans (h.exited hexited)
  · exact Nat.ne_of_gt hpos (h.destroying hdestroying).1

/-- A step in which the thread moves alone. -/
theorem Holding.idle (h : Holding s) {p : ResumePoint} (hs : s.poll.tag? = none)
    (hp : p.tag? = none) (hdestroying : p = .destroying → s.references = 0)
    (hexited : p = .exited → s.shutdown = true) (hfine : s.aborted = false)
    (hopen : s.poll ≠ .exited) : Holding { s with poll := p } where
  kept := by
    refine ⟨fun tag c hc => ?_, fun i q tag hq hheld => ?_⟩
    · exact (h.stage hc).elsewhere (by rw [hs]; nofun) (by show p.tag? ≠ _; rw [hp]; nofun)
    · cases i with
      | zero =>
        obtain rfl : p = q := Option.some.inj hq
        exact nomatch hp.symm.trans hheld
      | succ i => exact nomatch hq
  shutdown := h.shutdown
  released := h.released
  destroying hat := ⟨hdestroying hat, fun hreturned => hopen (h.returned hreturned)⟩
  exited := hexited
  returned hreturned := absurd (h.returned hreturned) hopen
  aborted haborted := nomatch hfine.symm.trans haborted

/-- A step in which the thread moves with a frame. -/
theorem Holding.move (h : Holding s) {p : ResumePoint} (hc : s.frames[tag]? = some c)
    (hs : s.poll.tag? = none ∨ s.poll.tag? = some tag) (hp : p.tag? = none ∨ p.tag? = some tag)
    (hstage : BridgeStage tag c' p) (halive : c.alive = true)
    (hdestroying : p = .destroying → references { s with frames := s.frames.set tag c' } = 0)
    (hexited : p ≠ .exited) (hfine : s.aborted = false) :
    Holding { s with poll := p, frames := s.frames.set tag c' } := by
  obtain ⟨hnot, hopen, -, -⟩ := h.not_called (references_pos hc halive)
  exact {
    kept := h.kept.move hc rfl hs hp rfl hstage
    shutdown := h.shutdown
    released := fun hcalled => absurd hnot hcalled
    destroying := fun hat => ⟨hdestroying hat, fun hreturned => nomatch hnot.symm.trans hreturned⟩
    exited := fun hat => absurd hat hexited
    returned := fun hreturned => nomatch hnot.symm.trans hreturned
    aborted := fun haborted => nomatch hfine.symm.trans haborted }

/-- A step of an owner that leaves the frames alone. -/
theorem Holding.owner (h : Holding s) {owners : Nat} (howner : 0 < s.owners)
    (hfine : s.aborted = false) : Holding { s with owners := owners } := by
  have hpos : 0 < s.references := Nat.add_pos_left howner _
  obtain ⟨hnot, hopen, hexited, hdestroying⟩ := h.not_called hpos
  exact {
    kept := h.kept
    shutdown := h.shutdown
    released := fun hcalled => absurd hnot hcalled
    destroying := fun hat => absurd hat hdestroying
    exited := fun hat => absurd hat hexited
    returned := fun hreturned => nomatch hnot.symm.trans hreturned
    aborted := fun haborted => nomatch hfine.symm.trans haborted }

/-- **A step takes one frame from a stage to the next.** -/
theorem step_holding (h : Holding s) (hstep : s.step a = some t) : Holding t := by
  have hfine := not_aborted hstep
  cases step_moves hstep with
  | submit reader howner =>
    obtain ⟨hnot, hopen, hexited, hdestroying⟩ := h.not_called (Nat.add_pos_left howner _)
    exact {
      kept := h.kept.concat rfl fun p hp => by
        cases reader with
        | false => exact .refused rfl hp
        | true => exact .suspended rfl hp
      shutdown := h.shutdown
      released := fun hcalled => absurd hnot hcalled
      destroying := fun hat => absurd hat hdestroying
      exited := fun hat => absurd hat hexited
      returned := fun hreturned => nomatch hnot.symm.trans hreturned
      aborted := fun haborted => nomatch hfine.symm.trans haborted }
  | copy howner => exact h.owner howner hfine
  | drop howner => exact h.owner howner hfine
  | test p hpoll hp =>
    refine h.idle (by rw [hpoll]; rfl) (by rw [hp]; split <;> rfl) (fun hat => ?_) (fun hat => ?_)
      hfine (by rw [hpoll]; nofun)
    · rw [hp] at hat
      split at hat <;> exact nomatch hat
    · rw [hp] at hat
      split at hat
      · next hshut => exact hshut
      · exact nomatch hat
  | event tag r c hc hpoll hpending =>
    obtain rfl := (h.stage hc).waits hpending
    exact h.move hc (.inl (by rw [hpoll]; rfl)) (.inr rfl) (.reported r rfl rfl) rfl nofun nofun
      hfine
  | timeout hpoll =>
    exact h.idle (by rw [hpoll]; rfl) rfl nofun nofun hfine (by rw [hpoll]; nofun)
  | drained hpoll hdestructor hempty =>
    refine h.idle (by rw [hpoll]; rfl) rfl nofun (fun _ => ?_) hfine (by rw [hpoll]; nofun)
    exact h.shutdown.mpr (by rw [hdestructor]; nofun)
  | resume tag ok c hc hpoll =>
    have hstage := h.stage hc
    rw [hpoll] at hstage
    obtain ⟨r, rfl, rfl⟩ := hstage.at_proceeding
    exact h.move hc (.inr (by rw [hpoll]; rfl)) (.inr rfl) (.returning r rfl rfl) rfl nofun nofun
      hfine
  | finalSuspend tag c p hc hpoll hp =>
    have hstage := h.stage hc
    rw [hpoll] at hstage
    obtain ⟨r, rfl⟩ := hstage.at_returning
    have hnone : p.tag? = none := by
      rw [hp]
      split <;> rfl
    refine h.move hc (.inr (by rw [hpoll]; rfl)) (.inl hnone)
      (.ended r rfl (by rw [hnone]; nofun)) rfl (fun hat => ?_) (fun hat => ?_) hfine
    · rw [hp] at hat
      split at hat
      · next hlast => exact hlast
      · exact nomatch hat
    · rw [hp] at hat
      split at hat <;> exact nomatch hat
  | setShutdown hnone hdestructor =>
    exact {
      kept := h.kept
      shutdown := iff_of_true rfl nofun
      released := fun _ => hnone
      destroying := fun _ => ⟨hnone, nofun⟩
      exited := fun _ => rfl
      returned := nofun
      aborted := fun haborted => nomatch hfine.symm.trans haborted }
  | shutdownQueue hdestructor =>
    have hcalled : s.destructor ≠ .notCalled := by
      rw [hdestructor]
      nofun
    exact {
      kept := h.kept
      shutdown := iff_of_true (h.shutdown.mpr hcalled) nofun
      released := fun _ => h.released hcalled
      destroying := fun _ => ⟨h.released hcalled, nofun⟩
      exited := h.exited
      returned := nofun
      aborted := fun haborted => nomatch hfine.symm.trans haborted }
  | join hdestructor hpoll =>
    have hcalled : s.destructor ≠ .notCalled := by
      rw [hdestructor]
      nofun
    exact {
      kept := h.kept
      shutdown := iff_of_true (h.shutdown.mpr hcalled) nofun
      released := fun _ => h.released hcalled
      destroying := fun hat => nomatch hpoll.symm.trans hat
      exited := h.exited
      returned := fun _ => hpoll
      aborted := fun haborted => nomatch hfine.symm.trans haborted }
  | selfJoin hdestructor hpoll =>
    exact ⟨h.kept, h.shutdown, h.released, h.destroying, h.exited, h.returned,
      fun _ => ⟨hpoll, hdestructor⟩⟩

theorem construct_holding (owners : Nat) : Holding (construct owners) where
  kept := by
    refine ⟨nofun, fun i p tag hp hheld => ?_⟩
    cases i with
    | zero =>
      obtain rfl := Option.some.inj hp
      exact nomatch hheld
    | succ i => exact nomatch hp
  shutdown := iff_of_false nofun fun hcalled => hcalled rfl
  released hcalled := absurd rfl hcalled
  destroying := nofun
  exited := nofun
  returned := nofun
  aborted := nofun

theorem run_holding {owners : Nat} {actions : List CoroutineAction}
    (hrun : Runs.run step (construct owners) actions = some t) : Holding t :=
  Runs.run_invariant (fun _ _ _ => step_holding) hrun (construct_holding owners)

/-- A client that somebody has goes on. -/
theorem Holding.fine (h : Holding s) (hpos : 0 < s.references) : s.aborted = false := by
  by_contra haborted
  rw [Bool.not_eq_false] at haborted
  exact (h.not_called hpos).2.2.2 (h.aborted haborted).1

end Holding

-- ---------------------------------------------------------------------------
-- What gRPC reported
-- ---------------------------------------------------------------------------

/-- What an action reports about a frame. -/
def reportFor (tag : Nat) : CoroutineAction → Option RpcReport
  | .event tag' r => if tag' = tag then some r else none
  | _ => none

/-- What was reported about a frame. -/
def reportsFor (tag : Nat) (actions : List CoroutineAction) : List RpcReport :=
  actions.filterMap (reportFor tag)

/-- The frames know what was reported about them. -/
structure Recorded (before : List CoroutineAction) (s : CoroutineClient) : Prop where
  reports : ∀ (tag : Nat) (c : AsyncSubmitBridge), s.frames[tag]? = some c →
    c.reports = reportsFor tag before
  future : ∀ tag, s.frames.length ≤ tag → reportsFor tag before = []

section Recorded

variable {before : List CoroutineAction} {s t : CoroutineClient} {a : CoroutineAction}

theorem reportsFor_snoc (tag : Nat) (before : List CoroutineAction) (a : CoroutineAction) :
    reportsFor tag (before ++ [a]) = reportsFor tag before ++ (reportFor tag a).toList := by
  rw [reportsFor, List.filterMap_append]
  cases h : reportFor tag a <;> simp [reportsFor, h]

/-- A step that reports nothing, and changes at most what else is in a frame. -/
theorem Recorded.quiet (h : Recorded before s) (ha : ∀ tag, reportFor tag a = none)
    (hframes : t.frames = s.frames ∨ ∃ tag c c', s.frames[tag]? = some c ∧
      t.frames = s.frames.set tag c' ∧ c'.reports = c.reports) : Recorded (before ++ [a]) t := by
  have hsame : ∀ tag, reportsFor tag (before ++ [a]) = reportsFor tag before := by
    intro tag
    rw [reportsFor_snoc, ha, Option.toList_none, List.append_nil]
  rcases hframes with hframes | ⟨tag, c, c', hc, hframes, hreports⟩
  · refine ⟨fun tag c hc => ?_, fun tag htag => ?_⟩
    · rw [hsame]
      exact h.reports tag c (hframes ▸ hc)
    · rw [hsame]
      exact h.future tag (hframes ▸ htag)
  · refine ⟨?_, fun tag' htag => ?_⟩
    · rw [hframes]
      refine Parties.forall_set (fun tag' d _ hd => ?_) ?_
      · rw [hsame]
        exact h.reports tag' d hd
      · rw [hsame, hreports]
        exact h.reports tag c hc
    · rw [hsame]
      rw [hframes, List.length_set] at htag
      exact h.future tag' htag

theorem step_recorded (h : Recorded before s) (hstep : s.step a = some t) :
    Recorded (before ++ [a]) t := by
  cases step_moves hstep with
  | submit reader howner =>
    have hsame : ∀ tag, reportsFor tag (before ++ [.submit reader]) = reportsFor tag before := by
      intro tag
      rw [reportsFor_snoc]
      exact List.append_nil _
    refine ⟨Parties.forall_concat (fun tag c hc => ?_) ?_, fun tag htag => ?_⟩
    · rw [hsame]
      exact h.reports tag c hc
    · rw [hsame, h.future _ (Nat.le_refl _)]
      cases reader <;> rfl
    · rw [hsame]
      rw [List.length_append] at htag
      exact h.future tag (Nat.le_of_succ_le htag)
  | event tag r c hc hpoll hpending =>
    have hothers : ∀ tag' ≠ tag, reportsFor tag' (before ++ [.event tag r]) =
        reportsFor tag' before := by
      intro tag' htag
      rw [reportsFor_snoc, reportFor, if_neg (Ne.symm htag), Option.toList_none, List.append_nil]
    have hlt : tag < s.frames.length := (List.getElem?_eq_some_iff.mp hc).1
    refine ⟨Parties.forall_set (fun tag' d htag hd => ?_) ?_, fun tag' htag => ?_⟩
    · rw [hothers tag' htag]
      exact h.reports tag' d hd
    · rw [reportsFor_snoc, reportFor, if_pos rfl]
      exact congrArg (· ++ [r]) (h.reports tag c hc)
    · rw [List.length_set] at htag
      rw [hothers tag' (Nat.ne_of_gt (Nat.lt_of_lt_of_le hlt htag))]
      exact h.future tag' htag
  | resume tag ok c hc hpoll =>
    exact h.quiet (fun _ => rfl) (.inr ⟨tag, c, c.proceed ok, hc, rfl, rfl⟩)
  | finalSuspend tag c p hc hpoll hp =>
    exact h.quiet (fun _ => rfl) (.inr ⟨tag, c, c.finalSuspend, hc, rfl, rfl⟩)
  | copy howner => exact h.quiet (fun _ => rfl) (.inl rfl)
  | drop howner => exact h.quiet (fun _ => rfl) (.inl rfl)
  | test p hpoll hp => exact h.quiet (fun _ => rfl) (.inl rfl)
  | timeout hpoll => exact h.quiet (fun _ => rfl) (.inl rfl)
  | drained hpoll hdestructor hempty => exact h.quiet (fun _ => rfl) (.inl rfl)
  | setShutdown hnone hdestructor => exact h.quiet (fun _ => rfl) (.inl rfl)
  | shutdownQueue hdestructor => exact h.quiet (fun _ => rfl) (.inl rfl)
  | join hdestructor hpoll => exact h.quiet (fun _ => rfl) (.inl rfl)
  | selfJoin hdestructor hpoll => exact h.quiet (fun _ => rfl) (.inl rfl)

theorem run_recorded {owners : Nat} {actions : List CoroutineAction}
    (hrun : Runs.run step (construct owners) actions = some t) : Recorded actions t := by
  have hstart : Recorded [] (construct owners) := ⟨nofun, fun _ _ => rfl⟩
  exact Runs.run_history (fun _ _ _ _ => step_recorded) hrun hstart

end Recorded

-- ---------------------------------------------------------------------------
-- Every run
-- ---------------------------------------------------------------------------

section Run

variable {owners : Nat} {actions : List CoroutineAction} {s t : CoroutineClient} {tag : Nat}
  {c : AsyncSubmitBridge}

/-- A call that has no result yet can still get one: its frame is there, and so are the
client and the thread that polls its queue. -/
def Waits (t : CoroutineClient) (tag : Nat) (c : AsyncSubmitBridge) : Prop :=
  c.alive = true ∧ t.destructor = .notCalled ∧ t.poll ≠ .exited ∧
    (c.pending = 1 ∨ ∃ ok, t.poll = .proceeding tag ok)

/-- **Each promise is fulfilled once.** At every moment of every run, a call has either
the one result that its reader or the one report about it leads to, or waits and can
still get it; once the destructor has begun, all have their result and no frame is left. -/
theorem coroutine_once (hrun : Runs.run step (construct owners) actions = some t)
    (hc : t.frames[tag]? = some c) :
    c.finishes ≤ 1 ∧ c.resumes = c.promise.length ∧
    (c.promise = [] ∧ Waits t tag c ∨
      (c.finishes = 0 ∧ reportsFor tag actions = [] ∧
        c.promise = [.error (.grpcError ⟨.unavailable, "Failed to init RPC"⟩)]) ∨
      ∃ r, c.finishes = 1 ∧ reportsFor tag actions = [r] ∧ c.promise = [outcome r]) ∧
    (t.destructor ≠ .notCalled → c.promise.length = 1 ∧ c.alive = false ∧ c.ends = 1) := by
  have hholding := run_holding hrun
  rw [← (run_recorded hrun).reports tag c hc]
  have halive : c.alive = true → t.destructor = .notCalled ∧ t.poll ≠ .exited := by
    intro halive
    obtain ⟨hnot, -, hexited, -⟩ := hholding.not_called (references_pos hc halive)
    exact ⟨hnot, hexited⟩
  have hstage := hholding.stage hc
  have hended : t.destructor ≠ .notCalled →
      c.promise.length = 1 ∧ c.alive = false ∧ c.ends = 1 := by
    intro hcalled
    have hdead : c.alive = false := Bool.eq_false_iff.mpr fun h => hcalled (halive h).1
    obtain ⟨hends, hpromise, -, -⟩ := hstage.not_alive hdead
    exact ⟨hpromise, hdead, hends⟩
  cases hstage with
  | refused hframe _ =>
    subst hframe
    exact ⟨Nat.zero_le 1, rfl, .inr (.inl ⟨rfl, rfl, rfl⟩), hended⟩
  | suspended hframe _ =>
    subst hframe
    obtain ⟨hnot, hexited⟩ := halive rfl
    exact ⟨Nat.le_refl 1, rfl, .inl ⟨rfl, rfl, hnot, hexited, .inl rfl⟩, hended⟩
  | reported r hframe hat =>
    subst hframe
    obtain ⟨hnot, hexited⟩ := halive rfl
    exact ⟨Nat.le_refl 1, rfl, .inl ⟨rfl, rfl, hnot, hexited, .inr ⟨r.ok, hat⟩⟩, hended⟩
  | returning r hframe _ =>
    subst hframe
    exact ⟨Nat.le_refl 1, rfl, .inr (.inr ⟨r, rfl, rfl, rfl⟩), hended⟩
  | ended r hframe _ =>
    subst hframe
    exact ⟨Nat.le_refl 1, rfl, .inr (.inr ⟨r, rfl, rfl, rfl⟩), hended⟩

/-! One call, while the owner gives its reference up. -/

def oneBridge : List CoroutineAction :=
  [.submit true, .test, .event 0 ⟨true, { body := "job" }, {}⟩, .resume, .drop]

theorem coroutine_once_answered : ∃ t c, Runs.run step (construct 1) oneBridge = some t ∧
    t.frames[0]? = some c ∧ c.resumes = c.promise.length :=
  ⟨_, _, rfl, rfl, (@coroutine_once 1 oneBridge _ 0 _ rfl rfl).2.1⟩

/-- What the polling thread does while the queue is open. -/
def polls : CoroutineAction → Bool
  | .test | .event _ _ | .timeout | .resume | .finalSuspend => true
  | _ => false

/-- The polling thread can go on such that the call has the result. -/
def Answers (s : CoroutineClient) (tag steps : Nat) (result : RpcResult) : Prop :=
  ∃ rest u c, Runs.run step s rest = some u ∧ rest.length ≤ steps ∧
    (∀ a ∈ rest, polls a = true) ∧ u.frames[tag]? = some c ∧ c.promise = [result]

theorem Answers.cons {a : CoroutineAction} {steps : Nat} {result : RpcResult}
    (hstep : s.step a = some t) (hpolls : polls a = true) (h : Answers t tag steps result) :
    Answers s tag (steps + 1) result := by
  obtain ⟨rest, u, c, hrun, hlength, hrest, hc, hpromise⟩ := h
  exact ⟨a :: rest, u, c, Runs.run_cons.mpr ⟨t, hstep, hrun⟩, Nat.succ_le_succ hlength,
    List.forall_mem_cons.mpr ⟨hpolls, hrest⟩, hc, hpromise⟩

/-- The thread comes back from `Proceed`. -/
theorem answers_proceeding {r : RpcReport} (hfine : s.aborted = false)
    (hc : s.frames[tag]? = some ((awaitSuspend true).report r))
    (hpoll : s.poll = .proceeding tag r.ok) : Answers s tag 1 (outcome r) := by
  have hlt : tag < s.frames.length := (List.getElem?_eq_some_iff.mp hc).1
  refine ⟨[.resume], { s with poll := .returning tag, frames := s.frames.set tag (resumed r) },
    resumed r, ?_, Nat.le_refl 1, List.forall_mem_singleton.mpr rfl,
    List.getElem?_set_self hlt, rfl⟩
  simp only [Runs.run, step, hfine, hpoll, hc, Bool.false_eq_true, if_false]
  rfl

/-- The thread takes the event. -/
theorem answers_polling (hfine : s.aborted = false)
    (hc : s.frames[tag]? = some (awaitSuspend true)) (hpoll : s.poll = .polling)
    (r : RpcReport) : Answers s tag 2 (outcome r) := by
  have hlt : tag < s.frames.length := (List.getElem?_eq_some_iff.mp hc).1
  have hevent : s.step (.event tag r) = some { s with
      poll := .proceeding tag r.ok
      frames := s.frames.set tag ((awaitSuspend true).report r) } := by
    simp only [step, hfine, hc, Bool.false_eq_true, if_false]
    exact if_pos ⟨hpoll, Nat.one_pos⟩
  exact Answers.cons hevent rfl (answers_proceeding hfine (List.getElem?_set_self hlt) rfl)

/-- The thread comes into `AsyncNext`: the client is not shut down. -/
theorem answers_testing (h : Holding s) (hc : s.frames[tag]? = some (awaitSuspend true))
    (hpoll : s.poll = .testing) (r : RpcReport) : Answers s tag 3 (outcome r) := by
  have hpos : 0 < s.references := references_pos hc rfl
  have htest : s.step .test = some { s with poll := .polling } := by
    simp only [step, h.fine hpos, hpoll, (h.not_called hpos).2.1, Bool.false_eq_true, if_false,
      if_true]
  refine Answers.cons htest rfl ?_
  exact answers_polling (s := { s with poll := .polling }) (h.fine hpos) hc rfl r

/-- The thread comes out of the frame of another call. -/
theorem answers_returning (h : Holding s) (hc : s.frames[tag]? = some (awaitSuspend true))
    {tag' : Nat} (hpoll : s.poll = .returning tag') (r : RpcReport) :
    Answers s tag 4 (outcome r) := by
  have hpos : 0 < s.references := references_pos hc rfl
  obtain ⟨d, hd⟩ := h.frame (show s.poll.tag? = some tag' by rw [hpoll]; rfl)
  have hother : tag' ≠ tag := by
    rintro rfl
    have hstage := h.stage hc
    rw [hpoll] at hstage
    obtain ⟨r', hr'⟩ := hstage.at_returning
    exact nomatch congrArg AsyncSubmitBridge.resumes hr'
  have hc' : (s.frames.set tag' d.finalSuspend)[tag]? = some (awaitSuspend true) :=
    (List.getElem?_set_ne hother).trans hc
  have hleft : references { s with frames := s.frames.set tag' d.finalSuspend } ≠ 0 :=
    Nat.ne_of_gt (references_pos (s := { s with frames := _ }) hc' rfl)
  have hend : s.step .finalSuspend = some { s with
      poll := .testing
      frames := s.frames.set tag' d.finalSuspend } := by
    simp only [step, h.fine hpos, hpoll, hd, Bool.false_eq_true, if_false, Option.map_some]
    split
    · next hlast => exact absurd hlast hleft
    · rfl
  exact Answers.cons hend rfl (answers_testing (step_holding h hend) hc' rfl r)

/-- **No call is stuck.** A call that has no result yet gets the one that gRPC reports
about it in at most five steps of the polling thread, whatever that is doing. -/
theorem coroutine_ends (hrun : Runs.run step (construct owners) actions = some t)
    (hc : t.frames[tag]? = some c) (hnone : c.promise = []) (r : RpcReport) :
    Answers t tag 5 (outcome ((reportsFor tag actions).head?.getD r)) := by
  have h := run_holding hrun
  rw [← (run_recorded hrun).reports tag c hc]
  have hmore : ∀ {steps : Nat} {result : RpcResult}, steps ≤ 5 → Answers t tag steps result →
      Answers t tag 5 result := by
    rintro steps result hsteps ⟨rest, u, d, hrest, hlength, hd⟩
    exact ⟨rest, u, d, hrest, Nat.le_trans hlength hsteps, hd⟩
  cases h.stage hc with
  | refused hframe _ => exact nomatch hnone.symm.trans (congrArg AsyncSubmitBridge.promise hframe)
  | returning r' hframe _ =>
    exact nomatch hnone.symm.trans (congrArg AsyncSubmitBridge.promise hframe)
  | ended r' hframe _ => exact nomatch hnone.symm.trans (congrArg AsyncSubmitBridge.promise hframe)
  | reported r' hframe hat =>
    subst hframe
    exact hmore (by decide) (answers_proceeding (h.fine (references_pos hc rfl)) hc hat)
  | suspended hframe hp =>
    subst hframe
    have hpos : 0 < t.references := references_pos hc rfl
    obtain ⟨-, -, hexited, hdestroying⟩ := h.not_called hpos
    cases hpoll : t.poll with
    | testing => exact hmore (by decide) (answers_testing h hc hpoll r)
    | polling => exact hmore (by decide) (answers_polling (h.fine hpos) hc hpoll r)
    | returning tag' => exact hmore (by decide) (answers_returning h hc hpoll r)
    | destroying => exact absurd hpoll hdestroying
    | exited => exact absurd hpoll hexited
    | proceeding tag' ok =>
      obtain ⟨d, hd⟩ := h.frame (show t.poll.tag? = some tag' by rw [hpoll]; rfl)
      have hother : tag' ≠ tag := fun heq => hp (by rw [hpoll, ← heq]; rfl)
      have hresume : t.step .resume = some { t with
          poll := .returning tag'
          frames := t.frames.set tag' (d.proceed ok) } := by
        simp only [step, h.fine hpos, hpoll, hd, Bool.false_eq_true, if_false, Option.map_some]
      refine Answers.cons hresume rfl (answers_returning (step_holding h hresume) ?_ rfl r)
      exact (List.getElem?_set_ne hother).trans hc

/-! Two calls, while the thread is at the first. -/

def behindAnother : List CoroutineAction :=
  [.submit true, .submit true, .test, .event 0 ⟨true, { body := "job" }, {}⟩]

theorem coroutine_ends_behind_another : ∃ t, Runs.run step (construct 1) behindAnother = some t ∧
    Answers t 1 5 (outcome ⟨false, { body := "" }, {}⟩) :=
  ⟨_, rfl, @coroutine_ends 1 behindAnother _ 1 (awaitSuspend true) rfl rfl rfl
    ⟨false, { body := "" }, {}⟩⟩

-- ---------------------------------------------------------------------------
-- The last reference
-- ---------------------------------------------------------------------------

/-- The one reference that is left is in a frame. -/
def LastInFrame (s : CoroutineClient) : Prop :=
  s.owners = 0 ∧ s.frames.countP AsyncSubmitBridge.alive = 1

instance (s : CoroutineClient) : Decidable s.LastInFrame :=
  inferInstanceAs (Decidable (_ ∧ _))

/-- The steps of the destructor in the polling thread, up to where it stands. -/
def destructorSteps : ClientDestructor → Bool → List CoroutineAction
  | .notCalled, _ => []
  | .flagged, _ => [.setShutdown]
  | .joining, false => [.setShutdown, .shutdownQueue]
  | .joining, true => [.setShutdown, .shutdownQueue, .join]
  | .returned, _ => []

/-- The end of a frame, with whether it gives up the last reference. -/
theorem finalSuspend_last (hc : s.frames[tag]? = some c) (halive : c.alive = true)
    {p : ResumePoint}
    (hp : p = if references { s with frames := s.frames.set tag c.finalSuspend } = 0
      then .destroying else .testing) : p = .destroying ↔ s.LastInFrame := by
  have hcount := @references_set s tag c c.finalSuspend hc s.poll
  rw [halive] at hcount
  have hless : references { s with frames := s.frames.set tag c.finalSuspend } + 1 =
      s.owners + s.frames.countP AsyncSubmitBridge.alive := hcount
  have hpos : 0 < s.frames.countP AsyncSubmitBridge.alive :=
    List.countP_pos_iff.mpr ⟨c, List.mem_of_getElem? hc, halive⟩
  unfold LastInFrame
  rw [hp]
  split
  · exact iff_of_true rfl (by omega)
  · exact iff_of_false nofun (by omega)

/-- In the destructor, the polling thread takes the next step of it. -/
theorem destroying_step {a : CoroutineAction} (h : Holding s) (hat : s.poll = .destroying)
    (hstep : s.step a = some t) : t.poll = .destroying ∧
      destructorSteps s.destructor s.aborted ++ [a] = destructorSteps t.destructor t.aborted := by
  have hnobody : s.owners = 0 := Nat.eq_zero_of_add_eq_zero_right (h.destroying hat).1
  have hfine := not_aborted hstep
  cases step_moves hstep with
  | submit reader howner => exact absurd hnobody (Nat.ne_of_gt howner)
  | copy howner => exact absurd hnobody (Nat.ne_of_gt howner)
  | drop howner => exact absurd hnobody (Nat.ne_of_gt howner)
  | test p hpoll hp => exact nomatch hpoll.symm.trans hat
  | event tag r c hc hpoll hpending => exact nomatch hpoll.symm.trans hat
  | timeout hpoll => exact nomatch hpoll.symm.trans hat
  | drained hpoll hdestructor hempty => exact nomatch hpoll.symm.trans hat
  | resume tag ok c hc hpoll => exact nomatch hpoll.symm.trans hat
  | finalSuspend tag c p hc hpoll hp => exact nomatch hpoll.symm.trans hat
  | setShutdown hnone hdestructor => exact ⟨hat, by rw [hdestructor, hfine]; rfl⟩
  | shutdownQueue hdestructor => exact ⟨hat, by rw [hdestructor, hfine]; rfl⟩
  | join hdestructor hpoll => exact nomatch hpoll.symm.trans hat
  | selfJoin hdestructor hpoll => exact ⟨hat, by rw [hdestructor, hfine]; rfl⟩

/-- The thread comes into the destructor with the last reference, and only so. -/
theorem enters_destroying {a : CoroutineAction} (h : Holding s) (hnot : s.poll ≠ .destroying)
    (hstep : s.step a = some t) : t.poll = .destroying ↔ a = .finalSuspend ∧ s.LastInFrame := by
  cases step_moves hstep with
  | submit reader howner => exact iff_of_false hnot nofun
  | copy howner => exact iff_of_false hnot nofun
  | drop howner => exact iff_of_false hnot nofun
  | test p hpoll hp =>
    subst hp
    refine iff_of_false (fun hat => ?_) nofun
    dsimp only at hat
    split at hat <;> exact nomatch hat
  | event tag r c hc hpoll hpending => exact iff_of_false nofun nofun
  | timeout hpoll => exact iff_of_false nofun nofun
  | drained hpoll hdestructor hempty => exact iff_of_false nofun nofun
  | resume tag ok c hc hpoll => exact iff_of_false nofun nofun
  | finalSuspend tag c p hc hpoll hp =>
    have hstage := h.stage hc
    rw [hpoll] at hstage
    obtain ⟨r, rfl⟩ := hstage.at_returning
    exact (finalSuspend_last hc rfl hp).trans (and_iff_right rfl).symm
  | setShutdown hnone hdestructor => exact iff_of_false hnot nofun
  | shutdownQueue hdestructor => exact iff_of_false hnot nofun
  | join hdestructor hpoll => exact iff_of_false hnot nofun
  | selfJoin hdestructor hpoll => exact absurd hpoll hnot

/-- A frame ends: the destructor has not begun. -/
theorem Holding.ends (h : Holding s) (hstep : s.step .finalSuspend = some t) :
    t.destructor = .notCalled ∧ t.aborted = false := by
  have hfine := not_aborted hstep
  cases step_moves hstep with
  | finalSuspend tag c p hc hpoll hp =>
    have hstage := h.stage hc
    rw [hpoll] at hstage
    obtain ⟨r, rfl⟩ := hstage.at_returning
    exact ⟨(h.not_called (references_pos hc rfl)).1, hfine⟩

/-- Behind the end of the frame with the last reference there is only the destructor. -/
theorem released_after {after : List CoroutineAction} (h : Holding s) (hlast : s.LastInFrame)
    (hnot : s.poll ≠ .destroying)
    (hrun : Runs.run step s (.finalSuspend :: after) = some t) :
    t.poll = .destroying ∧ after = destructorSteps t.destructor t.aborted := by
  obtain ⟨u, hu, hafter⟩ := Runs.run_cons.mp hrun
  obtain ⟨hcalled, hfine⟩ := h.ends hu
  have hstart : Holding u ∧ u.poll = .destroying ∧ [] = destructorSteps u.destructor u.aborted :=
    ⟨step_holding h hu, (enters_destroying h hnot hu).mpr ⟨rfl, hlast⟩, by rw [hcalled]; rfl⟩
  refine (Runs.run_history (P := fun before s => Holding s ∧ s.poll = .destroying ∧
    before = destructorSteps s.destructor s.aborted) (fun before s a t hs hstep => ?_) hafter
    hstart).2
  obtain ⟨hs, hat, rfl⟩ := hs
  obtain ⟨hat', hsteps⟩ := destroying_step hs hat hstep
  exact ⟨step_holding hs hstep, hat', hsteps⟩

/-- How the polling thread came into the destructor. -/
def Released (owners : Nat) (actions : List CoroutineAction) (t : CoroutineClient) : Prop :=
  ∃ before s, Runs.run step (construct owners) before = some s ∧ s.LastInFrame ∧
    actions = before ++ .finalSuspend :: destructorSteps t.destructor t.aborted

theorem destroying_history (hrun : Runs.run step (construct owners) actions = some t)
    (hat : t.poll = .destroying) : Released owners actions t := by
  have hstart : Holding (construct owners) ∧
      Runs.run step (construct owners) [] = some (construct owners) ∧
      ((construct owners).poll = .destroying → Released owners [] (construct owners)) :=
    ⟨construct_holding owners, rfl, nofun⟩
  refine (Runs.run_history (P := fun before t => Holding t ∧
    Runs.run step (construct owners) before = some t ∧ (t.poll = .destroying →
      Released owners before t)) (fun before s a t hs hstep => ?_) hrun hstart).2.2 hat
  obtain ⟨hholding, hbefore, hreleased⟩ := hs
  refine ⟨step_holding hholding hstep, Runs.run_snoc.mpr ⟨s, hbefore, hstep⟩, fun hat => ?_⟩
  by_cases hinside : s.poll = .destroying
  · obtain ⟨before', s', hbefore', hlast, rfl⟩ := hreleased hinside
    refine ⟨before', s', hbefore', hlast, ?_⟩
    rw [← (destroying_step hholding hinside hstep).2, List.append_assoc, List.cons_append]
  · obtain ⟨rfl, hlast⟩ := (enters_destroying hholding hinside hstep).mp hat
    obtain ⟨hcalled, -⟩ := hholding.ends hstep
    exact ⟨before, s, hbefore, hlast, by rw [hcalled]; rfl⟩

/-- A frame that is alive keeps the thread out of the destructor. -/
theorem Holding.last_outside (h : Holding s) (hlast : s.LastInFrame) : s.poll ≠ .destroying := by
  refine (h.not_called ?_).2.2.2
  show 0 < s.owners + s.frames.countP AsyncSubmitBridge.alive
  rw [hlast.1, hlast.2]
  exact Nat.one_pos

/-- **When the process is aborted.** A run ends in an abort exactly if it ends with a
frame that gave up the last reference to the client and the destructor that this brought
about; and once a frame has done so nothing but that destructor can follow, and it never
returns. -/
theorem self_join_iff (hrun : Runs.run step (construct owners) actions = some t) :
    (t.aborted = true ↔ ∃ before s, Runs.run step (construct owners) before = some s ∧
      s.LastInFrame ∧ actions = before ++ [.finalSuspend, .setShutdown, .shutdownQueue, .join]) ∧
    ∀ before s after, Runs.run step (construct owners) before = some s → s.LastInFrame →
      actions = before ++ .finalSuspend :: after →
      after <+: [.setShutdown, .shutdownQueue, .join] ∧ t.destructor ≠ .returned := by
  have hholding := run_holding hrun
  have hinside : ∀ before s after, Runs.run step (construct owners) before = some s →
      s.LastInFrame → actions = before ++ .finalSuspend :: after →
      t.poll = .destroying ∧ after = destructorSteps t.destructor t.aborted := by
    intro before s after hbefore hlast hactions
    subst hactions
    obtain ⟨s', hs', hrest⟩ := Runs.run_append.mp hrun
    obtain rfl : s = s' := Option.some.inj (hbefore.symm.trans hs')
    have hs := run_holding hbefore
    exact released_after hs hlast (hs.last_outside hlast) hrest
  refine ⟨⟨fun haborted => ?_, ?_⟩, fun before s after hbefore hlast hactions => ?_⟩
  · obtain ⟨hat, hjoining⟩ := hholding.aborted haborted
    obtain ⟨before, s, hbefore, hlast, hactions⟩ := destroying_history hrun hat
    rw [hjoining, haborted] at hactions
    exact ⟨before, s, hbefore, hlast, hactions⟩
  · rintro ⟨before, s, hbefore, hlast, hactions⟩
    obtain ⟨-, hafter⟩ := hinside before s _ hbefore hlast hactions
    cases hdestructor : t.destructor <;> cases haborted : t.aborted <;>
      simp [hdestructor, haborted, destructorSteps] at hafter ⊢
  · obtain ⟨hat, rfl⟩ := hinside before s after hbefore hlast hactions
    refine ⟨?_, (hholding.destroying hat).2⟩
    cases t.destructor <;> cases t.aborted <;> exact ⟨_, rfl⟩

theorem self_join_iff_dropped : ∃ t, Runs.run step (construct 1)
    (oneBridge ++ [.finalSuspend, .setShutdown, .shutdownQueue, .join]) = some t ∧
      t.aborted = true :=
  ⟨_, rfl, (@self_join_iff 1 (oneBridge ++ _) _ rfl).1.mpr ⟨oneBridge, _, rfl, by decide, rfl⟩⟩

end Run

end CoroutineClient

end DistTaskSystem
