import DistTaskSystem.Client.GrpcClient
import DistTaskSystem.Library.Parties
import DistTaskSystem.Library.Runs

/-!
# DTS — what becomes of an asynchronous submission

`submit_dag_async` calls `Finish` itself, and its tag calls it again when the first event
comes: the tag takes that event for the one of `StartCall`, which gRPC never reports. So a
call is finished twice exactly if its event says that all is well, and its tag and
promise then hang on an event of the second `Finish`. And once `shutdown_` is set, the
thread does not empty the queue: what is still in it is never handed to its tag.

## Results

* `SubmitStage`         — the life of a tag.
* `step_tracked`        — a step takes one tag from a stage to the next.
* `async_submission_iff` — when a submission completes exactly once.
-/

namespace DistTaskSystem

/-- `Finish` was called once, the tag deleted once and the promise fulfilled once. -/
def AsyncDagSubmitTag.CompletedOnce (c : AsyncDagSubmitTag) : Prop :=
  c.finishes = 1 ∧ c.deletes = 1 ∧ c.promise.length = 1

instance (c : AsyncDagSubmitTag) : Decidable c.CompletedOnce :=
  inferInstanceAs (Decidable (_ ∧ _ ∧ _))

namespace GrpcClient

/-- The flag of an event for the tag. -/
def eventFor (tag : Nat) : ClientAction → Option Bool
  | .event tag' ok _ _ => if tag' = tag then some ok else none
  | _ => none

/-- The flags of the events that the thread took for a tag. -/
def eventsFor (tag : Nat) (actions : List ClientAction) : List Bool :=
  actions.filterMap (eventFor tag)

-- ---------------------------------------------------------------------------
-- The life of a tag
-- ---------------------------------------------------------------------------

/-- The stage of a tag, while the thread is at `p` and has taken these events for it. -/
inductive SubmitStage (tag : Nat) (c : AsyncDagSubmitTag) (p : PollPoint) (events : List Bool) :
    Prop
  | launched (hstep : c.step = .launch) (honce : c.once = false) (hpending : c.pending = 1)
      (hfinishes : c.finishes = 1) (hdeletes : c.deletes = 0) (hpromise : c.promise = [])
      (hp : p.tag? ≠ some tag) (hevents : events = [])
  | reported (ok : Bool) (hstep : c.step = .launch) (honce : c.once = false)
      (hpending : c.pending = 0) (hfinishes : c.finishes = 1) (hdeletes : c.deletes = 0)
      (hpromise : c.promise = []) (hp : p = .proceeding tag ok) (hevents : events = [ok])
  /-- after the second call of `Finish` -/
  | relaunched (hstep : c.step = .finish) (honce : c.once = false) (hpending : c.pending = 1)
      (hfinishes : c.finishes = 2) (hdeletes : c.deletes = 0) (hpromise : c.promise = [])
      (hp : p.tag? ≠ some tag) (hevents : events = [true])
  | reportedAgain (ok : Bool) (hstep : c.step = .finish) (honce : c.once = false)
      (hpending : c.pending = 0) (hfinishes : c.finishes = 2) (hdeletes : c.deletes = 0)
      (hpromise : c.promise = []) (hp : p = .proceeding tag ok) (hevents : events = [true, ok])
  | failed (hpending : c.pending = 0) (hfinishes : c.finishes = 1) (hdeletes : c.deletes = 1)
      (hpromise : c.promise.length = 1) (hp : p.tag? ≠ some tag) (hevents : events = [false])
  | finished (ok : Bool) (hpending : c.pending = 0) (hfinishes : c.finishes = 2)
      (hdeletes : c.deletes = 1) (hpromise : c.promise.length = 1) (hp : p.tag? ≠ some tag)
      (hevents : events = [true, ok])

/-- What the thread does for others leaves a tag in its stage. -/
theorem SubmitStage.elsewhere {tag : Nat} {c : AsyncDagSubmitTag} {p p' : PollPoint}
    {events : List Bool} (h : SubmitStage tag c p events) (hp : p.tag? ≠ some tag)
    (hp' : p'.tag? ≠ some tag) : SubmitStage tag c p' events := by
  cases h with
  | launched hstep honce hpending hfinishes hdeletes hpromise _ hevents =>
    exact .launched hstep honce hpending hfinishes hdeletes hpromise hp' hevents
  | reported ok _ _ _ _ _ _ hat _ => exact absurd (hat ▸ rfl) hp
  | relaunched hstep honce hpending hfinishes hdeletes hpromise _ hevents =>
    exact .relaunched hstep honce hpending hfinishes hdeletes hpromise hp' hevents
  | reportedAgain ok _ _ _ _ _ _ hat _ => exact absurd (hat ▸ rfl) hp
  | failed hpending hfinishes hdeletes hpromise _ hevents =>
    exact .failed hpending hfinishes hdeletes hpromise hp' hevents
  | finished ok hpending hfinishes hdeletes hpromise _ hevents =>
    exact .finished ok hpending hfinishes hdeletes hpromise hp' hevents

/-- An event for a tag that waits for one. -/
theorem SubmitStage.event {tag : Nat} {c : AsyncDagSubmitTag} {p : PollPoint}
    {events : List Bool} (h : SubmitStage tag c p events) (hpending : 0 < c.pending) (ok : Bool)
    (response : SubmitDagResponse) (status : GrpcStatus) :
    SubmitStage tag (report c response status) (.proceeding tag ok) (events ++ [ok]) := by
  cases h with
  | launched hstep honce hone hfinishes hdeletes hpromise _ hevents =>
    exact .reported ok hstep honce (by rw [report, hone]) hfinishes hdeletes hpromise rfl
      (by rw [hevents, List.nil_append])
  | relaunched hstep honce hone hfinishes hdeletes hpromise _ hevents =>
    exact .reportedAgain ok hstep honce (by rw [report, hone]) hfinishes hdeletes hpromise rfl
      (by rw [hevents]; rfl)
  | reported _ _ _ hnone _ _ _ _ _ => omega
  | reportedAgain _ _ _ hnone _ _ _ _ _ => omega
  | failed hnone _ _ _ _ _ => omega
  | finished _ hnone _ _ _ _ _ => omega

/-- `ProceedImpl`. -/
theorem SubmitStage.proceed {tag : Nat} {c : AsyncDagSubmitTag} {ok : Bool} {events : List Bool}
    (h : SubmitStage tag c (.proceeding tag ok) events) {p : PollPoint} (hp : p.tag? ≠ some tag) :
    SubmitStage tag (c.proceedImpl ok) p events := by
  cases h with
  | launched _ _ _ _ _ _ hnot _ => exact absurd rfl hnot
  | relaunched _ _ _ _ _ _ hnot _ => exact absurd rfl hnot
  | failed _ _ _ _ hnot _ => exact absurd rfl hnot
  | finished _ _ _ _ _ hnot _ => exact absurd rfl hnot
  | reported ok' hstep honce hpending hfinishes hdeletes hpromise hat hevents =>
    obtain rfl : ok = ok' := (PollPoint.proceeding.inj hat).2
    cases ok with
    | true =>
      rw [AsyncDagSubmitTag.proceedImpl, hstep]
      refine .relaunched rfl honce ?_ ?_ hdeletes hpromise hp hevents
      · show c.pending + 1 = 1
        rw [hpending]
      · show c.finishes + 1 = 2
        rw [hfinishes]
    | false =>
      rw [AsyncDagSubmitTag.proceedImpl, hstep]
      obtain ⟨hlength, hpending', hfinishes', hdeletes'⟩ := AsyncDagSubmitTag.setResult_promise
        (c.setStatus ⟨.internal, "Failed to start RPC call"⟩) honce
      refine .failed (hpending'.trans hpending) (hfinishes'.trans hfinishes) ?_ ?_ hp hevents
      · exact congrArg (· + 1) (hdeletes'.trans hdeletes)
      · exact hlength.trans (congrArg (·.length + 1) hpromise)
  | reportedAgain ok' hstep honce hpending hfinishes hdeletes hpromise hat hevents =>
    obtain rfl : ok = ok' := (PollPoint.proceeding.inj hat).2
    have hset : ∀ d : AsyncDagSubmitTag, d.once = false → d.pending = 0 → d.finishes = 2 →
        d.deletes = 0 → d.promise = [] → SubmitStage tag d.setResult.delete p events := by
      intro d honce' hpending' hfinishes' hdeletes' hpromise'
      obtain ⟨hlength, hsamePending, hsameFinishes, hsameDeletes⟩ := d.setResult_promise honce'
      refine .finished ok (hsamePending.trans hpending') (hsameFinishes.trans hfinishes') ?_ ?_ hp
        hevents
      · exact congrArg (· + 1) (hsameDeletes.trans hdeletes')
      · exact hlength.trans (congrArg (·.length + 1) hpromise')
    rw [AsyncDagSubmitTag.proceedImpl, hstep]
    cases ok with
    | true => exact hset c honce hpending hfinishes hdeletes hpromise
    | false => exact hset (c.setStatus _) honce hpending hfinishes hdeletes hpromise

-- ---------------------------------------------------------------------------
-- Every run
-- ---------------------------------------------------------------------------

/-- Each tag is in the stage that its events lead to. -/
structure Tracked (before : List ClientAction) (s : GrpcClient) : Prop where
  stub : s.stub = true
  stage : ∀ (tag : Nat) (c : AsyncDagSubmitTag), s.calls[tag]? = some c →
    SubmitStage tag c s.poll (eventsFor tag before)
  future : ∀ tag, s.calls.length ≤ tag → eventsFor tag before = []
  inside : ∀ tag, s.poll.tag? = some tag → tag < s.calls.length
  joined : s.destructor = .returned → s.poll = .exited

section Tracked

variable {before actions : List ClientAction} {s t : GrpcClient} {a : ClientAction}

theorem eventsFor_append (tag : Nat) (before : List ClientAction) (a : ClientAction) :
    eventsFor tag (before ++ [a]) = eventsFor tag before ++ (eventFor tag a).toList := by
  rw [eventsFor, List.filterMap_append]
  cases h : eventFor tag a <;> simp [eventsFor, h]

/-- A step without an event, in which the thread is in no tag and no tag is touched. -/
theorem Tracked.idle (h : Tracked before s) {a : ClientAction} (ha : ∀ tag, eventFor tag a = none)
    (hcalls : t.calls = s.calls) (hstub : t.stub = s.stub)
    (hpoll : t.poll = s.poll ∨ s.poll.tag? = none ∧ t.poll.tag? = none)
    (hjoined : t.destructor = .returned → t.poll = .exited) : Tracked (before ++ [a]) t := by
  have hevents : ∀ tag, eventsFor tag (before ++ [a]) = eventsFor tag before := by
    intro tag
    rw [eventsFor_append, ha, Option.toList_none, List.append_nil]
  refine ⟨hstub.trans h.stub, fun tag c hc => ?_, fun tag htag => ?_, fun tag htag => ?_, hjoined⟩
  · rw [hevents]
    have hstage := h.stage tag c (hcalls ▸ hc)
    rcases hpoll with hsame | ⟨hs, ht⟩
    · rwa [hsame]
    · exact hstage.elsewhere (by rw [hs]; nofun) (by rw [ht]; nofun)
  · rw [hevents]
    exact h.future tag (hcalls ▸ htag)
  · rw [hcalls]
    rcases hpoll with hsame | ⟨-, ht⟩
    · exact h.inside tag (hsame ▸ htag)
    · exact nomatch ht.symm.trans htag

/-- A new tag, launched and finished once. -/
theorem Tracked.submit (h : Tracked before s) (hdestructor : s.destructor = .notCalled)
    (hasCallback : Bool) :
    Tracked (before ++ [.submit hasCallback]) (s.submitDagAsync hasCallback) := by
  have hevents : ∀ tag, eventsFor tag (before ++ [.submit hasCallback]) = eventsFor tag before := by
    intro tag
    rw [eventsFor_append]
    exact List.append_nil _
  rw [submitDagAsync, if_pos h.stub]
  refine ⟨h.stub, ?_, fun tag htag => ?_, fun tag htag => ?_, fun hreturned => ?_⟩
  · refine Parties.forall_concat (fun tag c hc => ?_) ?_
    · rw [hevents]
      exact h.stage tag c hc
    · refine .launched rfl rfl rfl rfl rfl rfl (fun htag => ?_) ?_
      · exact Nat.lt_irrefl _ (h.inside _ htag)
      · rw [hevents]
        exact h.future _ (Nat.le_refl _)
  · rw [hevents]
    rw [List.length_append] at htag
    exact h.future tag (Nat.le_of_succ_le htag)
  · rw [List.length_append]
    exact Nat.lt_succ_of_lt (h.inside tag htag)
  · exact nomatch hreturned.symm.trans hdestructor

/-- A step in which the thread goes on with a tag. -/
theorem Tracked.move (h : Tracked before s) {tag : Nat} {c c' : AsyncDagSubmitTag}
    (hc : s.calls[tag]? = some c) {p : PollPoint} (hrunning : s.poll ≠ .exited)
    (hpoll : s.poll.tag? = none ∨ s.poll.tag? = some tag)
    (hp : p.tag? = none ∨ p.tag? = some tag) (ha : ∀ tag' ≠ tag, eventFor tag' a = none)
    (hstage : SubmitStage tag c' p (eventsFor tag (before ++ [a]))) :
    Tracked (before ++ [a]) { s with poll := p, calls := s.calls.set tag c' } := by
  have hlt : tag < s.calls.length := (List.getElem?_eq_some_iff.mp hc).1
  have hne : ∀ {q : PollPoint}, q.tag? = none ∨ q.tag? = some tag → ∀ tag' ≠ tag,
      q.tag? ≠ some tag' := by
    intro q hq tag' htag hat
    rcases hq with hq | hq
    · exact nomatch hq.symm.trans hat
    · exact htag (Option.some.inj (hat.symm.trans hq))
  have hevents : ∀ tag' ≠ tag, eventsFor tag' (before ++ [a]) = eventsFor tag' before := by
    intro tag' htag
    rw [eventsFor_append, ha tag' htag, Option.toList_none, List.append_nil]
  refine ⟨h.stub, ?_, fun tag' htag => ?_, fun tag' htag => ?_, fun hreturned => ?_⟩
  · refine Parties.forall_set (fun tag' d htag hd => ?_) hstage
    rw [hevents tag' htag]
    exact (h.stage tag' d hd).elsewhere (hne hpoll tag' htag) (hne hp tag' htag)
  · rw [List.length_set] at htag
    rw [hevents tag' (Nat.ne_of_gt (Nat.lt_of_lt_of_le hlt htag))]
    exact h.future tag' htag
  · rw [List.length_set]
    obtain rfl : tag' = tag := of_not_not fun hother => hne hp tag' hother htag
    exact hlt
  · exact absurd (h.joined hreturned) hrunning

/-- **A step takes one tag from a stage to the next.** -/
theorem step_tracked (h : Tracked before s) (hstep : s.step a = some t) :
    Tracked (before ++ [a]) t := by
  cases step_moves hstep with
  | submit hasCallback hdestructor => exact h.submit hdestructor hasCallback
  | test p hpoll hp =>
    refine h.idle (fun _ => rfl) rfl rfl (.inr ⟨by rw [hpoll]; rfl, ?_⟩) fun hreturned => ?_
    · subst hp
      dsimp only
      split <;> rfl
    · exact nomatch hpoll.symm.trans (h.joined hreturned)
  | event tag ok response status c hc hpoll hpending =>
    refine h.move hc (by rw [hpoll]; nofun) (.inl (by rw [hpoll]; rfl)) (.inr rfl)
      (fun tag' htag => if_neg (Ne.symm htag)) ?_
    rw [eventsFor_append, eventFor, if_pos rfl]
    exact (h.stage tag c hc).event hpending ok response status
  | timeout hpoll =>
    refine h.idle (fun _ => rfl) rfl rfl (.inr ⟨by rw [hpoll]; rfl, rfl⟩) fun hreturned => ?_
    exact nomatch hpoll.symm.trans (h.joined hreturned)
  | drained hpoll hdestructor hempty =>
    exact h.idle (fun _ => rfl) rfl rfl (.inr ⟨by rw [hpoll]; rfl, rfl⟩) fun _ => rfl
  | proceed tag ok c hc hpoll =>
    refine h.move hc (by rw [hpoll]; nofun) (.inr (by rw [hpoll]; rfl)) (.inl rfl)
      (fun _ _ => rfl) ?_
    have hevents : eventsFor tag (before ++ [.proceed]) = eventsFor tag before := by
      rw [eventsFor_append]
      exact List.append_nil _
    have hstage := h.stage tag c hc
    rw [hpoll] at hstage
    rw [hevents]
    exact hstage.proceed nofun
  | setShutdown hdestructor => exact h.idle (fun _ => rfl) rfl rfl (.inl rfl) nofun
  | shutdownQueue hdestructor => exact h.idle (fun _ => rfl) rfl rfl (.inl rfl) nofun
  | join hdestructor hpoll => exact h.idle (fun _ => rfl) rfl rfl (.inl rfl) fun _ => hpoll

theorem tracked_construct : Tracked [] construct where
  stub := rfl
  stage tag c hc := by cases hc
  future _ _ := rfl
  inside tag htag := by cases htag
  joined hreturned := by cases hreturned

/-- **When a submission completes exactly once.** By the time the destructor returns,
`Finish` was called once for a call, its tag deleted once and its promise fulfilled once
exactly if the thread has taken an event for it, and the first one with `ok = false`. -/
theorem async_submission_iff (hrun : Runs.run GrpcClient.step construct actions = some s)
    (hreturned : s.destructor = .returned) {tag : Nat} {c : AsyncDagSubmitTag}
    (hc : s.calls[tag]? = some c) :
    c.CompletedOnce ↔ (eventsFor tag actions).head? = some false := by
  have htracked : Tracked actions s :=
    Runs.run_history (fun _ _ _ _ => step_tracked) hrun tracked_construct
  have hexited : s.poll.tag? ≠ some tag := by
    rw [htracked.joined hreturned]
    nofun
  unfold AsyncDagSubmitTag.CompletedOnce
  cases htracked.stage tag c hc with
  | launched _ _ _ hfinishes hdeletes _ _ hevents => simp [hdeletes, hevents]
  | reported ok _ _ _ _ _ _ hat _ => exact absurd (hat ▸ rfl) hexited
  | relaunched _ _ _ hfinishes _ _ _ hevents => simp [hfinishes, hevents]
  | reportedAgain ok _ _ _ _ _ _ hat _ => exact absurd (hat ▸ rfl) hexited
  | failed _ hfinishes hdeletes hpromise _ hevents =>
    simp [hfinishes, hdeletes, hpromise, hevents]
  | finished ok _ hfinishes _ _ _ hevents => simp [hfinishes, hevents]

end Tracked

/-! One call, whose event says that it could not be started, or that all is well. -/

def oneCall (ok : Bool) : List ClientAction :=
  [.submit false, .test, .event 0 ok { body := "job" } {}, .proceed, .setShutdown, .test,
    .shutdownQueue, .join]

theorem async_submission_iff_failed :
    ∃ s c, Runs.run GrpcClient.step construct (oneCall false) = some s ∧
      s.calls[0]? = some c ∧ c.CompletedOnce :=
  ⟨_, _, rfl, rfl, (@async_submission_iff (oneCall false) _ rfl rfl 0 _ rfl).mpr rfl⟩

theorem not_async_submission_once :
    ∃ s c, Runs.run GrpcClient.step construct (oneCall true) = some s ∧
      s.destructor = .returned ∧ s.calls = [c] ∧ ¬ c.CompletedOnce ∧
      c.finishes = 2 ∧ c.deletes = 0 ∧ c.promise = [] :=
  ⟨_, _, rfl, rfl, rfl, by decide, rfl, rfl, rfl⟩

end GrpcClient

end DistTaskSystem
