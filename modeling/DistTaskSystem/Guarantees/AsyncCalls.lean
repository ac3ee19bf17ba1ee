import DistTaskSystem.ApiServer.AsyncServer
import DistTaskSystem.Library.Parties
import DistTaskSystem.Library.Runs

/-!
# DTS — answering asynchronous calls

A context belongs to gRPC while an operation with its tag is under way, and to the
thread of its queue while that is in its `Proceed`; nobody has it afterwards. As each
queue has one thread, no context is ever in two hands, so the life of each is a
sequence of stages.

## Results

* `CallStage`               — the life of a context.
* `step_owned`              — a step takes one context from a stage to the next.
* `step_listening`          — a context that takes a request is replaced.
* `async_server_answers_once` — the server answers every request once and never stops
  listening.
-/

namespace DistTaskSystem

namespace AsyncServer

variable {Body : Type}

-- ---------------------------------------------------------------------------
-- The statements
-- ---------------------------------------------------------------------------

/-- The contexts of a method that are registered and wait for a request. -/
def waiting (s : AsyncServer Body) (method : ApiMethod) : Nat :=
  s.contexts.countP fun c => c.method = method ∧ c.operation = some .request

/-- The contexts of a method that have taken a request and have no successor yet. -/
def answering (s : AsyncServer Body) (method : ApiMethod) : Nat :=
  s.contexts.countP fun c => c.method = method ∧ c.tally.replaced < c.tally.accepted

/-- A thread is in the `Proceed` of the context. -/
def Inside (s : AsyncServer Body) (tag : Nat) : Prop := ∃ p ∈ s.threads, p.tag? = some tag

/-- The server answers every request once and never stops listening. -/
structure AnswersOnce [Inhabited Body] (contexts : Nat) (s : AsyncServer Body) : Prop where
  /-- who takes a request is replaced, once, before its `Proceed` returns -/
  listening : ∀ method, s.waiting method + s.answering method = contexts
  replaced : ∀ (tag : Nat) (c : AsyncCallContext Body), s.contexts[tag]? = some c →
    c.tally.replaced ≤ c.tally.accepted ∧
      (¬ s.Inside tag → c.tally.replaced = c.tally.accepted)
  idle : (∀ p ∈ s.threads, p = .next) → ∀ method, s.waiting method = contexts
  /-- `Finish` is called for each accepted request, once -/
  accepted : ∀ (tag : Nat) (c : AsyncCallContext Body), s.contexts[tag]? = some c →
    c.tally.accepted ≤ 1
  finishes : ∀ (tag : Nat) (c : AsyncCallContext Body), s.contexts[tag]? = some c →
    c.tally.finishes ≤ c.tally.accepted ∧
      (¬ s.Inside tag → c.tally.finishes = c.tally.accepted)
  /-- a context is deleted at its response-sent event, once -/
  sent : ∀ (tag : Nat) (c : AsyncCallContext Body), s.contexts[tag]? = some c →
    c.tally.sent ≤ c.tally.finishes
  deletes : ∀ (tag : Nat) (c : AsyncCallContext Body), s.contexts[tag]? = some c →
    c.tally.deletes ≤ c.tally.sent ∧ (¬ s.Inside tag → c.tally.deletes = c.tally.sent)
  /-- and neither gRPC nor a thread has it then -/
  unused : ∀ (tag : Nat) (c : AsyncCallContext Body), s.contexts[tag]? = some c →
    c.tally.deletes ≠ 0 → c.operation = none ∧ ¬ s.Inside tag
  /-- a call of `Proceed` comes to its end, however the handler does -/
  returns : ∀ (i : Nat) (p : DriverPoint), s.threads[i]? = some p → ∀ handler now, ∃ actions t,
    actions.Sublist [.proceed i, .execute i handler now, .finish i, .replace i] ∧
      Runs.run AsyncServer.step s actions = some t ∧ t.threads[i]? = some .next

-- ---------------------------------------------------------------------------
-- The life of a context
-- ---------------------------------------------------------------------------

/-- The stage of a context, while the thread of its queue is at `p`. -/
inductive CallStage (tag : Nat) (c : AsyncCallContext Body) (p : DriverPoint) : Prop
  | waiting (hstatus : c.status = .create) (hoperation : c.operation = some .request)
      (htally : c.tally = {}) (hp : p.tag? ≠ some tag)
  | accepted (hstatus : c.status = .create) (hoperation : c.operation = none)
      (htally : c.tally = { accepted := 1 })
      (hp : p = .proceed tag true ∨ p = .execute tag ∨ p = .finish tag)
  | finished (hstatus : c.status = .finish) (hoperation : c.operation = some .response)
      (htally : c.tally = { accepted := 1, finishes := 1 }) (hp : p = .replace tag)
  | answered (hstatus : c.status = .finish) (hoperation : c.operation = some .response)
      (htally : c.tally = { accepted := 1, finishes := 1, replaced := 1 })
      (hp : p.tag? ≠ some tag)
  | sent (ok : Bool) (hstatus : c.status = .finish) (hoperation : c.operation = none)
      (htally : c.tally = { accepted := 1, finishes := 1, replaced := 1, sent := 1 })
      (hp : p = .proceed tag ok)
  | deleted (hoperation : c.operation = none)
      (htally : c.tally = { accepted := 1, finishes := 1, replaced := 1, sent := 1, deletes := 1 })
      (hp : p.tag? ≠ some tag)

/-- A thread that has nothing to do with a context leaves it in its stage. -/
theorem CallStage.elsewhere {tag : Nat} {c : AsyncCallContext Body} {p p' : DriverPoint}
    (h : CallStage tag c p) (hp : p.tag? ≠ some tag) (hp' : p'.tag? ≠ some tag) :
    CallStage tag c p' := by
  cases h with
  | waiting hstatus hoperation htally _ => exact .waiting hstatus hoperation htally hp'
  | accepted hstatus hoperation htally hat =>
    rcases hat with rfl | rfl | rfl <;> exact absurd rfl hp
  | finished hstatus hoperation htally hat => exact absurd (hat ▸ rfl) hp
  | answered hstatus hoperation htally _ => exact .answered hstatus hoperation htally hp'
  | sent ok hstatus hoperation htally hat => exact absurd (hat ▸ rfl) hp
  | deleted hoperation htally _ => exact .deleted hoperation htally hp'

/-- Where the thread of a queue stands; a queue without one is never read. -/
def pointOf (s : AsyncServer Body) (cq : Nat) : DriverPoint := (s.threads[cq]?).getD .next

/-- Each context is in a stage, and a thread has none but those of its queue. -/
structure Owned (s : AsyncServer Body) : Prop where
  stage : ∀ (tag : Nat) (c : AsyncCallContext Body), s.contexts[tag]? = some c →
    CallStage tag c (s.pointOf c.cq)
  thread : ∀ (i : Nat) (p : DriverPoint) (tag : Nat), s.threads[i]? = some p → p.tag? = some tag →
    ∃ c : AsyncCallContext Body, s.contexts[tag]? = some c ∧ c.cq = i

section Owned

variable {s t : AsyncServer Body} {tag i : Nat} {c c' : AsyncCallContext Body} {p : DriverPoint}

theorem pointOf_eq (hthread : s.threads[i]? = some p) : s.pointOf i = p := by
  rw [pointOf, hthread, Option.getD_some]

theorem tag_ne {tag' : Nat} (hp : p = .next ∨ p.tag? = some tag) (htag : tag' ≠ tag) :
    p.tag? ≠ some tag' := by
  intro hp'
  rcases hp with rfl | hp
  · exact nomatch hp'
  · exact htag (Option.some.inj (hp'.symm.trans hp))

/-- A thread moves with a context that is its own. -/
theorem Owned.move (h : s.Owned) (hc : s.contexts[tag]? = some c)
    (hthread : s.threads[c.cq]? = some p) (hp : p = .next ∨ p.tag? = some tag)
    {p' : DriverPoint} (hp' : p' = .next ∨ p'.tag? = some tag) (hcq : c'.cq = c.cq)
    (hstage : CallStage tag c' p') : (s.move c.cq p' tag c').Owned := by
  have hlt : c.cq < s.threads.length := (List.getElem?_eq_some_iff.mp hthread).1
  have hlt' : tag < s.contexts.length := (List.getElem?_eq_some_iff.mp hc).1
  have hself : (s.move c.cq p' tag c').pointOf c.cq = p' :=
    pointOf_eq (List.getElem?_set_self hlt)
  have hother : ∀ cq ≠ c.cq, (s.move c.cq p' tag c').pointOf cq = s.pointOf cq := by
    intro cq hcq'
    show (Option.getD ((s.threads.set c.cq p')[cq]?) _) = _
    rw [List.getElem?_set_ne hcq'.symm]
    rfl
  constructor
  · refine Parties.forall_set (fun tag' d htag hd => ?_) ?_
    · have hold := h.stage tag' d hd
      by_cases hcq' : d.cq = c.cq
      · rw [hcq', hself]
        rw [hcq', pointOf_eq hthread] at hold
        exact hold.elsewhere (tag_ne hp htag) (tag_ne hp' htag)
      · rw [hother _ hcq']
        exact hold
    · rw [hcq, hself]
      exact hstage
  · intro i q tag' hq htag'
    by_cases hi : i = c.cq
    · subst hi
      obtain rfl : p' = q := Option.some.inj ((List.getElem?_set_self hlt).symm.trans hq)
      obtain rfl : tag' = tag := of_not_not fun htag => tag_ne hp' htag htag'
      exact ⟨c', List.getElem?_set_self hlt', hcq⟩
    · obtain ⟨d, hd, hdcq⟩ := h.thread i q tag'
        ((List.getElem?_set_ne (Ne.symm hi)).symm.trans hq) htag'
      have htag : tag' ≠ tag := by
        rintro rfl
        obtain rfl : c = d := Option.some.inj (hc.symm.trans hd)
        exact hi hdcq.symm
      exact ⟨d, (List.getElem?_set_ne (Ne.symm htag)).trans hd, hdcq⟩

/-- A new context waits for its first request. -/
theorem Owned.create [Inhabited Body] (h : s.Owned) (method : ApiMethod) (cq : Nat) :
    (s.create method cq).Owned := by
  constructor
  · refine Parties.forall_concat h.stage (.waiting rfl rfl rfl ?_)
    intro (htag : ((s.threads[cq]?).getD .next).tag? = some s.contexts.length)
    -- a thread is in a context that exists
    cases hp : s.threads[cq]? with
    | none =>
      rw [hp] at htag
      exact nomatch htag
    | some p =>
      rw [hp] at htag
      obtain ⟨d, hd, -⟩ := h.thread cq p _ hp htag
      exact absurd (List.getElem?_eq_some_iff.mp hd).1 (Nat.lt_irrefl _)
  · intro i p tag hp htag
    obtain ⟨d, hd, hcq⟩ := h.thread i p tag hp htag
    have hlt : tag < s.contexts.length := (List.getElem?_eq_some_iff.mp hd).1
    exact ⟨d, (List.getElem?_append_left hlt).trans hd, hcq⟩

/-- The context a thread is in is of its queue, and in the stage that fits. -/
theorem Owned.at_point (h : s.Owned) (hthread : s.threads[i]? = some p)
    (htag : p.tag? = some tag) (hc : s.contexts[tag]? = some c) : c.cq = i ∧ CallStage tag c p := by
  obtain ⟨d, hd, rfl⟩ := h.thread i p tag hthread htag
  obtain rfl : c = d := Option.some.inj (hc.symm.trans hd)
  have hstage := h.stage tag c hc
  rw [pointOf_eq hthread] at hstage
  exact ⟨rfl, hstage⟩

theorem Owned.stage_next (h : s.Owned) (hc : s.contexts[tag]? = some c)
    (hthread : s.threads[c.cq]? = some p) : CallStage tag c p :=
  pointOf_eq hthread ▸ h.stage tag c hc

theorem stage_request (h : CallStage tag c p) (hoperation : c.operation = some .request) :
    c.status = .create ∧ c.tally = {} := by
  cases h with
  | waiting hstatus _ htally _ => exact ⟨hstatus, htally⟩
  | accepted _ hnone _ _ => exact nomatch hnone.symm.trans hoperation
  | finished _ hresponse _ _ => exact nomatch hresponse.symm.trans hoperation
  | answered _ hresponse _ _ => exact nomatch hresponse.symm.trans hoperation
  | sent _ _ hnone _ _ => exact nomatch hnone.symm.trans hoperation
  | deleted hnone _ _ => exact nomatch hnone.symm.trans hoperation

/-- The event of a response is taken when its context has been replaced. -/
theorem stage_response (h : CallStage tag c .next) (hoperation : c.operation = some .response) :
    c.status = .finish ∧ c.tally = { accepted := 1, finishes := 1, replaced := 1 } := by
  cases h with
  | waiting _ hrequest _ _ => exact nomatch hrequest.symm.trans hoperation
  | accepted _ hnone _ _ => exact nomatch hnone.symm.trans hoperation
  | finished _ _ _ hat => exact nomatch hat
  | answered hstatus _ htally _ => exact ⟨hstatus, htally⟩
  | sent _ _ hnone _ _ => exact nomatch hnone.symm.trans hoperation
  | deleted hnone _ _ => exact nomatch hnone.symm.trans hoperation

theorem stage_accepted (h : CallStage tag c p) (hp : p = .execute tag ∨ p = .finish tag) :
    c.status = .create ∧ c.operation = none ∧ c.tally = { accepted := 1 } := by
  have htag : p.tag? = some tag := by rcases hp with rfl | rfl <;> rfl
  cases h with
  | waiting _ _ _ hnot => exact absurd htag hnot
  | accepted hstatus hoperation htally _ => exact ⟨hstatus, hoperation, htally⟩
  | finished _ _ _ hat => rcases hp with rfl | rfl <;> exact nomatch hat
  | answered _ _ _ hnot => exact absurd htag hnot
  | sent ok _ _ _ hat => rcases hp with rfl | rfl <;> exact nomatch hat
  | deleted _ _ hnot => exact absurd htag hnot

theorem stage_finished (h : CallStage tag c (.replace tag)) :
    c.status = .finish ∧ c.operation = some .response ∧
      c.tally = { accepted := 1, finishes := 1 } := by
  cases h with
  | waiting _ _ _ hnot => exact absurd rfl hnot
  | accepted _ _ _ hat => rcases hat with hat | hat | hat <;> exact nomatch hat
  | finished hstatus hoperation htally _ => exact ⟨hstatus, hoperation, htally⟩
  | answered _ _ _ hnot => exact absurd rfl hnot
  | sent ok _ _ _ hat => exact nomatch hat
  | deleted _ _ hnot => exact absurd rfl hnot

/-- `Proceed` begins with a request that was accepted, or with a response that was sent. -/
theorem stage_proceed {ok : Bool} (h : CallStage tag c (.proceed tag ok)) :
    (ok = true ∧ c.status = .create ∧ c.operation = none ∧ c.tally = { accepted := 1 }) ∨
      (c.status = .finish ∧ c.operation = none ∧
        c.tally = { accepted := 1, finishes := 1, replaced := 1, sent := 1 }) := by
  cases h with
  | waiting _ _ _ hnot => exact absurd rfl hnot
  | accepted hstatus hoperation htally hat =>
    rcases hat with hat | hat | hat
    · exact .inl ⟨(DriverPoint.proceed.inj hat).2, hstatus, hoperation, htally⟩
    · exact nomatch hat
    · exact nomatch hat
  | finished _ _ _ hat => exact nomatch hat
  | answered _ _ _ hnot => exact absurd rfl hnot
  | sent ok' hstatus hoperation htally _ => exact .inr ⟨hstatus, hoperation, htally⟩
  | deleted _ _ hnot => exact absurd rfl hnot

/-- What a context counts for: it waits, or its successor is still to come. -/
def share (method : ApiMethod) (c : AsyncCallContext Body) : Nat :=
  (if c.method = method ∧ c.operation = some .request then 1 else 0) +
    if c.method = method ∧ c.tally.replaced < c.tally.accepted then 1 else 0

theorem waiting_add_answering (s : AsyncServer Body) (method : ApiMethod) :
    s.waiting method + s.answering method = (s.contexts.map (share method)).sum := by
  unfold waiting answering
  induction s.contexts with
  | nil => rfl
  | cons c rest ih =>
    simp only [List.countP_cons, List.map_cons, List.sum_cons, decide_eq_true_eq, ← ih, share]
    omega

theorem inside_iff (h : s.Owned) (hc : s.contexts[tag]? = some c) :
    s.Inside tag ↔ (s.pointOf c.cq).tag? = some tag := by
  constructor
  · rintro ⟨p, hp, htag⟩
    obtain ⟨i, hthread⟩ := List.mem_iff_getElem?.mp hp
    obtain ⟨d, hd, rfl⟩ := h.thread i p tag hthread htag
    obtain rfl : c = d := Option.some.inj (hc.symm.trans hd)
    rwa [pointOf_eq hthread]
  · intro htag
    rw [pointOf] at htag
    cases hp : s.threads[c.cq]? with
    | none =>
      rw [hp] at htag
      exact nomatch htag
    | some p =>
      rw [hp] at htag
      exact ⟨p, List.mem_of_getElem? hp, htag⟩

/-- What the stages of a context come to. -/
structure TallyFits (tag : Nat) (c : AsyncCallContext Body) (p : DriverPoint) : Prop where
  accepted : c.tally.accepted ≤ 1
  replaced : c.tally.replaced ≤ c.tally.accepted
  finishes : c.tally.finishes ≤ c.tally.accepted
  sent : c.tally.sent ≤ c.tally.finishes
  deletes : c.tally.deletes ≤ c.tally.sent
  deleted : c.tally.deletes ≠ 0 → c.operation = none ∧ p.tag? ≠ some tag
  outside : p.tag? ≠ some tag → c.tally.finishes = c.tally.accepted ∧
    c.tally.replaced = c.tally.accepted ∧ c.tally.deletes = c.tally.sent

theorem CallStage.tallyFits (h : CallStage tag c p) : TallyFits tag c p := by
  cases h with
  | waiting _ _ htally hp => constructor <;> simp [htally]
  | accepted _ _ htally hp =>
    have htag : p.tag? = some tag := by rcases hp with rfl | rfl | rfl <;> rfl
    constructor <;> simp [htally, htag]
  | finished _ _ htally hp => constructor <;> simp [htally, hp, DriverPoint.tag?]
  | answered _ _ htally hp => constructor <;> simp [htally]
  | sent ok _ _ htally hp => constructor <;> simp [htally, hp, DriverPoint.tag?]
  | deleted hoperation htally hp => constructor <;> simp [htally, hoperation, hp]

-- ---------------------------------------------------------------------------
-- What a step keeps
-- ---------------------------------------------------------------------------

variable [Inhabited Body] {a : ServerAction Body}

/-- **A step takes one context from a stage to the next.** -/
theorem step_owned (h : s.Owned) (hstep : s.step a = some t) : t.Owned := by
  cases step_moves hstep with
  | accept tag c hc hthread hoperation =>
    obtain ⟨hstatus, htally⟩ := stage_request (h.stage tag c hc) hoperation
    refine h.move hc hthread (.inl rfl) (.inr rfl) ?_ ?_
    · rfl
    · exact .accepted hstatus rfl (by rw [AsyncCallContext.requestTaken, htally]) (.inl rfl)
  | sent tag ok c hc hthread hoperation =>
    obtain ⟨hstatus, htally⟩ := stage_response (h.stage_next hc hthread) hoperation
    refine h.move hc hthread (.inl rfl) (.inr rfl) ?_ ?_
    · rfl
    · exact .sent ok hstatus rfl (by rw [AsyncCallContext.responseTaken, htally]) rfl
  | create i tag c hc hthread hstatus =>
    obtain ⟨rfl, hstage⟩ := h.at_point hthread rfl hc
    refine h.move hc hthread (.inr rfl) (.inr rfl) rfl ?_
    rcases stage_proceed hstage with ⟨-, -, hoperation, htally⟩ | ⟨hfinish, -, -⟩
    · exact .accepted hstatus hoperation htally (.inr (.inl rfl))
    · exact nomatch hfinish.symm.trans hstatus
  | delete i tag ok c hc hthread hdone =>
    obtain ⟨rfl, hstage⟩ := h.at_point hthread rfl hc
    refine h.move hc hthread (.inr rfl) (.inl rfl) ?_ ?_
    · rfl
    · rcases stage_proceed hstage with ⟨rfl, hcreate, -, -⟩ | ⟨-, hoperation, htally⟩
      · rcases hdone with hdone | hdone
        · exact nomatch hdone
        · exact nomatch hcreate.symm.trans hdone
      · exact .deleted hoperation (by rw [AsyncCallContext.delete, htally]) nofun
  | execute i tag handler now c hc hthread =>
    obtain ⟨rfl, hstage⟩ := h.at_point hthread rfl hc
    refine h.move hc hthread (.inr rfl) (.inr rfl) ?_ ?_
    · rfl
    · obtain ⟨hstatus, hoperation, htally⟩ := stage_accepted hstage (.inl rfl)
      exact .accepted hstatus hoperation htally (.inr (.inr rfl))
  | finish i tag c hc hthread =>
    obtain ⟨rfl, hstage⟩ := h.at_point hthread rfl hc
    refine h.move hc hthread (.inr rfl) (.inr rfl) ?_ ?_
    · rfl
    · obtain ⟨-, -, htally⟩ := stage_accepted hstage (.inr rfl)
      exact .finished rfl rfl (by rw [AsyncCallContext.finish, htally]) rfl
  | replace i tag c hc hthread =>
    obtain ⟨rfl, hstage⟩ := h.at_point hthread rfl hc
    obtain ⟨hstatus, hoperation, htally⟩ := stage_finished hstage
    refine Owned.create (h.move hc hthread (.inr rfl) (.inl rfl) ?_ ?_) c.method c.cq
    · rfl
    · exact .answered hstatus hoperation (by rw [AsyncCallContext.succeeded, htally]) nofun

-- ---------------------------------------------------------------------------
-- How many contexts listen
-- ---------------------------------------------------------------------------

theorem share_construct (method method' : ApiMethod) (cq : Nat) :
    share method (.construct method' cq : AsyncCallContext Body) =
      if method' = method then 1 else 0 := by
  simp [share, AsyncCallContext.construct]

/-- **A context that takes a request is replaced.** -/
theorem step_listening (h : s.Owned) (hstep : s.step a = some t) (method : ApiMethod) :
    t.waiting method + t.answering method = s.waiting method + s.answering method := by
  rw [waiting_add_answering, waiting_add_answering]
  have hmove : ∀ {tag : Nat} {c : AsyncCallContext Body}, s.contexts[tag]? = some c →
      ∀ c', share method c' = share method c →
      ((s.contexts.set tag c').map (share method)).sum = (s.contexts.map (share method)).sum := by
    intro tag c hc c' hshare
    have hsum := Parties.sum_set (x := c') (share method) hc
    omega
  cases step_moves hstep with
  | accept tag c hc hthread hoperation =>
    obtain ⟨-, htally⟩ := stage_request (h.stage tag c hc) hoperation
    exact hmove hc _ (by simp [share, AsyncCallContext.requestTaken, hoperation, htally])
  | sent tag ok c hc hthread hoperation =>
    obtain ⟨-, htally⟩ := stage_response (h.stage_next hc hthread) hoperation
    exact hmove hc _ (by simp [share, AsyncCallContext.responseTaken, hoperation, htally])
  | create i tag c hc hthread hstatus => exact hmove hc c rfl
  | delete i tag ok c hc hthread hdone => exact hmove hc _ rfl
  | execute i tag handler now c hc hthread => exact hmove hc _ rfl
  | finish i tag c hc hthread =>
    obtain ⟨-, hoperation, htally⟩ := stage_accepted (h.at_point hthread rfl hc).2 (.inr rfl)
    exact hmove hc _ (by simp [share, AsyncCallContext.finish, hoperation, htally])
  | replace i tag c hc hthread =>
    obtain ⟨-, hoperation, htally⟩ := stage_finished (h.at_point hthread rfl hc).2
    have hsum := Parties.sum_set (x := c.succeeded) (share method) hc
    have hbefore : share method c = if c.method = method then 1 else 0 := by
      simp [share, hoperation, htally]
    have hafter : share method c.succeeded = 0 := by
      simp [share, AsyncCallContext.succeeded, hoperation, htally]
    show ((s.contexts.set tag c.succeeded ++
      [(.construct c.method c.cq : AsyncCallContext Body)]).map (share method)).sum = _
    rw [List.map_append, List.sum_append, List.map_singleton, List.sum_singleton, share_construct]
    omega

-- ---------------------------------------------------------------------------
-- A call of Proceed comes to its end
-- ---------------------------------------------------------------------------

theorem returns_replace (h : s.Owned) (hthread : s.threads[i]? = some (.replace tag)) :
    ∃ t, Runs.run AsyncServer.step s [.replace i] = some t ∧ t.threads[i]? = some .next := by
  obtain ⟨c, hc, -⟩ := h.thread i _ tag hthread rfl
  have hstep : s.step (.replace i) = some ((s.move i .next tag c.succeeded).create c.method c.cq) := by
    simp only [step, hthread, hc, Option.map_some]
  exact ⟨_, Runs.run_cons.mpr ⟨_, hstep, rfl⟩,
    List.getElem?_set_self (List.getElem?_eq_some_iff.mp hthread).1⟩

theorem returns_finish (h : s.Owned) (hthread : s.threads[i]? = some (.finish tag)) :
    ∃ t, Runs.run AsyncServer.step s [.finish i, .replace i] = some t ∧
      t.threads[i]? = some .next := by
  obtain ⟨c, hc, -⟩ := h.thread i _ tag hthread rfl
  have hstep : s.step (.finish i) = some (s.move i (.replace tag) tag c.finish) := by
    simp only [step, hthread, hc, Option.map_some]
  obtain ⟨t, hrun, ht⟩ := returns_replace (step_owned h hstep)
    (List.getElem?_set_self (List.getElem?_eq_some_iff.mp hthread).1)
  exact ⟨t, Runs.run_cons.mpr ⟨_, hstep, hrun⟩, ht⟩

theorem returns_execute (h : s.Owned) (hthread : s.threads[i]? = some (.execute tag))
    (handler : ApiHandler Body) (now : Nat) :
    ∃ t, Runs.run AsyncServer.step s [.execute i handler now, .finish i, .replace i] = some t ∧
      t.threads[i]? = some .next := by
  obtain ⟨c, hc, -⟩ := h.thread i _ tag hthread rfl
  have hstep : s.step (.execute i handler now) =
      some (s.move i (.finish tag) tag (s.execute handler now c)) := by
    simp only [step, hthread, hc, Option.map_some]
  obtain ⟨t, hrun, ht⟩ := returns_finish (step_owned h hstep)
    (List.getElem?_set_self (List.getElem?_eq_some_iff.mp hthread).1)
  exact ⟨t, Runs.run_cons.mpr ⟨_, hstep, hrun⟩, ht⟩

/-- The thread that takes an event is back in `Next` after at most four steps of its own. -/
theorem proceed_returns (h : s.Owned) (hthread : s.threads[i]? = some p)
    (handler : ApiHandler Body) (now : Nat) :
    ∃ actions t, actions.Sublist [.proceed i, .execute i handler now, .finish i, .replace i] ∧
      Runs.run AsyncServer.step s actions = some t ∧ t.threads[i]? = some .next := by
  have hlt := (List.getElem?_eq_some_iff.mp hthread).1
  cases p with
  | next => exact ⟨[], s, List.nil_sublist _, rfl, hthread⟩
  | replace tag =>
    obtain ⟨t, hrun, ht⟩ := returns_replace h hthread
    exact ⟨_, t, ((List.Sublist.refl _).cons _).cons _ |>.cons _, hrun, ht⟩
  | finish tag =>
    obtain ⟨t, hrun, ht⟩ := returns_finish h hthread
    exact ⟨_, t, ((List.Sublist.refl _).cons _).cons _, hrun, ht⟩
  | execute tag =>
    obtain ⟨t, hrun, ht⟩ := returns_execute h hthread handler now
    exact ⟨_, t, (List.Sublist.refl _).cons _, hrun, ht⟩
  | proceed tag ok =>
    obtain ⟨c, hc, -⟩ := h.thread i _ tag hthread rfl
    rcases stage_proceed (h.at_point hthread rfl hc).2 with ⟨rfl, hstatus, -, -⟩ | ⟨hstatus, -, -⟩
    · -- a request
      have hstep : s.step (.proceed i) = some (s.move i (.execute tag) tag c) := by
        simp only [step, hthread, hc, Option.map_some, hstatus, if_true]
      obtain ⟨t, hrun, ht⟩ := returns_execute (step_owned h hstep)
        (List.getElem?_set_self hlt) handler now
      exact ⟨_, t, List.Sublist.refl _, Runs.run_cons.mpr ⟨_, hstep, hrun⟩, ht⟩
    · -- a response that was sent
      have hstep : s.step (.proceed i) = some (s.move i .next tag c.delete) := by
        simp only [step, hthread, hc, Option.map_some, hstatus, ite_self]
      refine ⟨[.proceed i], _, ?_, Runs.run_cons.mpr ⟨_, hstep, rfl⟩, List.getElem?_set_self hlt⟩
      exact (List.nil_sublist _).cons_cons _

end Owned

-- ---------------------------------------------------------------------------
-- Every run
-- ---------------------------------------------------------------------------

section Run

variable [Inhabited Body] {registered : ApiMethod → Bool} {concurrencyFactor : Int} {cqCount : Nat}
  {s t : AsyncServer Body} {actions : List (ServerAction Body)}

theorem run_owned (h : AsyncServer.run registered concurrencyFactor cqCount = some s) :
    s.Owned := by
  unfold AsyncServer.run at h
  split at h
  · obtain rfl := Option.some.inj h
    have hthreads : ∀ i (p : DriverPoint), (List.replicate cqCount DriverPoint.next)[i]? = some p →
        p = .next := fun i p hp => List.eq_of_mem_replicate (List.mem_of_getElem? hp)
    constructor
    · intro tag c hc
      obtain ⟨i, -, hpair⟩ := List.mem_flatMap.mp (List.mem_of_getElem? hc)
      have hpoint : ∀ cq : Nat, ((List.replicate cqCount DriverPoint.next)[cq]?).getD .next =
          DriverPoint.next := by
        intro cq
        cases hp : (List.replicate cqCount DriverPoint.next)[cq]? with
        | none => rfl
        | some p => exact hthreads cq p hp
      rcases List.mem_pair.mp hpair with rfl | rfl
      · exact .waiting rfl rfl rfl (by rw [pointOf, hpoint]; nofun)
      · exact .waiting rfl rfl rfl (by rw [pointOf, hpoint]; nofun)
    · intro i p tag hp htag
      obtain rfl := hthreads i p hp
      exact nomatch htag
  · exact nomatch h

theorem run_listening (h : AsyncServer.run registered concurrencyFactor cqCount = some s)
    (method : ApiMethod) :
    s.waiting method + s.answering method = concurrencyFactor.toNat := by
  unfold AsyncServer.run at h
  split at h
  · obtain rfl := Option.some.inj h
    rw [waiting_add_answering]
    have hpairs : ∀ l : List Nat, ((l.flatMap fun i =>
        [(AsyncCallContext.construct .submitDag (i % cqCount) : AsyncCallContext Body),
          .construct .getJobStatus (i % cqCount)]).map (share method)).sum = l.length := by
      intro l
      induction l with
      | nil => rfl
      | cons i l ih =>
        rw [List.flatMap_cons, List.map_append, List.sum_append, ih]
        cases method <;> simp [share_construct, Nat.add_comm]
    rw [hpairs, List.length_range]
  · exact nomatch h

/-- **The server answers every request once and never stops listening.** -/
theorem async_server_answers_once
    (hstart : AsyncServer.run registered concurrencyFactor cqCount = some s)
    (hrun : Runs.run AsyncServer.step s actions = some t) :
    AnswersOnce concurrencyFactor.toNat t := by
  obtain ⟨howned, hlistening⟩ := Runs.run_invariant
    (P := fun t : AsyncServer Body => t.Owned ∧
      ∀ method, t.waiting method + t.answering method = concurrencyFactor.toNat)
    (fun s a t ⟨howned, hlistening⟩ hstep => ⟨step_owned howned hstep, fun method =>
      (step_listening howned hstep method).trans (hlistening method)⟩)
    hrun ⟨run_owned hstart, run_listening hstart⟩
  have htally := fun tag c hc => (howned.stage tag c hc).tallyFits
  have houtside : ∀ tag c, t.contexts[tag]? = some c → ¬ t.Inside tag →
      c.tally.finishes = c.tally.accepted ∧ c.tally.replaced = c.tally.accepted ∧
        c.tally.deletes = c.tally.sent := fun tag c hc hnot =>
    (htally tag c hc).outside (hnot ∘ (inside_iff howned hc).mpr)
  refine ⟨hlistening,
    fun tag c hc => ⟨(htally tag c hc).replaced, fun hnot => (houtside tag c hc hnot).2.1⟩,
    fun hidle method => ?_, fun tag c hc => (htally tag c hc).accepted,
    fun tag c hc => ⟨(htally tag c hc).finishes, fun hnot => (houtside tag c hc hnot).1⟩,
    fun tag c hc => (htally tag c hc).sent,
    fun tag c hc => ⟨(htally tag c hc).deletes, fun hnot => (houtside tag c hc hnot).2.2⟩,
    fun tag c hc hdeleted => ?_, fun i p hthread => proceed_returns howned hthread⟩
  · -- nobody is between a request and its new context
    have hnone : t.answering method = 0 := by
      refine List.countP_eq_zero.mpr fun c hmem hopen => ?_
      obtain ⟨tag, hc⟩ := List.mem_iff_getElem?.mp hmem
      have hnot : ¬ t.Inside tag := by
        rintro ⟨p, hp, htag⟩
        rw [hidle p hp] at htag
        exact nomatch htag
      have hreplaced := (houtside tag c hc hnot).2.1
      have hless := (of_decide_eq_true hopen).2
      omega
    have htotal := hlistening method
    omega
  · obtain ⟨hoperation, hpoint⟩ := (htally tag c hc).deleted hdeleted
    exact ⟨hoperation, hpoint ∘ (inside_iff howned hc).mp⟩

end Run

/-! One request whose handler throws, and whose response cannot be sent. -/

def oneEach : AsyncServer Unit where
  registered := fun _ => true
  contexts := [.construct .submitDag 0, .construct .getJobStatus 0]
  threads := [.next]

def throwingCall : List (ServerAction Unit) :=
  [.event 0 true, .proceed 0, .execute 0 (fun response => (response, .threw "bad_alloc")) 0,
    .finish 0, .replace 0, .event 0 false, .proceed 0]

theorem async_server_answers_once_throwing :
    ∃ t, Runs.run AsyncServer.step oneEach throwingCall = some t ∧ AnswersOnce 1 t := by
  obtain ⟨t, hrun⟩ : ∃ t, Runs.run AsyncServer.step oneEach throwingCall = some t :=
    Option.isSome_iff_exists.mp (by decide)
  have hstart : AsyncServer.run (fun _ => true) 1 1 = some oneEach := rfl
  exact ⟨t, hrun, async_server_answers_once hstart hrun⟩

end AsyncServer

end DistTaskSystem
