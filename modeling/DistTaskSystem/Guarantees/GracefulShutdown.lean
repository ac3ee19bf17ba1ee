import DistTaskSystem.ApiServer.ServerShutdown
import DistTaskSystem.Guarantees.AsyncCalls
import DistTaskSystem.Library.Custody

/-!
# DTS — what a shutdown leaves behind

A context that waits for a request when the server is shut down frees itself at the
event that tells it so; one that has taken a request is answered, replaced and freed as
always, and its successor is refused. So nothing is left when `Shutdown` returns, unless
a queue was shut down while its thread stood between `Finish` and the new context: the
call counts as finished then, and the new context registers itself on a dead queue.

## Results

* `step_closing`   — a step takes one context from a stage to the next.
* `shutdown_frees` — what is left when `Shutdown` returns.
* `misused_iff`    — the only misuse of a queue.
* `shutdown_ends`  — every shutdown comes to an end.
-/

namespace DistTaskSystem

open AsyncServer (CallStage)

variable {Body : Type}

-- ---------------------------------------------------------------------------
-- The life of a context
-- ---------------------------------------------------------------------------

/-- The stage of a context of a server that may be shut down. -/
inductive ShutdownStage (tag : Nat) (c : AsyncCallContext Body) (p : DriverPoint) : Prop
  | served (h : CallStage tag c p)
  | refused (hoperation : c.operation = none) (htally : c.tally = {})
      (hp : p = .proceed tag false)
  | dropped (hoperation : c.operation = none) (htally : c.tally = { deletes := 1 })
      (hp : p.tag? ≠ some tag)

namespace ShutdownStage

variable {tag : Nat} {c : AsyncCallContext Body} {p p' : DriverPoint}

theorem elsewhere (h : ShutdownStage tag c p) (hp : p.tag? ≠ some tag)
    (hp' : p'.tag? ≠ some tag) : ShutdownStage tag c p' := by
  cases h with
  | served h => exact .served (h.elsewhere hp hp')
  | refused _ _ hat => exact absurd (hat ▸ rfl) hp
  | dropped hoperation htally _ => exact .dropped hoperation htally hp'

/-- gRPC has an operation of a context only while it serves. -/
theorem served_of_operation (h : ShutdownStage tag c p) {operation : TagOperation}
    (hoperation : c.operation = some operation) : CallStage tag c p := by
  cases h with
  | served h => exact h
  | refused hnone _ _ => exact nomatch hnone.symm.trans hoperation
  | dropped hnone _ _ => exact nomatch hnone.symm.trans hoperation

/-- Behind its first line, `Proceed` is in a context that serves. -/
theorem served_of_point (h : ShutdownStage tag c p) (htag : p.tag? = some tag)
    (hp : p ≠ .proceed tag false) : CallStage tag c p := by
  cases h with
  | served h => exact h
  | refused _ _ hat => exact absurd hat hp
  | dropped _ _ hnot => exact absurd htag hnot

/-- What a context that no thread is in has been through. -/
theorem tally_outside (h : ShutdownStage tag c p) (hp : p.tag? ≠ some tag) :
    c.tally.finishes = c.tally.accepted := by
  cases h with
  | served h => exact (h.tallyFits.outside hp).1
  | refused _ _ hat => exact absurd (hat ▸ rfl) hp
  | dropped _ htally _ => rw [htally]

/-- A context that nobody has any more was freed, and its request answered if it had
one. -/
theorem freed (h : ShutdownStage tag c .next) (hoperation : c.operation = none) :
    c.tally.deletes = 1 ∧ c.tally.finishes = c.tally.accepted ∧
      c.tally.sent = c.tally.accepted := by
  cases h with
  | served h =>
    cases h with
    | waiting _ hrequest _ _ => exact nomatch hrequest.symm.trans hoperation
    | accepted _ _ _ hat => rcases hat with hat | hat | hat <;> exact nomatch hat
    | finished _ hresponse _ _ => exact nomatch hresponse.symm.trans hoperation
    | answered _ hresponse _ _ => exact nomatch hresponse.symm.trans hoperation
    | sent _ _ _ _ hat => exact nomatch hat
    | deleted _ htally _ => exact ⟨by rw [htally], by rw [htally], by rw [htally]⟩
  | refused _ _ hat => exact nomatch hat
  | dropped _ htally _ => exact ⟨by rw [htally], by rw [htally], by rw [htally]⟩

/-- Nothing happens twice to a context. -/
theorem once (h : ShutdownStage tag c p) :
    c.tally.finishes ≤ c.tally.accepted ∧ c.tally.accepted ≤ 1 ∧ c.tally.deletes ≤ 1 ∧
      (c.tally.deletes = 1 → c.operation = none ∧ p.tag? ≠ some tag) := by
  cases h with
  | served h =>
    have hfits := h.tallyFits
    have hsent := hfits.sent
    have hdeletes := hfits.deletes
    have hfinishes := hfits.finishes
    have haccepted := hfits.accepted
    exact ⟨hfinishes, haccepted, by omega, fun hone => hfits.deleted (by omega)⟩
  | refused hoperation htally _ => simp [htally]
  | dropped hoperation htally hp => simp [htally, hoperation, hp]

end ShutdownStage

/-- The contexts at home with the threads of their queues. -/
def contextHouse (Body : Type) : Custody.House (AsyncCallContext Body) DriverPoint where
  home := AsyncCallContext.cq
  held := DriverPoint.tag?
  idle := .next
  Stage := ShutdownStage
  elsewhere := ShutdownStage.elsewhere

namespace ServerShutdown

open Custody (Kept)

/-- What is so at every moment of a shutdown. -/
structure Closing (s : ServerShutdown Body) : Prop where
  kept : Kept (contextHouse Body) s.server.contexts s.server.threads
  home : ∀ c ∈ s.server.contexts, c.cq < s.server.threads.length
  finished : s.takesCalls = false → ∀ c ∈ s.server.contexts,
    c.tally.finishes = c.tally.accepted
  queues : ∀ n, s.phase = .queues n → n ≤ s.server.threads.length
  exited : ∀ i ∈ s.exited, s.queueShut i = true ∧ s.server.threads[i]? = some .next ∧
    ∀ c ∈ s.server.contexts, c.cq = i → c.operation = none
  joined : s.phase = .returned → ∀ i < s.server.threads.length, i ∈ s.exited

section Closing

variable {s t : ServerShutdown Body} {tag i : Nat} {c : AsyncCallContext Body}
  {p : DriverPoint}

/-- A thread that is in a context has not left. -/
theorem Closing.stays (h : Closing s) (hthread : s.server.threads[i]? = some p)
    (htag : p.tag? = some tag) : i ∉ s.exited := by
  intro hexited
  obtain ⟨-, hnext, -⟩ := h.exited i hexited
  obtain rfl := Option.some.inj (hthread.symm.trans hnext)
  exact nomatch htag

/-- Nor has one whose queue is not empty. -/
theorem Closing.stays_next (h : Closing s) (hc : s.server.contexts[tag]? = some c)
    {operation : TagOperation} (hoperation : c.operation = some operation) : c.cq ∉ s.exited := by
  intro hexited
  obtain ⟨-, -, hempty⟩ := h.exited c.cq hexited
  exact nomatch (hempty c (List.mem_of_getElem? hc) rfl).symm.trans hoperation

theorem Closing.at_point (h : Closing s) (hthread : s.server.threads[i]? = some p)
    (htag : p.tag? = some tag) (hc : s.server.contexts[tag]? = some c) :
    c.cq = i ∧ ShutdownStage tag c p := h.kept.at_point hthread htag hc

theorem Closing.stage_at (h : Closing s) (hc : s.server.contexts[tag]? = some c)
    (hthread : s.server.threads[c.cq]? = some p) : ShutdownStage tag c p :=
  h.kept.stage_at hc hthread

/-- A thread moves with a context of its own. -/
theorem Closing.move (h : Closing s) (p' : DriverPoint) (c' : AsyncCallContext Body)
    (hc : s.server.contexts[tag]? = some c) (hthread : s.server.threads[c.cq]? = some p)
    (hp : p = .next ∨ p.tag? = some tag)
    (hp' : p' = .next ∨ p'.tag? = some tag) (hcq : c'.cq = c.cq)
    (hstage : ShutdownStage tag c' p') (hstays : c.cq ∉ s.exited)
    (hfinished : s.takesCalls = false → c'.tally.finishes = c'.tally.accepted) (misused : Bool) :
    Closing { s with server := s.server.move c.cq p' tag c', misused := misused } where
  kept := h.kept.move hc hthread (hp.imp_left fun hp => by rw [hp]; rfl)
    (hp'.imp_left fun hp => by rw [hp]; rfl) hcq hstage
  home := by
    intro d hd
    show d.cq < (s.server.threads.set _ _).length
    rw [List.length_set]
    rcases List.mem_or_eq_of_mem_set hd with hd | rfl
    · exact h.home d hd
    · exact hcq ▸ h.home c (List.mem_of_getElem? hc)
  finished := by
    intro hclosed d hd
    rcases List.mem_or_eq_of_mem_set hd with hd | rfl
    · exact h.finished hclosed d hd
    · exact hfinished hclosed
  queues := by
    intro n hn
    show n ≤ (s.server.threads.set _ _).length
    rw [List.length_set]
    exact h.queues n hn
  exited := by
    intro i hi
    have hne : c.cq ≠ i := fun heq => hstays (heq ▸ hi)
    obtain ⟨hshut, hnext, hempty⟩ := h.exited i hi
    refine ⟨hshut, (List.getElem?_set_ne hne).trans hnext, fun d hd hdcq => ?_⟩
    rcases List.mem_or_eq_of_mem_set hd with hd | rfl
    · exact hempty d hd hdcq
    · exact absurd (hcq.symm.trans hdcq) hne
  joined := by
    intro hreturned i hi
    refine h.joined hreturned i ?_
    rwa [show ((s.server.move c.cq p' tag c').threads).length = s.server.threads.length from
      List.length_set] at hi

/-- The thread that shuts the server down takes a step. -/
theorem Closing.phase (h : Closing s) {phase : ShutdownPhase}
    (hfinished : (match phase with | .notCalled | .closing => true | _ => false) = false →
      ∀ c ∈ s.server.contexts, c.tally.finishes = c.tally.accepted)
    (hqueues : ∀ n, phase = .queues n → n ≤ s.server.threads.length)
    (hshut : ∀ i, s.queueShut i = true →
      ServerShutdown.queueShut { s with phase := phase } i = true)
    (hjoined : phase = .returned → ∀ i < s.server.threads.length, i ∈ s.exited) :
    Closing { s with phase := phase } where
  kept := h.kept
  home := h.home
  finished := by
    intro hclosed
    refine hfinished ?_
    cases phase <;> first | rfl | exact hclosed
  queues := hqueues
  exited i hi := ⟨hshut i (h.exited i hi).1, (h.exited i hi).2⟩
  joined := hjoined

variable [Inhabited Body] {a : ShutdownAction Body}

/-- A new context of a thread that is not done. -/
theorem Closing.create (h : Closing s) (method : ApiMethod) {cq : Nat}
    (hcq : cq < s.server.threads.length) (hstays : cq ∉ s.exited) :
    Closing { s with server := s.server.create method cq } where
  kept := h.kept.concat rfl fun p hp => .served (.waiting rfl rfl rfl hp)
  home := by
    intro d hd
    rcases List.mem_append.mp hd with hd | hd
    · exact h.home d hd
    · obtain rfl := List.mem_singleton.mp hd
      exact hcq
  finished := by
    intro hclosed d hd
    rcases List.mem_append.mp hd with hd | hd
    · exact h.finished hclosed d hd
    · obtain rfl := List.mem_singleton.mp hd
      rfl
  queues := h.queues
  exited := by
    intro i hi
    obtain ⟨hshut, hnext, hempty⟩ := h.exited i hi
    refine ⟨hshut, hnext, fun d hd hdcq => ?_⟩
    rcases List.mem_append.mp hd with hd | hd
    · exact hempty d hd hdcq
    · obtain rfl := List.mem_singleton.mp hd
      obtain rfl : cq = i := hdcq
      exact absurd hi hstays
  joined := h.joined

/-- A thread that polls is in no call. -/
theorem tag_next (tag : Nat) : DriverPoint.next.tag? ≠ some tag := nofun

/-- The server goes on. -/
theorem serve_closing (h : Closing s) {b : ServerAction Body} {server : AsyncServer Body}
    (hstep : s.server.step b = some server) (hcall : s.isCall b = true → s.takesCalls = true)
    (misused : Bool) : Closing { s with server := server, misused := misused } := by
  cases AsyncServer.step_moves hstep with
  | accept tag c hc hthread hoperation =>
    obtain ⟨hstatus, htally⟩ :=
      AsyncServer.stage_request ((h.stage_at hc hthread).served_of_operation hoperation)
        hoperation
    have hnew : s.takesCalls = true := hcall (by simp [isCall, hc, hoperation])
    refine h.move (.proceed tag true) c.requestTaken hc hthread (.inl rfl) (.inr rfl) rfl
      (.served ?_) (h.stays_next hc hoperation) (fun hclosed => ?_) misused
    · exact .accepted hstatus rfl (by rw [AsyncCallContext.requestTaken, htally]) (.inl rfl)
    · cases hnew.symm.trans hclosed
  | sent tag ok c hc hthread hoperation =>
    obtain ⟨hstatus, htally⟩ :=
      AsyncServer.stage_response ((h.stage_at hc hthread).served_of_operation hoperation)
        hoperation
    refine h.move (.proceed tag ok) c.responseTaken hc hthread (.inl rfl) (.inr rfl) rfl
      (.served ?_) (h.stays_next hc hoperation) (fun _ => ?_) misused
    · exact .sent ok hstatus rfl (by rw [AsyncCallContext.responseTaken, htally]) rfl
    · rw [AsyncCallContext.responseTaken, htally]
  | create i tag c hc hthread hstatus =>
    obtain ⟨rfl, hstage⟩ := h.at_point hthread rfl hc
    have hserved := ShutdownStage.served_of_point hstage rfl (by simp)
    rcases AsyncServer.stage_proceed hserved with ⟨-, -, hoperation, htally⟩ | ⟨hfinish, -, -⟩
    · refine h.move (.execute tag) c hc hthread (.inr rfl) (.inr rfl) rfl
        (.served (.accepted hstatus hoperation htally (.inr (.inl rfl))))
        (h.stays hthread rfl) (fun hclosed => ?_) misused
      exact h.finished hclosed c (List.mem_of_getElem? hc)
    · cases hfinish.symm.trans hstatus
  | delete i tag ok c hc hthread hdone =>
    obtain ⟨rfl, hstage⟩ := h.at_point hthread rfl hc
    refine h.move .next c.delete hc hthread (.inr rfl) (.inl rfl) rfl ?_
      (h.stays hthread rfl)
      (fun hclosed => h.finished hclosed c (List.mem_of_getElem? hc)) misused
    cases hstage with
    | served hserved =>
      rcases AsyncServer.stage_proceed hserved with ⟨rfl, hcreate, -, -⟩ | ⟨-, hoperation, htally⟩
      · rcases hdone with hdone | hdone
        · cases hdone
        · cases hcreate.symm.trans hdone
      · exact .served (.deleted hoperation (by rw [AsyncCallContext.delete, htally]) (tag_next tag))
    | refused hoperation htally _ =>
      exact .dropped hoperation (by rw [AsyncCallContext.delete, htally]) (tag_next tag)
    | dropped _ _ hnot => exact absurd rfl hnot
  | execute i tag handler now c hc hthread =>
    obtain ⟨rfl, hstage⟩ := h.at_point hthread rfl hc
    obtain ⟨hstatus, hoperation, htally⟩ :=
      AsyncServer.stage_accepted (ShutdownStage.served_of_point hstage rfl (by simp)) (.inl rfl)
    exact h.move (.finish tag) (s.server.execute handler now c) hc hthread (.inr rfl) (.inr rfl)
      rfl (.served (.accepted hstatus hoperation htally (.inr (.inr rfl))))
      (h.stays hthread rfl)
      (fun hclosed => h.finished hclosed c (List.mem_of_getElem? hc)) misused
  | finish i tag c hc hthread =>
    obtain ⟨rfl, hstage⟩ := h.at_point hthread rfl hc
    obtain ⟨-, -, htally⟩ :=
      AsyncServer.stage_accepted (ShutdownStage.served_of_point hstage rfl (by simp)) (.inr rfl)
    refine h.move (.replace tag) c.finish hc hthread (.inr rfl) (.inr rfl) rfl (.served ?_)
      (h.stays hthread rfl) (fun _ => ?_) misused
    · exact .finished rfl rfl (by rw [AsyncCallContext.finish, htally]) rfl
    · rw [AsyncCallContext.finish, htally]
  | replace i tag c hc hthread =>
    obtain ⟨rfl, hstage⟩ := h.at_point hthread rfl hc
    obtain ⟨hstatus, hoperation, htally⟩ :=
      AsyncServer.stage_finished (ShutdownStage.served_of_point hstage rfl (by simp))
    have hstays : c.cq ∉ s.exited := h.stays hthread rfl
    have hmoved := h.move .next c.succeeded hc hthread (.inr rfl) (.inl rfl) rfl
      (.served (.answered hstatus hoperation (by rw [AsyncCallContext.succeeded, htally])
        (tag_next tag)))
      hstays (fun _ => by rw [AsyncCallContext.succeeded, htally]) misused
    refine hmoved.create c.method ?_ hstays
    show c.cq < (s.server.threads.set _ _).length
    rw [List.length_set]
    exact h.home c (List.mem_of_getElem? hc)

/-- **A step takes one context from a stage to the next.** -/
theorem step_closing (h : Closing s) (hstep : s.step a = some t) : Closing t := by
  cases step_moves hstep with
  | serve b server hserver hcall => exact serve_closing h hserver hcall _
  | refuse tag c hc hphase hoperation hthread =>
    obtain ⟨-, htally⟩ :=
      AsyncServer.stage_request ((h.stage_at hc hthread).served_of_operation hoperation)
        hoperation
    exact h.move (.proceed tag false) c.refused hc hthread (.inl rfl) (.inr rfl) rfl
      (.refused rfl htally rfl) (h.stays_next hc hoperation)
      (fun hclosed => h.finished hclosed c (List.mem_of_getElem? hc)) s.misused
  | shutdown hphase =>
    refine h.phase nofun nofun (fun i hi => ?_) nofun
    rw [queueShut, hphase] at hi
    exact nomatch hi
  | closed hphase hfinished =>
    refine h.phase (fun _ => hfinished) (fun n hn => ?_) (fun i hi => ?_) nofun
    · obtain rfl := ShutdownPhase.queues.inj hn
      exact Nat.zero_le _
    · rw [queueShut, hphase] at hi
      exact nomatch hi
  | shutdownQueue n hphase hn =>
    refine h.phase (fun _ => h.finished (by rw [takesCalls, hphase])) (fun m hm => ?_)
      (fun i hi => ?_) nofun
    · obtain rfl := ShutdownPhase.queues.inj hm
      exact hn
    · rw [queueShut, hphase] at hi
      exact decide_eq_true (Nat.lt_succ_of_lt (of_decide_eq_true hi))
  | drained i hshut hthread hstays hempty =>
    refine ⟨h.kept, h.home, h.finished, h.queues, fun j hj => ?_, fun hreturned j hj => ?_⟩
    · rcases List.mem_cons.mp hj with rfl | hj
      · exact ⟨hshut, hthread, hempty⟩
      · exact h.exited j hj
    · exact List.mem_cons_of_mem i (h.joined hreturned j hj)
  | join hphase hexited =>
    exact h.phase (fun _ => h.finished (by rw [takesCalls, hphase])) nofun (fun _ _ => rfl)
      fun _ => hexited

end Closing

-- ---------------------------------------------------------------------------
-- Every run
-- ---------------------------------------------------------------------------

section Run

variable [Inhabited Body] {registered : ApiMethod → Bool} {concurrencyFactor : Int} {cqCount : Nat}
  {server : AsyncServer Body} {s t : ServerShutdown Body} {actions : List (ShutdownAction Body)}

theorem serving_closing (hcq : 0 < cqCount)
    (hstart : AsyncServer.run registered concurrencyFactor cqCount = some server) :
    Closing (serving server) := by
  have howned := AsyncServer.run_owned hstart
  have hhome : ∀ c ∈ server.contexts, c.cq < server.threads.length := by
    unfold AsyncServer.run at hstart
    rw [Option.ite_none_right_eq_some] at hstart
    obtain rfl := Option.some.inj hstart.2
    intro c hc
    obtain ⟨i, -, hpair⟩ := List.mem_flatMap.mp hc
    show c.cq < (List.replicate cqCount DriverPoint.next).length
    rw [List.length_replicate]
    rcases List.mem_pair.mp hpair with rfl | rfl
    · exact Nat.mod_lt i hcq
    · exact Nat.mod_lt i hcq
  exact ⟨⟨fun tag c hc => .served (howned.stage tag c hc), howned.thread⟩, hhome, nofun, nofun,
    fun i hi => absurd hi List.not_mem_nil, nofun⟩

theorem run_closing (hcq : 0 < cqCount)
    (hstart : AsyncServer.run registered concurrencyFactor cqCount = some server)
    (hrun : Runs.run step (serving server) actions = some t) : Closing t :=
  Runs.run_invariant (fun _ _ _ => step_closing) hrun (serving_closing hcq hstart)

/-- **A shutdown leaves nothing behind.** At every moment nothing has happened twice to a
context, and nobody has one that was freed; when `Shutdown` returns, every context was
freed, and every request that was taken was answered. -/
theorem shutdown_frees (hcq : 0 < cqCount)
    (hstart : AsyncServer.run registered concurrencyFactor cqCount = some server)
    (hrun : Runs.run step (serving server) actions = some t) :
    (∀ (tag : Nat) (c : AsyncCallContext Body), t.server.contexts[tag]? = some c →
      c.tally.finishes ≤ c.tally.accepted ∧ c.tally.accepted ≤ 1 ∧ c.tally.deletes ≤ 1 ∧
        (c.tally.deletes = 1 → c.operation = none ∧ ¬ t.server.Inside tag)) ∧
    (t.phase = .returned → ∀ c ∈ t.server.contexts, c.tally.deletes = 1 ∧
      c.tally.finishes = c.tally.accepted ∧ c.tally.sent = c.tally.accepted) := by
  have hclosing := run_closing hcq hstart hrun
  constructor
  · intro tag c hc
    have hlt := hclosing.home c (List.mem_of_getElem? hc)
    have hthread := List.getElem?_eq_getElem hlt
    obtain ⟨hfinishes, haccepted, hdeletes, hfreed⟩ := (hclosing.stage_at hc hthread).once
    refine ⟨hfinishes, haccepted, hdeletes, fun hone => ⟨(hfreed hone).1, ?_⟩⟩
    rintro ⟨p, hp, htag⟩
    obtain ⟨i, hi⟩ := List.mem_iff_getElem?.mp hp
    obtain ⟨rfl, -⟩ := hclosing.at_point hi htag hc
    obtain rfl := Option.some.inj (hthread.symm.trans hi)
    exact (hfreed hone).2 htag
  · intro hreturned c hc
    obtain ⟨tag, htag⟩ := List.mem_iff_getElem?.mp hc
    have hexited := hclosing.joined hreturned c.cq (hclosing.home c hc)
    obtain ⟨-, hnext, hempty⟩ := hclosing.exited c.cq hexited
    exact (hclosing.stage_at htag hnext).freed (hempty c hc rfl)

/-! The server is shut down while a call is being answered. -/

def oneQueue : AsyncServer Unit where
  registered := fun _ => true
  contexts := [.construct .submitDag 0, .construct .getJobStatus 0]
  threads := [.next]

def shutdownMidCall : List (ShutdownAction Unit) :=
  [.serve (.event 0 true), .shutdown, .serve (.proceed 0),
    .serve (.execute 0 (fun response => (response, .returned)) 0), .serve (.finish 0),
    .serve (.replace 0), .serve (.event 0 true), .serve (.proceed 0), .refuse 1,
    .serve (.proceed 0), .closed, .refuse 2, .serve (.proceed 0), .shutdownQueue, .drained 0,
    .join]

theorem shutdown_frees_mid_call : ∃ t, Runs.run step (serving oneQueue) shutdownMidCall = some t ∧
    t.phase = .returned ∧ ∀ c ∈ t.server.contexts, c.tally.deletes = 1 := by
  obtain ⟨t, hrun, hreturned⟩ : ∃ t, Runs.run step (serving oneQueue) shutdownMidCall = some t ∧
      t.phase = .returned := by
    obtain ⟨t, ht⟩ := Option.isSome_iff_exists.mp
      (show (Runs.run step (serving oneQueue) shutdownMidCall).isSome by decide)
    have hphase : (Runs.run step (serving oneQueue) shutdownMidCall).map phase =
        some .returned := by decide
    rw [ht] at hphase
    exact ⟨t, ht, Option.some.inj hphase⟩
  have hstart : AsyncServer.run (fun _ => true) 1 1 = some oneQueue := rfl
  exact ⟨t, hrun, hreturned, fun c hc =>
    ((shutdown_frees Nat.one_pos hstart hrun).2 hreturned c hc).1⟩

/-- No response is sent on a queue that was shut down. -/
theorem finish_open (h : Closing s) {i : Nat} {server' : AsyncServer Body}
    (hstep : s.server.step (.finish i) = some server') : s.queueShut i = false := by
  cases AsyncServer.step_moves hstep with
  | finish _ tag c hc hthread =>
    obtain ⟨rfl, hstage⟩ := h.at_point hthread rfl hc
    obtain ⟨-, -, htally⟩ :=
      AsyncServer.stage_accepted (ShutdownStage.served_of_point hstage rfl nofun) (.inr rfl)
    by_contra hshut
    have hclosed : s.takesCalls = false := by
      rw [Bool.not_eq_false, queueShut] at hshut
      rw [takesCalls]
      split at hshut
      · next hphase => rw [hphase]
      · next hphase => rw [hphase]
      · exact nomatch hshut
    have hfinished := h.finished hclosed c (List.mem_of_getElem? hc)
    rw [htally] at hfinished
    exact nomatch hfinished

/-- **The only misuse of a queue**: a context replaces itself after its queue was shut
down. -/
theorem misused_iff (hcq : 0 < cqCount)
    (hstart : AsyncServer.run registered concurrencyFactor cqCount = some server)
    (hrun : Runs.run step (serving server) actions = some t) :
    t.misused = true ↔ ∃ before i s, actions = before ++ [.serve (.replace i)] ∧
      Runs.run step (serving server) before = some s ∧ s.queueShut i = true := by
  rcases List.eq_nil_or_concat actions with rfl | ⟨before, a, rfl⟩
  · obtain rfl := Option.some.inj hrun
    refine iff_of_false nofun ?_
    rintro ⟨before, i, s, hactions, -⟩
    exact absurd hactions.symm (List.append_ne_nil_of_right_ne_nil _ (List.cons_ne_nil _ _))
  · rw [List.concat_eq_append] at hrun ⊢
    obtain ⟨s, hbefore, hstep⟩ := Runs.run_snoc.mp hrun
    have hclosing := run_closing hcq hstart hbefore
    have hfine : s.misused = false := by
      by_contra hbad
      rw [Bool.not_eq_false] at hbad
      unfold step at hstep
      rw [if_pos hbad] at hstep
      exact nomatch hstep
    constructor
    · intro hmisused
      cases step_moves hstep with
      | serve b server' hserver hcall =>
        cases b with
        | finish i =>
          have hopen : s.queueShut i = true := hmisused
          exact nomatch hopen.symm.trans (finish_open hclosing hserver)
        | replace i => exact ⟨before, i, s, rfl, hbefore, hmisused⟩
        | event tag ok => exact nomatch hmisused
        | proceed i => exact nomatch hmisused
        | execute i handler now => exact nomatch hmisused
      | refuse tag c hc hphase hoperation hthread => exact nomatch hfine.symm.trans hmisused
      | shutdown hphase => exact nomatch hfine.symm.trans hmisused
      | closed hphase hfinished => exact nomatch hfine.symm.trans hmisused
      | shutdownQueue n hphase hn => exact nomatch hfine.symm.trans hmisused
      | drained i hshut hthread hstays hempty => exact nomatch hfine.symm.trans hmisused
      | join hphase hexited => exact nomatch hfine.symm.trans hmisused
    · rintro ⟨before', i, s', hactions, hbefore', hshut⟩
      obtain ⟨rfl, ha⟩ := List.append_inj' hactions rfl
      obtain rfl := (List.cons.inj ha).1
      obtain rfl : s = s' := Option.some.inj (hbefore.symm.trans hbefore')
      cases step_moves hstep with
      | serve b server' hserver hcall => exact hshut

/-! The server is shut down, and its queue, between `Finish` and the new context. -/

def shutdownBeforeReplace : List (ShutdownAction Unit) :=
  [.serve (.event 0 true), .serve (.proceed 0),
    .serve (.execute 0 (fun response => (response, .returned)) 0), .serve (.finish 0),
    .shutdown, .closed, .shutdownQueue, .serve (.replace 0)]

theorem misused_iff_before_replace :
    ∃ t, Runs.run step (serving oneQueue) shutdownBeforeReplace = some t ∧ t.misused = true := by
  obtain ⟨s, hbefore⟩ : ∃ s, Runs.run step (serving oneQueue) (shutdownBeforeReplace.take 7) =
      some s := Option.isSome_iff_exists.mp (by decide)
  obtain ⟨t, hrun⟩ : ∃ t, Runs.run step (serving oneQueue) shutdownBeforeReplace = some t :=
    Option.isSome_iff_exists.mp (by decide)
  have hshut : (Runs.run step (serving oneQueue) (shutdownBeforeReplace.take 7)).map
      (fun s => s.queueShut 0) = some true := by decide
  rw [hbefore] at hshut
  have hstart : AsyncServer.run (fun _ => true) 1 1 = some oneQueue := rfl
  exact ⟨t, hrun, (misused_iff Nat.one_pos hstart hrun).mpr
    ⟨shutdownBeforeReplace.take 7, 0, s, rfl, hbefore, Option.some.inj hshut⟩⟩

end Run

-- ---------------------------------------------------------------------------
-- The end
-- ---------------------------------------------------------------------------

/-- What is still to be done about a context: to tell it that there is no request, to answer
it and to replace it, or to report that its response was sent. -/
def contextDebt (c : AsyncCallContext Body) : Nat :=
  match c.operation with
  | some .request => 5
  | some .response => if c.tally.replaced = 0 then 10 else 5
  | none => if c.tally.finishes < c.tally.accepted then 10 else 0

/-- What is still to be done before the thread is in `Next` again. -/
def pointDebt : DriverPoint → Nat
  | .next => 0
  | .proceed _ _ => 4
  | .execute _ => 3
  | .finish _ => 2
  | .replace _ => 1

def phaseDebt (cqCount : Nat) : ShutdownPhase → Nat
  | .notCalled => cqCount + 3
  | .closing => cqCount + 2
  | .queues n => cqCount - n + 1
  | .returned => 0

/-- What is still to be done about the queues. -/
def queueDebt (cqCount : Nat) (phase : ShutdownPhase) (exited : List Nat) : Nat :=
  phaseDebt cqCount phase + (List.range cqCount).countP fun i => i ∉ exited

/-- A bound on the steps that are left, if no further call comes in. -/
def rank (s : ServerShutdown Body) : Nat :=
  (s.server.contexts.map contextDebt).sum + (s.server.threads.map pointDebt).sum +
    queueDebt s.server.threads.length s.phase s.exited

/-- The calls that have come in. -/
def taken (s : ServerShutdown Body) : Nat :=
  (s.server.contexts.map fun c => c.tally.accepted).sum

/-- A step pays for itself, unless it brings a call in. -/
def Spends (s t : ServerShutdown Body) : Prop :=
  t.rank + 10 * s.taken + 1 ≤ s.rank + 10 * t.taken

/-- A thread leaves. -/
theorem queueDebt_drained {cqCount i : Nat} {exited : List Nat} {phase : ShutdownPhase}
    (hi : i < cqCount) (hstays : i ∉ exited) :
    queueDebt cqCount phase (i :: exited) < queueDebt cqCount phase exited := by
  have hless : ((List.range cqCount).countP fun j => j ∉ i :: exited) <
      (List.range cqCount).countP fun j => j ∉ exited := by
    have hsplit : (List.range cqCount).filter (fun j => j ∉ i :: exited) =
        ((List.range cqCount).filter fun j => j ∉ exited).filter fun j => j ≠ i := by
      rw [List.filter_filter]
      exact List.filter_congr fun j _ => by simp
    rw [List.countP_eq_length_filter, List.countP_eq_length_filter, hsplit,
      List.length_filter_lt_length_iff_exists]
    exact ⟨i, List.mem_filter.mpr ⟨List.mem_range.mpr hi, decide_eq_true hstays⟩, by simp⟩
  exact Nat.add_lt_add_left hless _

section End

variable {s t : ServerShutdown Body} {tag i : Nat} {c : AsyncCallContext Body} {p : DriverPoint}

theorem rank_move (p' : DriverPoint) (c' : AsyncCallContext Body)
    (hc : s.server.contexts[tag]? = some c) (hthread : s.server.threads[i]? = some p)
    (misused : Bool) :
    rank { s with server := s.server.move i p' tag c', misused := misused } +
      contextDebt c + pointDebt p = s.rank + contextDebt c' + pointDebt p' := by
  have hcontexts := Parties.sum_set (x := c') contextDebt hc
  have hthreads := Parties.sum_set (x := p') pointDebt hthread
  have hlength : (s.server.move i p' tag c').threads.length = s.server.threads.length :=
    List.length_set
  unfold rank
  dsimp only
  rw [hlength]
  show ((s.server.contexts.set tag c').map contextDebt).sum +
    ((s.server.threads.set i p').map pointDebt).sum + _ + _ + _ = _
  omega

theorem taken_move (p' : DriverPoint) (c' : AsyncCallContext Body)
    (hc : s.server.contexts[tag]? = some c) (misused : Bool) :
    taken { s with server := s.server.move i p' tag c', misused := misused } + c.tally.accepted =
      s.taken + c'.tally.accepted :=
  Parties.sum_set (x := c') (fun c => c.tally.accepted) hc

theorem spends_move (p' : DriverPoint) (c' : AsyncCallContext Body)
    (hc : s.server.contexts[tag]? = some c) (hthread : s.server.threads[i]? = some p)
    (misused : Bool)
    (hdebt : contextDebt c' + pointDebt p' + 10 * c.tally.accepted + 1 ≤
      contextDebt c + pointDebt p + 10 * c'.tally.accepted) :
    Spends s { s with server := s.server.move i p' tag c', misused := misused } := by
  have hrank := rank_move p' c' hc hthread misused
  have htaken := @taken_move _ s tag i c p' c' hc misused
  unfold Spends
  omega

/-- A thread gets on, and its context is as far as it was. -/
theorem spends_point (p' : DriverPoint) (c' : AsyncCallContext Body)
    (hc : s.server.contexts[tag]? = some c) (hthread : s.server.threads[i]? = some p)
    (misused : Bool) (hdebt : contextDebt c' = contextDebt c)
    (haccepted : c'.tally.accepted = c.tally.accepted) (hp : pointDebt p' < pointDebt p) :
    Spends s { s with server := s.server.move i p' tag c', misused := misused } :=
  spends_move p' c' hc hthread misused (by omega)

theorem spends_phase {phase : ShutdownPhase}
    (hless : phaseDebt s.server.threads.length phase < phaseDebt s.server.threads.length s.phase) :
    Spends s { s with phase := phase } := by
  have hrank : rank { s with phase := phase } < s.rank :=
    Nat.add_lt_add_left (Nat.add_lt_add_right hless _) _
  have htaken : taken { s with phase := phase } = s.taken := rfl
  unfold Spends
  omega

variable [Inhabited Body] {a : ShutdownAction Body}

theorem rank_create (method : ApiMethod) (cq : Nat) :
    rank { s with server := s.server.create method cq } = s.rank + 5 := by
  have hcontexts : ((s.server.create method cq).contexts.map contextDebt).sum =
      (s.server.contexts.map contextDebt).sum + 5 := by
    rw [AsyncServer.create, List.map_append, List.sum_append]
    rfl
  unfold rank
  dsimp only
  rw [hcontexts]
  show _ + 5 + (s.server.threads.map pointDebt).sum +
    queueDebt s.server.threads.length s.phase s.exited = _
  omega

theorem taken_create (method : ApiMethod) (cq : Nat) :
    taken { s with server := s.server.create method cq } = s.taken := by
  unfold taken
  dsimp only
  rw [AsyncServer.create, List.map_append, List.sum_append]
  rfl

theorem serve_spends (h : Closing s) {b : ServerAction Body} {server : AsyncServer Body}
    (hstep : s.server.step b = some server) (misused : Bool) :
    Spends s { s with server := server, misused := misused } := by
  cases AsyncServer.step_moves hstep with
  | accept tag c hc hthread hoperation =>
    obtain ⟨-, htally⟩ :=
      AsyncServer.stage_request ((h.stage_at hc hthread).served_of_operation hoperation)
        hoperation
    exact spends_move _ _ hc hthread misused
      (by simp [contextDebt, pointDebt, AsyncCallContext.requestTaken, hoperation, htally])
  | sent tag ok c hc hthread hoperation =>
    obtain ⟨-, htally⟩ :=
      AsyncServer.stage_response ((h.stage_at hc hthread).served_of_operation hoperation)
        hoperation
    exact spends_move _ _ hc hthread misused
      (by simp [contextDebt, pointDebt, AsyncCallContext.responseTaken, hoperation, htally])
  | create i tag c hc hthread hstatus =>
    exact spends_point _ c hc hthread misused rfl rfl (by simp [pointDebt])
  | delete i tag ok c hc hthread hdone =>
    exact spends_point _ c.delete hc hthread misused rfl rfl (by simp [pointDebt])
  | execute i tag handler now c hc hthread =>
    exact spends_point _ (s.server.execute handler now c) hc hthread misused rfl rfl
      (by simp [pointDebt])
  | finish i tag c hc hthread =>
    obtain ⟨-, hstage⟩ := h.at_point hthread rfl hc
    obtain ⟨-, hoperation, htally⟩ :=
      AsyncServer.stage_accepted (ShutdownStage.served_of_point hstage rfl (by simp)) (.inr rfl)
    exact spends_move _ _ hc hthread misused
      (by simp [contextDebt, pointDebt, AsyncCallContext.finish, hoperation, htally])
  | replace i tag c hc hthread =>
    obtain ⟨-, hstage⟩ := h.at_point hthread rfl hc
    obtain ⟨-, hoperation, htally⟩ :=
      AsyncServer.stage_finished (ShutdownStage.served_of_point hstage rfl (by simp))
    have hrank := rank_move .next c.succeeded hc hthread misused
    have htaken := @taken_move _ s tag i c .next c.succeeded hc misused
    have hbefore : contextDebt c = 10 := by simp [contextDebt, hoperation, htally]
    have hafter : contextDebt c.succeeded = 5 := by
      simp [contextDebt, AsyncCallContext.succeeded, hoperation, htally]
    have haccepted : c.succeeded.tally.accepted = c.tally.accepted := rfl
    rw [hbefore, hafter] at hrank
    simp only [pointDebt] at hrank
    unfold Spends
    have hcreate := @rank_create _ { s with
      server := s.server.move i .next tag c.succeeded, misused := misused } _ c.method c.cq
    have hnone := @taken_create _ { s with
      server := s.server.move i .next tag c.succeeded, misused := misused } _ c.method c.cq
    dsimp only at hcreate hnone
    omega

/-- No call comes in but by the event of one. -/
theorem serve_taken {b : ServerAction Body} {server : AsyncServer Body}
    (hstep : s.server.step b = some server) (hnot : s.isCall b = false) (misused : Bool) :
    taken { s with server := server, misused := misused } = s.taken := by
  have hmove : ∀ {tag i : Nat} {c c' : AsyncCallContext Body} {p' : DriverPoint},
      s.server.contexts[tag]? = some c → c'.tally.accepted = c.tally.accepted →
      taken { s with server := s.server.move i p' tag c', misused := misused } = s.taken := by
    intro tag i c c' p' hc haccepted
    have htaken := @taken_move _ s tag i c p' c' hc misused
    omega
  cases AsyncServer.step_moves hstep with
  | accept tag c hc hthread hoperation => simp [isCall, hc, hoperation] at hnot
  | sent tag ok c hc hthread hoperation => exact hmove hc rfl
  | create i tag c hc hthread hstatus => exact hmove hc rfl
  | delete i tag ok c hc hthread hdone => exact hmove hc rfl
  | execute i tag handler now c hc hthread => exact hmove hc rfl
  | finish i tag c hc hthread => exact hmove hc rfl
  | replace i tag c hc hthread =>
    refine (@taken_create _ { s with
      server := s.server.move i .next tag c.succeeded
      misused := misused } _ c.method c.cq).trans ?_
    exact hmove hc rfl

/-- **Every step of a shutdown counts.** -/
theorem step_spends (h : Closing s) (hstep : s.step a = some t) : Spends s t := by
  cases step_moves hstep with
  | serve b server hserver hcall => exact serve_spends h hserver _
  | refuse tag c hc hphase hoperation hthread =>
    obtain ⟨-, htally⟩ :=
      AsyncServer.stage_request ((h.stage_at hc hthread).served_of_operation hoperation)
        hoperation
    exact spends_move _ _ hc hthread s.misused
      (by simp [contextDebt, pointDebt, AsyncCallContext.refused, hoperation, htally])
  | shutdown hphase => exact spends_phase (by simp [hphase, phaseDebt])
  | closed hphase hfinished => exact spends_phase (by simp [hphase, phaseDebt])
  | shutdownQueue n hphase hn =>
    refine spends_phase ?_
    rw [hphase, phaseDebt, phaseDebt]
    omega
  | drained i hshut hthread hstays hempty =>
    have hi : i < s.server.threads.length := (List.getElem?_eq_some_iff.mp hthread).1
    have hless : queueDebt s.server.threads.length s.phase (i :: s.exited) <
        queueDebt s.server.threads.length s.phase s.exited := queueDebt_drained hi hstays
    have hrank : rank { s with exited := i :: s.exited } < s.rank := Nat.add_lt_add_left hless _
    have htaken : taken { s with exited := i :: s.exited } = s.taken := rfl
    unfold Spends
    omega
  | join hphase hexited => exact spends_phase (by simp [hphase, phaseDebt])

/-- A step that brings no call in. -/
def Quiet (s : ServerShutdown Body) : ShutdownAction Body → Prop
  | .serve a => s.isCall a = false
  | _ => True

theorem quiet_taken (hstep : s.step a = some t) (hquiet : s.Quiet a) : t.taken = s.taken := by
  cases step_moves hstep with
  | serve b server hserver hcall => exact serve_taken hserver hquiet _
  | refuse tag c hc hphase hoperation hthread =>
    have htaken := @taken_move _ s tag c.cq c (.proceed tag false) c.refused hc s.misused
    exact Nat.add_right_cancel htaken
  | shutdown hphase => rfl
  | closed hphase hfinished => rfl
  | shutdownQueue n hphase hn => rfl
  | drained i hshut hthread hstays hempty => rfl
  | join hphase hexited => rfl

/-- A thread that is in a context can go on. -/
theorem progress_point (h : Closing s) (hfine : s.misused = false)
    (hthread : s.server.threads[i]? = some p) (hp : p ≠ DriverPoint.next) :
    ∃ a t, s.Quiet a ∧ s.step a = some t := by
  have hserve : ∀ (b : ServerAction Body) (server : AsyncServer Body),
      s.server.step b = some server → s.isCall b = false →
      ∃ a t, s.Quiet a ∧ s.step a = some t := by
    intro b server hstep hcall
    refine ⟨.serve b,
      { s with server := server, misused := b.startsOn.any s.queueShut }, hcall, ?_⟩
    simp only [step, hfine, hcall, serve, hstep]
    rfl
  cases p with
  | next => exact absurd rfl hp
  | proceed tag ok =>
    obtain ⟨c, hc, -⟩ := h.kept.holds i _ tag hthread rfl
    obtain ⟨server, hserver⟩ : ∃ server, s.server.step (.proceed i) = some server := by
      simp only [AsyncServer.step, hthread, hc, Option.map_some]
      exact ⟨_, rfl⟩
    exact hserve _ server hserver rfl
  | execute tag =>
    obtain ⟨c, hc, -⟩ := h.kept.holds i _ tag hthread rfl
    obtain ⟨server, hserver⟩ : ∃ server,
        s.server.step (.execute i (fun response => (response, .returned)) 0) = some server := by
      simp only [AsyncServer.step, hthread, hc, Option.map_some]
      exact ⟨_, rfl⟩
    exact hserve _ server hserver rfl
  | finish tag =>
    obtain ⟨c, hc, -⟩ := h.kept.holds i _ tag hthread rfl
    obtain ⟨server, hserver⟩ : ∃ server, s.server.step (.finish i) = some server := by
      simp only [AsyncServer.step, hthread, hc, Option.map_some]
      exact ⟨_, rfl⟩
    exact hserve _ server hserver rfl
  | replace tag =>
    obtain ⟨c, hc, -⟩ := h.kept.holds i _ tag hthread rfl
    obtain ⟨server, hserver⟩ : ∃ server, s.server.step (.replace i) = some server := by
      simp only [AsyncServer.step, hthread, hc, Option.map_some]
      exact ⟨_, rfl⟩
    exact hserve _ server hserver rfl

/-- **No shutdown is stuck.** -/
theorem shutdown_progress (h : Closing s) (hfine : s.misused = false)
    (hcalled : s.phase ≠ .notCalled) (hleft : s.phase ≠ .returned) :
    ∃ a t, s.Quiet a ∧ s.step a = some t := by
  by_cases hbusy : ∃ (i : Nat) (p : DriverPoint),
      s.server.threads[i]? = some p ∧ p ≠ DriverPoint.next
  · obtain ⟨i, p, hthread, hp⟩ := hbusy
    exact progress_point h hfine hthread hp
  · have hnext : ∀ i < s.server.threads.length,
        s.server.threads[i]? = some DriverPoint.next := by
      intro i hi
      by_contra hne
      refine hbusy ⟨i, _, List.getElem?_eq_getElem hi, fun heq => hne ?_⟩
      rw [List.getElem?_eq_getElem hi, heq]
    by_cases hopen : ∃ c ∈ s.server.contexts, c.operation ≠ none
    · -- an event comes out of a queue
      obtain ⟨c, hmem, hoperation⟩ := hopen
      obtain ⟨tag, hc⟩ := List.mem_iff_getElem?.mp hmem
      have hthread := hnext c.cq (h.home c hmem)
      cases hop : c.operation with
      | none => exact absurd hop hoperation
      | some operation =>
        cases operation with
        | request =>
          refine ⟨.refuse tag,
            { s with server := s.server.move c.cq (.proceed tag false) tag c.refused },
            trivial, ?_⟩
          simp only [step, hfine, Bool.false_eq_true, if_false, hc]
          exact if_pos ⟨hcalled, hop, hthread⟩
        | response =>
          have hquiet : s.isCall (.event tag true) = false := by simp [isCall, hc, hop]
          refine ⟨.serve (.event tag true), { s with
            server := s.server.move c.cq (.proceed tag true) tag c.responseTaken
            misused := false }, hquiet, ?_⟩
          simp only [step, hfine, hquiet, serve, AsyncServer.step, hc, hthread, hop]
          rfl
    · have hempty : ∀ c ∈ s.server.contexts, c.operation = none :=
        fun c hc => of_not_not fun hne => hopen ⟨c, hc, hne⟩
      cases hphase : s.phase with
      | notCalled => exact absurd hphase hcalled
      | returned => exact absurd hphase hleft
      | closing =>
        refine ⟨.closed, { s with phase := .queues 0 }, trivial, ?_⟩
        simp only [step, hfine, Bool.false_eq_true, if_false, hphase]
        refine if_pos ⟨trivial, fun c hc => ?_⟩
        obtain ⟨tag, htag⟩ := List.mem_iff_getElem?.mp hc
        exact (h.stage_at htag (hnext c.cq (h.home c hc))).tally_outside (tag_next tag)
      | queues n =>
        rcases Nat.lt_or_eq_of_le (h.queues n hphase) with hn | rfl
        · refine ⟨.shutdownQueue, { s with phase := .queues (n + 1) }, trivial, ?_⟩
          simp only [step, hfine, Bool.false_eq_true, if_false, hphase]
          exact if_pos hn
        · by_cases hall : ∀ i < s.server.threads.length, i ∈ s.exited
          · refine ⟨.join, { s with phase := .returned }, trivial, ?_⟩
            simp only [step, hfine, Bool.false_eq_true, if_false, hphase]
            exact if_pos ⟨trivial, hall⟩
          · obtain ⟨i, hi⟩ := not_forall.mp hall
            obtain ⟨hi, hstays⟩ := Classical.not_imp.mp hi
            refine ⟨.drained i, { s with exited := i :: s.exited }, trivial, ?_⟩
            simp only [step, hfine, Bool.false_eq_true, if_false]
            refine if_pos ⟨?_, hnext i hi, hstays, fun c hc _ => hempty c hc⟩
            rw [queueShut, hphase]
            exact decide_eq_true hi

/-- Nobody takes the call of `Shutdown` back. -/
theorem called_stays (hcalled : s.phase ≠ .notCalled) (hstep : s.step a = some t) :
    t.phase ≠ .notCalled := by
  cases step_moves hstep with
  | serve b server' hserver hcall => exact hcalled
  | refuse tag c hc hphase hoperation hthread => exact hcalled
  | shutdown hphase => exact nofun
  | closed hphase hfinished => exact nofun
  | shutdownQueue n hphase hn => exact nofun
  | drained i hshut hthread hstays hempty => exact hcalled
  | join hphase hexited => exact nofun

/-- **Every shutdown comes to an end.** A run has no more steps than its rank, but for ten
for each call that came in on the way; and wherever a server that is shut down stands,
`Shutdown` can return (or a queue be misused) without another call, in as many steps. -/
theorem shutdown_ends {registered : ApiMethod → Bool} {concurrencyFactor : Int} {cqCount : Nat}
    {server : AsyncServer Body} {before actions : List (ShutdownAction Body)} (hcq : 0 < cqCount)
    (hstart : AsyncServer.run registered concurrencyFactor cqCount = some server)
    (hbefore : Runs.run step (serving server) before = some s)
    (hrun : Runs.run step s actions = some t) :
    actions.length + t.rank + 10 * s.taken ≤ s.rank + 10 * t.taken ∧
    (s.phase ≠ .notCalled → ∃ rest u, Runs.run step s rest = some u ∧
      (u.phase = .returned ∨ u.misused = true) ∧ Runs.Along step Quiet s rest ∧
      rest.length ≤ s.rank) := by
  have hclosing := run_closing hcq hstart hbefore
  constructor
  · have hspend : ∀ (s : ServerShutdown Body) a t, Closing s → step s a = some t →
        rank t + 10 * taken s + 1 ≤ rank s + 10 * taken t := fun s a t h hstep =>
      step_spends h hstep
    exact Runs.run_length_le (fun _ _ _ => step_closing) hspend hrun hclosing
  · intro hcalled
    have hprogress : ∀ s : ServerShutdown Body, Closing s ∧ s.phase ≠ .notCalled →
        ¬ (s.phase = .returned ∨ s.misused = true) →
        ∃ a t, Quiet s a ∧ step s a = some t ∧ rank t < rank s := by
      intro s h hnot
      rw [not_or, Bool.not_eq_true] at hnot
      obtain ⟨a, t, hquiet, hstep⟩ := shutdown_progress h.1 hnot.2 h.2 hnot.1
      have hspends : Spends s t := step_spends h.1 hstep
      rw [Spends, quiet_taken hstep hquiet] at hspends
      exact ⟨a, t, hquiet, hstep, by omega⟩
    exact Runs.run_ends (fun s a t h hstep => ⟨step_closing h.1 hstep, called_stays h.2 hstep⟩)
      hprogress ⟨hclosing, hcalled⟩

theorem shutdown_ends_mid_call : ∃ t, Runs.run step (serving oneQueue) shutdownMidCall = some t ∧
    16 + t.rank ≤ (serving oneQueue).rank + 10 * t.taken := by
  obtain ⟨t, hrun⟩ : ∃ t, Runs.run step (serving oneQueue) shutdownMidCall = some t :=
    Option.isSome_iff_exists.mp (by decide)
  have hstart : AsyncServer.run (fun _ => true) 1 1 = some oneQueue := rfl
  have hnone : Runs.run step (serving oneQueue) [] = some (serving oneQueue) := rfl
  exact ⟨t, hrun, (shutdown_ends Nat.one_pos hstart hnone hrun).1⟩

end End

end ServerShutdown

end DistTaskSystem
