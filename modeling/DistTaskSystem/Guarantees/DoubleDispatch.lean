import DistTaskSystem.Guarantees.InflightAccounting
import DistTaskSystem.Scheduler.TaskGroup

/-!
# DTS — one dispatch at a time

`DoRescue` takes over what has been pending for a minute and hands it to the
dispatch pool. It looks at the pending list only: an entry that still waits in
the pool's own queue, or whose call of `DoDispatch` has not returned, is pending
too, and is dispatched a second time. A batch of `XREADGROUP` is new to the
group, so the loop itself never does that.

## Results

* `exclusive_step`  — a step keeps each entry in at most one place, as long as
  the rescue takes none that is still being dispatched.
* `exclusive_run`   — in such runs no entry is dispatched twice at a time.
* `rescue_dispatches_again` — a run in which one is.
-/

namespace DistTaskSystem

namespace Cluster

open Runs

variable {env : LoopEnv} {s t : Cluster} {a : Action} {actions : List Action} {st st' : Stream}

/-- The entries that are being dispatched: queued or running. -/
def dispatching (s : Cluster) : List Nat := s.jobs.map Dispatch.streamId

/-- How often the scheduler has an entry in hand. -/
def owned (s : Cluster) (id : Nat) : Nat :=
  (s.inHand.map StreamEntry.id).count id + s.dispatching.count id

/-- An XCLAIM takes over no entry that is still being dispatched. -/
def ClaimsIdle (s : Cluster) : Action → Prop
  | .loop (.claim outcome) => outcome = .answered → ∀ ids, s.work = .claim ids →
      ∀ g ∈ (s.loop.redis.streamAt kTasks).group? kGroupMain, ∀ p ∈ g.pending, p.id ∈ ids →
        minIdleMs ≤ s.loop.redis.now - p.deliveredAt → p.id ∉ s.dispatching
  | _ => True

-- ---------------------------------------------------------------------------
-- The invariant
-- ---------------------------------------------------------------------------

/-- What the scheduler has in hand was delivered, and it has nothing twice. -/
structure Exclusive (s : Cluster) (st : Stream) : Prop where
  serves : Serves s.loop.redis st
  ids : ∀ ids, s.work = .claim ids → ids.Nodup
  delivered : ∀ id, 0 < s.owned id → st.Delivered id
  once : ∀ id, s.owned id ≤ 1

/-- Nothing is taken. -/
theorem Exclusive.mono (h : s.Exclusive st) (hserves : Serves t.loop.redis st')
    (hdelivered : ∀ id, st.Delivered id → st'.Delivered id)
    (hids : ∀ ids, t.work = .claim ids → ids.Nodup) (howned : ∀ id, t.owned id ≤ s.owned id) :
    t.Exclusive st' where
  serves := hserves
  ids := hids
  delivered id hid := hdelivered id (h.delivered id (hid.trans_le (howned id)))
  once id := (howned id).trans (h.once id)

/-- A batch of entries is taken that the scheduler does not have. -/
theorem Exclusive.take {batch : List StreamEntry} (h : s.Exclusive st)
    (hserves : Serves t.loop.redis st') (hdelivered : ∀ id, st.Delivered id → st'.Delivered id)
    (hids : ∀ ids, t.work = .claim ids → ids.Nodup) (hnodup : (batch.map StreamEntry.id).Nodup)
    (hnew : ∀ e ∈ batch, s.owned e.id = 0) (hbatch : ∀ e ∈ batch, st'.Delivered e.id)
    (howned : ∀ id, t.owned id = (batch.map StreamEntry.id).count id + s.owned id) :
    t.Exclusive st' := by
  have hout : ∀ id, id ∉ batch.map StreamEntry.id → t.owned id = s.owned id := by
    intro id hid
    rw [howned, List.count_eq_zero_of_not_mem hid, Nat.zero_add]
  refine ⟨hserves, hids, ?_, ?_⟩
  · intro id hid
    by_cases hmem : id ∈ batch.map StreamEntry.id
    · obtain ⟨e, he, rfl⟩ := List.mem_map.mp hmem
      exact hbatch e he
    · exact hdelivered id (h.delivered id (hout id hmem ▸ hid))
  · intro id
    by_cases hmem : id ∈ batch.map StreamEntry.id
    · obtain ⟨e, he, rfl⟩ := List.mem_map.mp hmem
      rw [howned, hnew e he]
      exact List.nodup_iff_count_le_one.mp hnodup e.id
    · rw [hout id hmem]
      exact h.once id

theorem owned_of_inHand_nil (hnone : s.inHand = []) (id : Nat) :
    s.owned id = s.dispatching.count id := by
  rw [owned, hnone, List.map_nil, List.count_nil, Nat.zero_add]

/-- An entry is handled: it leaves the hands of the loop, and may join the queue. -/
theorem owned_handled {faults : EntryFaults} {select : Option WorkerInfo} {entry : StreamEntry}
    {rest : List StreamEntry} {handled : Handled} (hhead : s.inHand = entry :: rest)
    (heffect : HandleEffect env faults select entry s.loop handled t.loop)
    (hrest : t.inHand = rest) (hrunning : t.running = s.running) (id : Nat) :
    t.owned id ≤ s.owned id := by
  have hpool : (t.loop.dispatchPool.map Dispatch.streamId).count id ≤
      [entry.id].count id + (s.loop.dispatchPool.map Dispatch.streamId).count id := by
    generalize t.loop = l at heffect
    cases heffect with
    | skip hlookup => exact Nat.le_add_left _ _
    | dispatch task worker hlookup hselect =>
      show ((s.loop.dispatchPool ++ [_]).map Dispatch.streamId).count id ≤ _
      rw [List.map_append, List.count_append]
      exact (Nat.add_comm _ _).le
    | noWorker task hlookup hselect => exact Nat.le_add_left _ _
  have hcons : ((entry :: rest).map StreamEntry.id).count id =
      [entry.id].count id + (rest.map StreamEntry.id).count id := by
    rw [List.map_cons, ← List.singleton_append, List.count_append]
  rw [owned, owned, hhead, hrest, hcons, dispatching, dispatching, jobs, jobs, hrunning,
    List.map_append, List.map_append, List.count_append, List.count_append]
  omega

-- ---------------------------------------------------------------------------
-- The steps
-- ---------------------------------------------------------------------------

/-- **XCLAIM** brings in entries that nobody has. -/
theorem Exclusive.claimed {outcome : ReplyOutcome} {ids : List Nat}
    {call : Option (List StreamEntry) × Redis} (h : s.Exclusive st)
    (hok : s.ClaimsIdle (.loop (.claim outcome))) (hwork : s.work = .claim ids)
    (hcall : call = redisCall outcome
      (xclaim kTasks kGroupMain env.consumerName minIdleMs ids) s.loop.redis) :
    ∃ st', (s.take call.2 (call.1.getD []) (.rescueRest (call.1.getD []))).Exclusive st' := by
  have hnone : s.inHand = [] := by rw [inHand, hwork]
  obtain ⟨st', hserves, hclaims⟩ := h.serves.claim outcome env.consumerName (h.ids ids hwork)
  rw [← hcall] at hserves hclaims
  refine ⟨st', h.take hserves hclaims.keeps.delivered ?_
    ((h.ids ids hwork).sublist hclaims.ids) ?_ hclaims.delivered ?_⟩
  · exact fun ids' hclaim => absurd hclaim (LoopWork.rescueRest_ne_claim _ ids')
  · -- what is claimed is not in the pool
    intro e he
    have hanswered : outcome = .answered := by
      cases outcome with
      | answered => rfl
      | lost =>
        rw [hcall] at he
        exact absurd he List.not_mem_nil
      | refused =>
        rw [hcall] at he
        exact absurd he List.not_mem_nil
    obtain ⟨g, hg, p, hp, hid, hidle⟩ := hclaims.idle e he
    have hmem : e.id ∈ ids := hclaims.ids.subset (List.mem_map_of_mem he)
    have hfree := hok hanswered ids hwork g (h.serves.holds.streamAt.symm ▸ hg) p hp
      (hid ▸ hmem) hidle
    rw [owned_of_inHand_nil hnone, List.count_eq_zero_of_not_mem (hid ▸ hfree)]
  · intro id
    have htaken : (s.take call.2 (call.1.getD []) (.rescueRest (call.1.getD []))).inHand =
        call.1.getD [] := inHand_rescueRest rfl
    rw [owned, htaken, owned_of_inHand_nil hnone]
    rfl

/-- **XREADGROUP** brings in entries that nobody has had. -/
theorem Exclusive.pulled {outcome : ReplyOutcome} {c : Candidates}
    {call : Option (List StreamEntry) × Redis} (h : s.Exclusive st) (hwork : s.work = .pull)
    (hcall : call = redisCall outcome
      (xreadgroup kGroupMain env.consumerName kTasks readBatchSize) s.loop.redis) :
    ∃ st', (s.take call.2 (call.1.getD []) (.batchRest c 0 (call.1.getD []))).Exclusive st' := by
  have hnone : s.inHand = [] := by rw [inHand, hwork]
  obtain ⟨st', hserves, hreads⟩ := h.serves.read outcome env.consumerName readBatchSize
  rw [← hcall] at hserves hreads
  refine ⟨st', h.take hserves hreads.keeps.delivered ?_ hreads.nodup ?_ hreads.delivered ?_⟩
  · exact fun ids' hclaim => absurd hclaim (LoopWork.batchRest_ne_claim _ _ _ ids')
  · intro e he
    by_contra howned
    exact hreads.fresh e he (h.delivered e.id (Nat.pos_of_ne_zero howned))
  · intro id
    have htaken : (s.take call.2 (call.1.getD []) (.batchRest c 0 (call.1.getD []))).inHand =
        call.1.getD [] := inHand_batchRest rfl
    rw [owned, htaken, owned_of_inHand_nil hnone]
    rfl

/-- **Step lemma, loop thread.** -/
theorem exclusive_loop {a : LoopAction} (h : s.Exclusive st) (hok : s.ClaimsIdle (.loop a))
    (hstep : s.loopStep env a = some t) : ∃ st', t.Exclusive st' := by
  cases loopStep_moves hstep with
  | busy hwork hfull => exact ⟨st, h⟩
  | toScan hwork hroom hdue =>
    refine ⟨st, h.mono h.serves (fun _ hid => hid) (fun _ hclaim => by cases hclaim) fun id => ?_⟩
    rw [owned, owned, inHand, inHand, hwork]
    exact le_refl _
  | toPull hwork hroom =>
    refine ⟨st, h.mono h.serves (fun _ hid => hid) (fun _ hclaim => by cases hclaim) fun id => ?_⟩
    rw [owned, owned, inHand, inHand, hwork]
    exact le_refl _
  | scanned outcome call hwork hcall =>
    obtain ⟨hredis, hids⟩ := h.serves.pending outcome rescueBatchSize
    rw [← hcall] at hredis hids
    refine ⟨st, h.mono (hredis ▸ h.serves) (fun _ hid => hid) ?_ fun id => ?_⟩
    · intro ids hclaim
      by_cases hnone : idleIds call.1 = []
      · cases (if_pos hnone).symm.trans hclaim
      · obtain rfl := LoopWork.claim.inj ((if_neg hnone).symm.trans hclaim)
        exact hids
    · have hnone : ∀ u : Cluster, u.work = .pull ∨ u.work = .claim (idleIds call.1) →
          u.inHand = [] := by
        rintro u (hu | hu) <;> rw [inHand, hu]
      rw [owned_of_inHand_nil (hnone _ (ite_eq_or_eq _ _ _)) id,
        owned_of_inHand_nil (by rw [inHand, hwork]) id]
      exact le_refl _
  | claimed outcome ids call hwork hcall => exact h.claimed hok hwork hcall
  | noWorkers outcome hwork hnone =>
    refine ⟨st, h.mono h.serves (fun _ hid => hid) (fun _ hclaim => by cases hclaim) fun id => ?_⟩
    rw [owned, owned, inHand, inHand, hwork]
    exact le_refl _
  | pulled outcome c call hwork hworkers hcall => exact h.pulled hwork hcall
  | handled faults c workerIdx entry rest handled loop hwork heffect =>
    have hhead : s.inHand = entry :: rest := by rw [inHand, hwork]
    obtain ⟨st', hserves, hacks⟩ := h.serves.handled heffect
    refine ⟨st', h.mono hserves hacks.delivered ?_
      (owned_handled hhead heffect (inHand_batchRest rfl) rfl)⟩
    exact fun ids hclaim => absurd hclaim (LoopWork.batchRest_ne_claim _ _ _ ids)
  | thrown faults c workerIdx entry rest e hwork hthrow =>
    refine ⟨st, h.mono h.serves (fun _ hid => hid) (fun _ hclaim => by cases hclaim) fun id => ?_⟩
    rw [owned_of_inHand_nil (by rfl)]
    exact Nat.le_add_left _ _
  | rescued faults entry rest handled loop hwork heffect =>
    have hhead : s.inHand = entry :: rest := by rw [inHand, hwork]
    obtain ⟨st', hserves, hacks⟩ := h.serves.handled heffect
    refine ⟨st', h.mono hserves hacks.delivered ?_
      (owned_handled hhead heffect (inHand_rescueRest rfl) rfl)⟩
    exact fun ids hclaim => absurd hclaim (LoopWork.rescueRest_ne_claim _ ids)
  | rescueThrown faults entry rest e hwork hthrow =>
    refine ⟨st, h.mono h.serves (fun _ hid => hid) (fun _ hclaim => by cases hclaim) fun id => ?_⟩
    rw [owned_of_inHand_nil (by rfl)]
    exact Nat.le_add_left _ _

/-- What runs or waits to run after a step of the pool did so before. -/
theorem dispatching_pool {a : PoolAction} (hstep : s.poolStep env a = some t) (id : Nat) :
    t.dispatching.count id ≤ s.dispatching.count id := by
  cases poolStep_moves hstep with
  | start job rest hpool hfree =>
    show ((rest ++ (s.running ++ [_]).map Running.job).map Dispatch.streamId).count id ≤ _
    rw [dispatching, jobs, hpool, List.map_append (f := Running.job), ← List.append_assoc]
    refine (List.Perm.count_eq (List.Perm.map _ ?_) id).le
    exact (List.perm_append_singleton _ _)
  | fail i call job answer hrunning hfail =>
    rw [dispatching, jobs_setAnswer hrunning]
    exact le_refl _
  | execute i call job j node hrunning hnode halive haddress hstub htarget =>
    have hsame : ((s.execute env job j node call.faults).setAnswer i job
        (if call.answered then
          .response (runTask env.parse node.hasSubmitter call.faults (job.request env)).1
        else .failed)).jobs = s.jobs :=
      jobs_setAnswer (s := s.execute env job j node call.faults) hrunning
    rw [dispatching, hsame]
    exact le_refl _
  | settle i faults job answer hrunning =>
    refine List.Sublist.count_le id (List.Sublist.map _ ?_)
    show (List.Sublist ((DistTaskSystem.settle faults job answer s.loop).dispatchPool ++
      (s.running.eraseIdx i).map Running.job) s.jobs)
    rw [settle_dispatchPool]
    exact (List.Sublist.refl _).append ((List.eraseIdx_sublist _ _).map _)

/-- **Step lemma.** -/
theorem exclusive_step (h : s.Exclusive st) (hok : s.ClaimsIdle a)
    (hstep : step env s a = some t) : ∃ st', t.Exclusive st' := by
  cases a with
  | loop a => exact exclusive_loop h hok hstep
  | pool a =>
    have hcount := dispatching_pool hstep
    cases poolStep_moves hstep with
    | start job rest hpool hfree =>
      exact ⟨st, h.mono h.serves (fun _ hid => hid) h.ids
        fun id => Nat.add_le_add_left (hcount id) _⟩
    | fail i call job answer hrunning hfail =>
      exact ⟨st, h.mono h.serves (fun _ hid => hid) h.ids
        fun id => Nat.add_le_add_left (hcount id) _⟩
    | execute i call job j node hrunning hnode halive haddress hstub htarget =>
      exact ⟨st, h.mono h.serves (fun _ hid => hid) h.ids
        fun id => Nat.add_le_add_left (hcount id) _⟩
    | settle i faults job answer hrunning =>
      obtain ⟨st', hserves, hacks⟩ := h.serves.settled
      exact ⟨st', h.mono hserves hacks.delivered h.ids
        fun id => Nat.add_le_add_left (hcount id) _⟩
  | world a =>
    obtain ⟨st', hserves, hkeeps⟩ := h.serves.world hstep
    obtain ⟨hwork, hrunning, hpool, -⟩ := worldStep_threads hstep
    refine ⟨st', h.mono hserves hkeeps.delivered (hwork ▸ h.ids) fun id => ?_⟩
    rw [owned, owned, inHand, inHand, dispatching, dispatching, jobs, jobs, hwork, hrunning, hpool]

-- ---------------------------------------------------------------------------
-- The runs
-- ---------------------------------------------------------------------------

/-- A scheduler that has nothing in hand yet, on any stream. -/
structure Starts (s : Cluster) (st : Stream) : Prop where
  serves : Serves s.loop.redis st
  work : s.work = .top
  jobs : s.jobs = []

theorem Starts.exclusive (h : s.Starts st) : s.Exclusive st := by
  have hnone : ∀ id, s.owned id = 0 := by
    intro id
    rw [owned_of_inHand_nil (by rw [inHand, h.work]), dispatching, h.jobs]
    rfl
  refine ⟨h.serves, ?_, ?_, ?_⟩
  · intro ids hclaim
    cases h.work.symm.trans hclaim
  · intro id hid
    rw [hnone] at hid
    exact absurd hid (lt_irrefl 0)
  · exact fun id => (hnone id).trans_le (Nat.zero_le 1)

/-- **No double dispatch**, as long as no XCLAIM takes over an entry that is still
queued or running in the pool. -/
theorem exclusive_run (hstart : s.Starts st) (hrun : run (step env) s actions = some t)
    (hok : Along (step env) ClaimsIdle s actions) : t.dispatching.Nodup := by
  have hend : ∃ st', t.Exclusive st' := by
    refine along_invariant (P := fun u => ∃ st', u.Exclusive st') ?_ hrun hok
      ⟨st, hstart.exclusive⟩
    rintro u b v ⟨st', hu⟩ hclaims hstep
    exact exclusive_step hu hclaims hstep
  obtain ⟨st', ht⟩ := hend
  refine List.nodup_iff_count_le_one.mpr fun id => ?_
  exact (Nat.le_add_left _ _).trans (ht.once id)

theorem starts_launched : launched.Starts (Stream.empty.setGroup kGroupMain ⟨0, []⟩) := by
  have hempty : Redis.empty.HoldsStream kTasks .empty := .inl ⟨rfl, rfl⟩
  refine ⟨⟨?_, Stream.ordered_empty.setGroup _ _, ?_⟩, rfl, rfl⟩
  · show (startGroup .answered .empty).HoldsStream kTasks _
    rw [startGroup_eq, if_neg (by decide)]
    exact (xgroupCreate_stream hempty .last rfl).2
  · intro g hg
    obtain rfl := Option.some.inj ((Stream.group?_setGroup _ _).symm.trans hg)
    exact (ConsumerGroup.within_new 0 (le_refl 0)).setGroup _ _

/-- The call of a dispatch fails, its `DoDispatch` returns, and a minute later a rescue
finds the entry pending, -/
def failedDispatch : List Action :=
  [.world (.boot "worker" "10.0.0.1:50051" true), .world (.register 0),
    .world (.store taskA.text metaOne 86400000), .world (.push (toXAddArgs taskA.text jobX.text)),
    .loop .check, .loop (.pull .answered), .loop (.entry {}), .pool .start, .pool (.call 0 {}),
    .pool (.settle 0 {}), .world (.pass 60001), .world (.heartbeat 0 0), .loop .check,
    .loop (.scan .answered)]

/-- claims it and dispatches it again. -/
def rescuedDispatch : List Action := [.loop (.claim .answered), .loop (.entry {})]

/-- A rescue that takes over what is no longer being dispatched. -/
theorem exclusive_run_dispatch : ∃ s t, run (step numeralEnv) launched failedDispatch = some s ∧
    run (step numeralEnv) s rescuedDispatch = some t ∧ t.dispatching = [1] ∧
    t.dispatching.Nodup := by
  have hend : ((run (step numeralEnv) launched failedDispatch).any fun s => s.dispatching = [] ∧
      ((run (step numeralEnv) s rescuedDispatch).any fun t => t.dispatching = [1])) = true := by
    decide +kernel
  obtain ⟨s, hrun, hs⟩ := (Option.any_eq_true _ _).mp hend
  obtain ⟨hidle, hs⟩ := of_decide_eq_true hs
  obtain ⟨t, hrescue, ht⟩ := (Option.any_eq_true _ _).mp hs
  have halong :
      Along (step numeralEnv) ClaimsIdle launched (failedDispatch ++ rescuedDispatch) := by
    refine (along_append hrun).mpr ⟨along_of_forall fun a ha u => ?_, ?_⟩
    · -- no XCLAIM before the rescue
      simp only [failedDispatch, List.mem_cons, List.not_mem_nil, or_false] at ha
      rcases ha with rfl | rfl | rfl | rfl | rfl | rfl | rfl | rfl | rfl | rfl | rfl | rfl | rfl |
        rfl <;> trivial
    · -- nothing is dispatched when the XCLAIM is answered
      refine ⟨fun _ ids _ g _ p _ _ _ => ?_, fun u _ => ⟨trivial, fun v _ => trivial⟩⟩
      rw [hidle]
      exact List.not_mem_nil
  have hboth := run_append.mpr ⟨s, hrun, hrescue⟩
  exact ⟨s, t, hrun, hrescue, of_decide_eq_true ht, exclusive_run starts_launched hboth halong⟩

/-- The call of a dispatch fails, and the statement that reverts the task is not
answered for a minute. -/
def stalledDispatch : List Action :=
  [.world (.boot "worker" "10.0.0.1:50051" true), .world (.register 0),
    .world (.store taskA.text metaOne 86400000), .world (.push (toXAddArgs taskA.text jobX.text)),
    .loop .check, .loop (.pull .answered), .loop (.entry {}), .pool .start, .pool (.call 0 {}),
    .world (.pass 60001), .world (.heartbeat 0 0), .loop .check, .loop (.scan .answered),
    .loop (.claim .answered), .loop (.entry {})]

/-- **The rescue dispatches an entry again** while its first `DoDispatch` is still
running. -/
theorem rescue_dispatches_again : ∃ t,
    run (step numeralEnv) launched stalledDispatch = some t ∧ ¬ t.dispatching.Nodup := by
  have hend : ((run (step numeralEnv) launched stalledDispatch).any fun t =>
      t.dispatching = [1, 1]) = true := by
    decide +kernel
  obtain ⟨t, hrun, htwice⟩ := (Option.any_eq_true _ _).mp hend
  refine ⟨t, hrun, ?_⟩
  rw [of_decide_eq_true htwice]
  decide

end Cluster

end DistTaskSystem
