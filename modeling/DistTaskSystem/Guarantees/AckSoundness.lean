import DistTaskSystem.Guarantees.InflightAccounting

/-!
# DTS — what an acknowledgement stands for

An entry is acknowledged where it is skipped, and where a call of `RunTask` was
answered without an error. `RunTask` answers so whatever happens after it has
found a task in the request: a conversion that throws and a missing submitter
are logged, and the answer is the one of a task that was taken.

## Results

* `lookupTask_none`   — what is skipped has no task that could be dispatched.
* `answersTrue_step`  — a positive answer stands for a task handed on, as long as
  each worker that gives one has handed the task on.
* `ack_sound`         — in such runs every acknowledgement is justified.
* `lost_conversion_acked` — a run in which one is not.
-/

namespace DistTaskSystem

/-- The reasons to skip an entry. -/
inductive Skippable (env : LoopEnv) (entry : StreamEntry) (r : Redis) : Prop
  | noTaskId (hparse : parseStreamEntry entry = none)
  | metaMissing (ptr : StreamTaskPointer) (hparse : parseStreamEntry entry = some ptr)
      (hget : (getStr (taskMeta ptr.taskId) r).1 = .ok none)
  | undecodable (ptr : StreamTaskPointer) (binaryData : List UInt8)
      (hparse : parseStreamEntry entry = some ptr)
      (hget : (getStr (taskMeta ptr.taskId) r).1 = .ok (some binaryData))
      (hdecode : fromMetaBinary env.deserialize env.parse binaryData = .ok none)

theorem connectionGet_ok {outcome : ReplyOutcome} {key : String} {r : Redis}
    {value : Option (List UInt8)} (h : connectionGet outcome key r = .ok value) :
    (getStr key r).1 = .ok value := by
  rw [connectionGet] at h
  split at h
  · generalize (getStr key r).1 = reply at h
    cases reply with
    | ok value' => rw [Except.ok.inj h]
    | error e => cases h
  · cases h

/-- **A lookup without a task** has one of these reasons. -/
theorem lookupTask_none {env : LoopEnv} {get : ReplyOutcome} {entry : StreamEntry} {r : Redis}
    (h : lookupTask env get entry r = .ok none) : Skippable env entry r := by
  unfold lookupTask at h
  split at h
  · next hparse => exact .noTaskId hparse
  · next ptr hparse =>
    split at h
    · exact nomatch h
    · next hget => exact .metaMissing ptr hparse (connectionGet_ok hget)
    · next binaryData hget =>
      split at h
      · exact nomatch h
      · next decoded hdecode =>
        obtain rfl := Except.ok.inj h
        exact .undecodable ptr binaryData hparse (connectionGet_ok hget) hdecode

namespace Cluster

open Runs

variable {env : LoopEnv} {s t u : Cluster} {a : Action} {actions before after : List Action}

/-- A worker whose answer arrives has handed the task to `OnTaskReceived`. -/
def AnswersHanded (env : LoopEnv) (s : Cluster) : Action → Prop
  | .pool (.call i call) => call.stub = true → call.answered = true →
      ∀ job, s.running[i]? = some ⟨job, none⟩ → ∀ j ∈ call.target, ∀ node ∈ s.nodes[j]?,
        Hands env.parse node.hasSubmitter call.faults (taskToProto env.dump job.task)
  | _ => True

-- ---------------------------------------------------------------------------
-- Positive answers
-- ---------------------------------------------------------------------------

/-- The task of the dispatch was handed to `OnTaskReceived`. -/
def Handed (env : LoopEnv) (s : Cluster) (job : Dispatch) : Prop :=
  ∃ task, taskFromProto env.parse (taskToProto env.dump job.task) = .ok task ∧
    (job.streamId, task) ∈ s.handed

/-- A positive answer stands for a task that was handed on. -/
def AnswersTrue (env : LoopEnv) (s : Cluster) : Prop :=
  ∀ r ∈ s.running, r.answer.any Answer.success = true → Handed env s r.job

theorem Handed.mono {job : Dispatch} (h : Handed env s job) (hhanded : s.handed ⊆ t.handed) :
    Handed env t job := by
  obtain ⟨task, htask, hmem⟩ := h
  exact ⟨task, htask, hhanded hmem⟩

/-- What was running before keeps its answer. -/
theorem AnswersTrue.mono (h : AnswersTrue env s) (hrunning : t.running ⊆ s.running)
    (hhanded : s.handed ⊆ t.handed) : AnswersTrue env t :=
  fun r hr hanswer => (h r (hrunning hr) hanswer).mono hhanded

/-- **Step lemma, dispatch pool.** -/
theorem answersTrue_pool {a : PoolAction} (h : AnswersTrue env s)
    (hok : AnswersHanded env s (.pool a)) (hstep : s.poolStep env a = some t) :
    AnswersTrue env t := by
  cases poolStep_moves hstep with
  | start job rest hpool hfree =>
    intro r hr hanswer
    rcases List.mem_append.mp hr with hold | hnew
    · exact h r hold hanswer
    · obtain rfl := List.mem_singleton.mp hnew
      exact nomatch hanswer
  | fail i call job answer hrunning hfail =>
    intro r hr hanswer
    rcases mem_setAnswer hr with rfl | hold
    · exact nomatch hfail.symm.trans hanswer
    · exact h r hold hanswer
  | execute i call job j node hrunning hnode halive haddress hstub htarget =>
    have hhanded : s.handed ⊆ (s.execute env job j node call.faults).handed :=
      List.subset_append_left _ _
    intro r hr hanswer
    rcases mem_setAnswer hr with rfl | hold
    · -- the answer that has just arrived
      have harrived : call.answered = true := by
        by_contra hno
        rw [if_neg hno] at hanswer
        exact nomatch hanswer
      obtain ⟨task, htask, hmem⟩ :=
        runTask_hands (hok hstub harrived job hrunning j htarget node hnode)
      refine ⟨task, htask, List.mem_append_right _ (List.mem_map.mpr ⟨task, ?_, rfl⟩)⟩
      rw [Dispatch.request, hmem]
      exact List.mem_singleton_self task
    · exact (h r hold hanswer).mono hhanded
  | settle i faults job answer hrunning =>
    exact h.mono (List.eraseIdx_subset) (List.Subset.refl _)

/-- **Step lemma.** -/
theorem answersTrue_step (h : AnswersTrue env s) (hok : AnswersHanded env s a)
    (hstep : step env s a = some t) : AnswersTrue env t := by
  cases a with
  | loop a =>
    cases loopStep_moves hstep <;> exact h
  | pool a => exact answersTrue_pool h hok hstep
  | world a =>
    cases worldStep_moves hstep <;> exact h

-- ---------------------------------------------------------------------------
-- Where a task comes from
-- ---------------------------------------------------------------------------

/-- The task was looked up for the entry on the way. -/
structure LookedUp (env : LoopEnv) (s : Cluster) (before : List Action) (id : Nat) (task : Task) :
    Prop where
  lookup : ∃ earlier u entry get, earlier <+: before ∧ run (step env) s earlier = some u ∧
    entry ∈ u.inHand.head? ∧ entry.id = id ∧
    lookupTask env get entry u.loop.redis = .ok (some task)

theorem jobs_lookedUp (hs : s.jobs = []) (hrun : run (step env) s actions = some t) :
    ∀ job ∈ t.jobs, LookedUp env s actions job.streamId job.task := by
  induction actions using List.reverseRecOn generalizing t with
  | nil =>
    obtain rfl : s = t := Option.some.inj hrun
    intro job hjob
    rw [hs] at hjob
    exact absurd hjob List.not_mem_nil
  | append_singleton actions a ih =>
    obtain ⟨u, hu, hstep⟩ := run_snoc.mp hrun
    intro job hjob
    rcases step_jobs hstep hjob with hold | ⟨faults, entry, -, hhand, hid, hlookup⟩
    · obtain ⟨earlier, v, entry, get, hpre, hrest⟩ := (ih hu job hold).lookup
      exact ⟨earlier, v, entry, get, hpre.trans (List.prefix_append _ _), hrest⟩
    · exact ⟨actions, u, entry, faults.get, List.prefix_append _ _, hu, hhand, hid, hlookup⟩

-- ---------------------------------------------------------------------------
-- Acknowledgements
-- ---------------------------------------------------------------------------

/-- What an acknowledgement may stand for, `before` being the run so far. -/
inductive Justified (env : LoopEnv) (s : Cluster) (before : List Action) (u : Cluster) (id : Nat) :
    Prop
  | skipped (entry : StreamEntry) (hhand : entry ∈ u.inHand.head?) (hid : entry.id = id)
      (hskip : Skippable env entry u.loop.redis)
  /-- the task of the entry, as its request converts -/
  | handed (task received : Task) (hlookup : LookedUp env s before id task)
      (hconvert : taskFromProto env.parse (taskToProto env.dump task) = .ok received)
      (hid : received.taskId = task.taskId) (hhanded : (id, received) ∈ u.handed)

/-- **Acknowledgement soundness.** In a run in which each worker whose answer
arrives has handed its task on, every XACK is justified. -/
theorem ack_sound (hs : s.jobs = []) (hok : Along (step env) (AnswersHanded env) s before)
    (hrun : run (step env) s before = some u) (a : Action) :
    ∀ id ∈ acked env u a, Justified env s before u id := by
  intro id hid
  have hnone : AnswersTrue env s := by
    intro r hr
    rw [(List.append_eq_nil_iff.mp hs).2 |> List.map_eq_nil_iff.mp] at hr
    exact absurd hr List.not_mem_nil
  have htrue : AnswersTrue env u :=
    along_invariant (fun _ _ _ h hok hstep => answersTrue_step h hok hstep) hrun hok hnone
  cases a with
  | world a => exact nomatch hid
  | loop a =>
    cases a with
    | entry faults =>
      obtain ⟨entry, hhand, hskip⟩ := Option.bind_eq_some_iff.mp hid
      split at hskip
      · next hlookup =>
        exact .skipped entry hhand (Option.some.inj hskip) (lookupTask_none hlookup)
      · exact nomatch hskip
    | check => exact nomatch hid
    | scan outcome => exact nomatch hid
    | claim outcome => exact nomatch hid
    | pull outcome => exact nomatch hid
  | pool a =>
    cases a with
    | start => exact nomatch hid
    | call i call => exact nomatch hid
    | settle i faults =>
      obtain ⟨r, hr, hanswer⟩ := Option.bind_eq_some_iff.mp hid
      rw [Option.ite_none_right_eq_some] at hanswer
      obtain ⟨hsuccess, hstream⟩ := hanswer
      obtain rfl := Option.some.inj hstream
      have hmem : r ∈ u.running := List.mem_of_getElem? hr
      obtain ⟨received, hconvert, hhanded⟩ := htrue r hmem hsuccess
      have hjob : r.job ∈ u.jobs := List.mem_append_right _ (List.mem_map_of_mem hmem)
      exact .handed r.job.task received (jobs_lookedUp hs hrun r.job hjob) hconvert
        (taskFromProto_ids hconvert).1 hhanded

-- ---------------------------------------------------------------------------
-- A dispatch whose request converts, and one whose request does not
-- ---------------------------------------------------------------------------

/-- The loop pulls an entry and a pool thread takes its job. -/
def oneStarted : List Action :=
  oneEntry ++ [.loop .check, .loop (.pull .answered), .loop (.entry {}), .pool .start]

/-- The worker answers. -/
def answerOf (faults : RunTaskFaults) : Action :=
  .pool (.call 0 { target := some 0, answered := true, faults := faults })

/-- The worker has handed the task on when it answers. -/
theorem ack_sound_handed : ∃ u,
    run (step numeralEnv) launched (oneStarted ++ [answerOf {}]) = some u ∧
      acked numeralEnv u (.pool (.settle 0 {})) = some 1 ∧
      ∀ id ∈ acked numeralEnv u (.pool (.settle 0 {})),
        Justified numeralEnv launched (oneStarted ++ [answerOf {}]) u id := by
  have hstarted : ((run (step numeralEnv) launched oneStarted).any fun t =>
      t.nodes.all WorkerNode.hasSubmitter) = true := by
    decide +kernel
  have hend : ((run (step numeralEnv) launched (oneStarted ++ [answerOf {}])).any fun u =>
      acked numeralEnv u (.pool (.settle 0 {})) = some 1) = true := by
    decide +kernel
  obtain ⟨t, ht, hsubmitters⟩ := (Option.any_eq_true _ _).mp hstarted
  obtain ⟨u, hu, hacked⟩ := (Option.any_eq_true _ _).mp hend
  refine ⟨u, hu, of_decide_eq_true hacked, ack_sound rfl ?_ hu _⟩
  refine (along_append ht).mpr ⟨along_of_forall fun a ha v => ?_, ?_⟩
  · simp only [oneStarted, oneEntry, List.cons_append, List.nil_append, List.mem_cons,
      List.not_mem_nil, or_false] at ha
    rcases ha with rfl | rfl | rfl | rfl | rfl | rfl | rfl | rfl <;> trivial
  · refine ⟨?_, fun _ _ => trivial⟩
    intro _ _ job _ j _ node hnode
    refine ⟨List.all_eq_true.mp hsubmitters node (List.mem_of_getElem? hnode), rfl, ?_⟩
    -- whatever the task, its parameters are sent as 1
    refine taskFromProto_ok_iff.mpr fun hbad => ?_
    have hone : numeralEnv.parse "1" = .ok (.number 1) := by simp [numeralEnv]
    cases hone.symm.trans hbad.2

/-- **A conversion that throws is acknowledged**: the answer carries no error, and
nobody has the task. -/
theorem lost_conversion_acked : ∃ u,
    run (step numeralEnv) launched (oneStarted ++ [answerOf { convert := true }]) = some u ∧
      ∃ id ∈ acked numeralEnv u (.pool (.settle 0 {})),
        ¬ Justified numeralEnv launched (oneStarted ++ [answerOf { convert := true }]) u id := by
  have hend : ((run (step numeralEnv) launched (oneStarted ++ [answerOf { convert := true }])).any
      fun u => acked numeralEnv u (.pool (.settle 0 {})) = some 1 ∧ u.inHand = [] ∧
        u.handed.length = 0) = true := by
    decide +kernel
  obtain ⟨u, hu, hfacts⟩ := (Option.any_eq_true _ _).mp hend
  obtain ⟨hacked, hinHand, hhanded⟩ := of_decide_eq_true hfacts
  refine ⟨u, hu, 1, hacked, ?_⟩
  rintro (⟨entry, hhand, -, -⟩ | ⟨task, received, -, -, -, hmem⟩)
  · rw [hinHand] at hhand
    exact nomatch hhand
  · rw [List.length_eq_zero_iff.mp hhanded] at hmem
    exact absurd hmem List.not_mem_nil

end Cluster

end DistTaskSystem
