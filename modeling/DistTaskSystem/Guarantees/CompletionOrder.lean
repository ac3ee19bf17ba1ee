import DistTaskSystem.Common.CompleteTask
import DistTaskSystem.Library.Ticks
import Mathlib.Data.Finset.Dedup
import Mathlib.Data.Multiset.Filter

/-!
# DTS — the order of completions

A run of the script for a parent decrements each of its children once, and what
a decrement does depends on the counter and the meta of that child alone: a
family of machines, one for each child (`childStep`). A second run for the same
parent finds no children. So whatever the state of the keyspace, two lists of
parents with the same elements decrement every child equally often, and differ
only in the order of the entries they write.

This is about values: the deadline of the dependency hash is lost when its last
counter goes, so whether it survives does depend on the order.

## Results

* `decrementChild_wrote` — one child is one tick.
* `Reads.complete`       — one parent is a tick for each of its children.
* `Reads.completeAll`    — a list of parents is a tick for each child of each.
* `completeAll_perm`     — the order and the repetitions do not matter.
-/

namespace DistTaskSystem

open Ticks

-- ---------------------------------------------------------------------------
-- The machine of a child
-- ---------------------------------------------------------------------------

/-- An entry, with the stream it goes to. -/
abbrev Emission := Key × List (String × String)

/-- What the script makes of the counter of a child, and what it writes. -/
def childStep (jobId : String) (known : String → Bool) (childId : String)
    (counter : Option Int) : Option Int × List Emission :=
  let remain := counter.getD 0 - 1
  if remain = 0 then
    if known childId then (none, [(.tasks, [("task_id", childId), ("job_id", jobId)])])
    else (some remain, [(.errors, missingMetaEntry jobId childId)])
  else if remain < 0 then (some remain, [(.errors, negativeDepsEntry jobId childId remain)])
  else (some remain, [])

/-- The entries for one stream. -/
def sentTo (key : Key) (emissions : List Emission) : List (List (String × String)) :=
  (emissions.filter fun e => e.1 = key).map Prod.snd

theorem sentTo_append (key : Key) (es es' : List Emission) :
    sentTo key (es ++ es') = sentTo key es ++ sentTo key es' := by
  rw [sentTo, List.filter_append, List.map_append]
  rfl

theorem sentTo_perm {es es' : List Emission} (key : Key) (h : es.Perm es') :
    (sentTo key es).Perm (sentTo key es') :=
  (h.filter _).map _

/-- The entries of a stream, without their ids. -/
def fieldsAt (r : Redis) (key : String) : List (List (String × String)) :=
  (r.streamAt key).entries.map StreamEntry.fields

/-- The parents are completed one after the other; SMEMBERS may enumerate the children
of each in an order of its own. -/
def completeAll (jobId : String) (parents : List (MembersOrder × String)) (r : Redis) : Redis :=
  parents.foldl (fun r p => (completeTask p.1 p.2 jobId r).2) r

-- ---------------------------------------------------------------------------
-- What a piece of the script writes
-- ---------------------------------------------------------------------------

/-- The counters of the job are left as `counter`, the streams have got `emissions`,
and the other keys are as they were. -/
structure Wrote (jobId : String) (r r' : Redis) (counter : String → Option Int)
    (emissions : List Emission) : Prop where
  typed : Typed jobId r'
  counter : (view jobId r').counter = counter
  tasks : fieldsAt r' kTasks = fieldsAt r kTasks ++ sentTo .tasks emissions
  errors : fieldsAt r' kErrors = fieldsAt r kErrors ++ sentTo .errors emissions
  other : ∀ k, k ≠ dependencyHash jobId → k ≠ kTasks → k ≠ kErrors → r'.keys k = r.keys k

namespace Wrote

variable {jobId : String} {r r' r'' : Redis} {counter counter' : String → Option Int}
  {es es' : List Emission}

theorem refl (ht : Typed jobId r) : Wrote jobId r r (view jobId r).counter [] where
  typed := ht
  counter := rfl
  tasks := (List.append_nil _).symm
  errors := (List.append_nil _).symm
  other _ _ _ _ := rfl

theorem trans (h : Wrote jobId r r' counter es) (h' : Wrote jobId r' r'' counter' es') :
    Wrote jobId r r'' counter' (es ++ es') where
  typed := h'.typed
  counter := h'.counter
  tasks := by rw [h'.tasks, h.tasks, sentTo_append, List.append_assoc]
  errors := by rw [h'.errors, h.errors, sentTo_append, List.append_assoc]
  other k hd ht he := by rw [h'.other k hd ht he, h.other k hd ht he]

theorem known (h : Wrote jobId r r' counter es) : (view jobId r').known = (view jobId r).known := by
  funext t
  show (r'.keys (taskMeta t)).isSome = (r.keys (taskMeta t)).isSome
  rw [h.other (taskMeta t) (by simp) (by simp) (by simp)]

theorem setAt (h : Wrote jobId r r' counter es) (taskId : String) :
    r'.setAt (childrenKey taskId) = r.setAt (childrenKey taskId) :=
  Redis.setAt_congr (h.other _ (by simp) (by simp) (by simp))

end Wrote

section Commands

variable {jobId childId : String} {r : Redis}

theorem hincrby_wrote (ht : Typed jobId r) (hc : inInt64 ((view jobId r).left childId) = true) :
    ∃ r', hincrby (dependencyHash jobId) childId (-1) r =
        (.ok ((view jobId r).left childId), r') ∧
      Wrote jobId r r' (Function.update (view jobId r).counter childId
        (some ((view jobId r).left childId))) [] := by
  refine ⟨_, hincrby_ok ht.deps hc, ⟨by simp, by simpa using ht.tasks, by simpa using ht.errors⟩,
    ?_, ?_, ?_, fun k hk _ _ => Redis.keys_put_ne _ _ _ hk⟩
  · rw [view_put_deps, RedisHash.lookup_insert]
    rfl
  · simp [fieldsAt, sentTo]
  · simp [fieldsAt, sentTo]

theorem hdel_wrote (ht : Typed jobId r) (childId : String) :
    ∃ r', hdel (dependencyHash jobId) childId r = (.ok (), r') ∧
      Wrote jobId r r' (Function.update (view jobId r).counter childId none) [] := by
  refine ⟨_, hdel_ok ht.deps childId, ⟨by simp, by simpa using ht.tasks, by simpa using ht.errors⟩,
    ?_, ?_, ?_, fun k hk _ _ => Redis.keys_put_ne _ _ _ hk⟩
  · rw [view_put_ofHash, RedisHash.lookup_erase]
    rfl
  · simp [fieldsAt, sentTo]
  · simp [fieldsAt, sentTo]

theorem xadd_tasks_wrote (ht : Typed jobId r) (fields : List (String × String)) :
    ∃ id r', xadd kTasks fields r = (.ok id, r') ∧
      Wrote jobId r r' (view jobId r).counter [(.tasks, fields)] := by
  refine ⟨_, _, xadd_ok ht.tasks fields,
    ⟨by simpa using ht.deps, by simp, by simpa using ht.errors⟩,
    by rw [view_put_tasks], ?_, ?_, fun k _ hk _ => Redis.keys_put_ne _ _ _ hk⟩
  · simp [fieldsAt, sentTo, Stream.add]
  · simp [fieldsAt, sentTo]

theorem xadd_errors_wrote (ht : Typed jobId r) (fields : List (String × String)) :
    ∃ id r', xadd kErrors fields r = (.ok id, r') ∧
      Wrote jobId r r' (view jobId r).counter [(.errors, fields)] := by
  refine ⟨_, _, xadd_ok ht.errors fields,
    ⟨by simpa using ht.deps, by simpa using ht.tasks, by simp⟩,
    by rw [view_put_errors], ?_, ?_, fun k _ _ hk => Redis.keys_put_ne _ _ _ hk⟩
  · simp [fieldsAt, sentTo]
  · simp [fieldsAt, sentTo, Stream.add]

end Commands

-- ---------------------------------------------------------------------------
-- One child, and the loop
-- ---------------------------------------------------------------------------

/-- No decrement of the ticks overflows. -/
def InRange (jobId : String) (known : String → Bool) (counter : String → Option Int)
    (ticks : List String) : Prop :=
  ∀ c, ∀ i < ticks.count c,
    inInt64 (((fun v => (childStep jobId known c v).1)^[i] (counter c)).getD 0 - 1) = true

section InRange

variable {jobId : String} {known : String → Bool} {counter : String → Option Int} {c : String}
  {ticks ticks' : List String}

theorem InRange.perm (h : InRange jobId known counter ticks) (hperm : ticks.Perm ticks') :
    InRange jobId known counter ticks' := by
  intro c i hi
  rw [← hperm.count_eq] at hi
  exact h c i hi

theorem InRange.left (h : InRange jobId known counter (ticks ++ ticks')) :
    InRange jobId known counter ticks := by
  intro c i hi
  refine h c i ?_
  rw [List.count_append]
  omega

/-- The rest of the ticks starts where the first ones have led. -/
theorem InRange.right (h : InRange jobId known counter (ticks ++ ticks')) :
    InRange jobId known (after (childStep jobId known) counter ticks) ticks' := by
  intro c i hi
  rw [after_apply, ← Function.iterate_add_apply]
  refine h c _ ?_
  rw [List.count_append]
  omega

theorem InRange.head (h : InRange jobId known counter (c :: ticks)) :
    inInt64 ((counter c).getD 0 - 1) = true :=
  h c 0 (by rw [List.count_cons_self]; omega)

theorem InRange.tail (h : InRange jobId known counter (c :: ticks)) :
    InRange jobId known (tick (childStep jobId known) counter c) ticks := by
  have hright : InRange jobId known (after (childStep jobId known) counter [c]) ticks := h.right
  exact hright

end InRange

section Child

variable {jobId childId : String} {r : Redis}

/-- **One child is one tick.** -/
theorem decrementChild_wrote (ht : Typed jobId r)
    (hc : inInt64 ((view jobId r).left childId) = true) :
    ∃ n r', decrementChild (dependencyHash jobId) kTasks kErrors jobId childId r = (.ok n, r') ∧
      Wrote jobId r r' (tick (childStep jobId (view jobId r).known) (view jobId r).counter childId)
        (childStep jobId (view jobId r).known childId ((view jobId r).counter childId)).2 := by
  obtain ⟨r₁, hincr, h₁⟩ := hincrby_wrote ht hc
  have hexists : existsKey ("dts:task:meta:" ++ childId) r₁ =
      (.ok ((view jobId r).known childId), r₁) := by
    rw [← h₁.known]
    exact existsKey_ok r₁ (taskMeta childId)
  have hleft : ((view jobId r).counter childId).getD 0 - 1 = (view jobId r).left childId := rfl
  by_cases hzero : (view jobId r).left childId = 0
  · by_cases hmeta : (view jobId r).known childId = true
    · -- pushed, and its counter removed
      have hstep : childStep jobId (view jobId r).known childId ((view jobId r).counter childId) =
          (none, [(.tasks, [("task_id", childId), ("job_id", jobId)])]) := by
        simp only [childStep, hleft, hzero, hmeta, if_true]
      obtain ⟨id, r₂, hpush, h₂⟩ := xadd_tasks_wrote h₁.typed
        [("task_id", childId), ("job_id", jobId)]
      obtain ⟨r₃, hdel, h₃⟩ := hdel_wrote h₂.typed childId
      refine ⟨1, r₃, ?_, ?_⟩
      · rw [decrementChild, RedisM.bind_ok hincr, if_pos hzero, RedisM.bind_ok hexists,
          if_pos hmeta, RedisM.bind_ok hpush, RedisM.bind_ok hdel]
        rfl
      · have hall := (h₁.trans h₂).trans h₃
        rw [h₂.counter, h₁.counter, Function.update_idem] at hall
        rw [tick, hstep]
        exact hall
    · -- the counter stays at zero, and the missing payload is reported
      have hstep : childStep jobId (view jobId r).known childId ((view jobId r).counter childId) =
          (some 0, [(.errors, missingMetaEntry jobId childId)]) := by
        simp only [childStep, hleft, hzero, hmeta, if_true]
        rfl
      obtain ⟨id, r₂, hreport, h₂⟩ := xadd_errors_wrote h₁.typed (missingMetaEntry jobId childId)
      refine ⟨0, r₂, ?_, ?_⟩
      · rw [decrementChild, RedisM.bind_ok hincr, if_pos hzero, RedisM.bind_ok hexists,
          if_neg hmeta, RedisM.bind_ok hreport]
        rfl
      · have hall := h₁.trans h₂
        rw [h₁.counter, hzero] at hall
        rw [tick, hstep]
        exact hall
  · by_cases hneg : (view jobId r).left childId < 0
    · have hstep : childStep jobId (view jobId r).known childId ((view jobId r).counter childId) =
          (some ((view jobId r).left childId),
            [(.errors, negativeDepsEntry jobId childId ((view jobId r).left childId))]) := by
        simp only [childStep, hleft, hzero, hneg, if_true, if_false]
      obtain ⟨id, r₂, hreport, h₂⟩ := xadd_errors_wrote h₁.typed
        (negativeDepsEntry jobId childId ((view jobId r).left childId))
      refine ⟨0, r₂, ?_, ?_⟩
      · rw [decrementChild, RedisM.bind_ok hincr, if_neg hzero, if_pos hneg,
          RedisM.bind_ok hreport]
        rfl
      · have hall := h₁.trans h₂
        rw [h₁.counter] at hall
        rw [tick, hstep]
        exact hall
    · have hstep : childStep jobId (view jobId r).known childId ((view jobId r).counter childId) =
          (some ((view jobId r).left childId), []) := by
        simp only [childStep, hleft, hzero, hneg, if_false]
      refine ⟨0, r₁, ?_, ?_⟩
      · rw [decrementChild, RedisM.bind_ok hincr, if_neg hzero, if_neg hneg]
        rfl
      · rw [tick, hstep]
        exact h₁

/-- The loop is a tick for each child it is given. -/
theorem decrementChildren_wrote {children : List String} (ht : Typed jobId r)
    (hrange : InRange jobId (view jobId r).known (view jobId r).counter children) :
    ∃ n r', decrementChildren (dependencyHash jobId) kTasks kErrors jobId children r =
        (.ok n, r') ∧
      Wrote jobId r r'
        (after (childStep jobId (view jobId r).known) (view jobId r).counter children)
        (emitted (childStep jobId (view jobId r).known) (view jobId r).counter children) := by
  induction children generalizing r with
  | nil => exact ⟨0, r, rfl, .refl ht⟩
  | cons c rest ih =>
    obtain ⟨n, r₁, hchild, h₁⟩ := decrementChild_wrote ht hrange.head
    obtain ⟨m, r₂, hloop, h₂⟩ := ih h₁.typed (by
      rw [h₁.known, h₁.counter]
      exact hrange.tail)
    rw [h₁.known, h₁.counter] at h₂
    refine ⟨n + m, r₂, ?_, h₁.trans h₂⟩
    rw [decrementChildren, RedisM.bind_ok hchild, RedisM.bind_ok hloop]
    rfl

end Child

-- ---------------------------------------------------------------------------
-- One parent
-- ---------------------------------------------------------------------------

/-- The keyspace `r'` after the parents in `done`, whose children were ticked in this
order. -/
structure Reads (jobId : String) (r r' : Redis) (done ticks : List String) : Prop where
  typed : Typed jobId r'
  known : (view jobId r').known = (view jobId r).known
  counter : (view jobId r').counter =
    after (childStep jobId (view jobId r).known) (view jobId r).counter ticks
  tasks : fieldsAt r' kTasks = fieldsAt r kTasks ++
    sentTo .tasks (emitted (childStep jobId (view jobId r).known) (view jobId r).counter ticks)
  errors : fieldsAt r' kErrors = fieldsAt r kErrors ++
    sentTo .errors (emitted (childStep jobId (view jobId r).known) (view jobId r).counter ticks)
  sets : ∀ p, r'.setAt (childrenKey p) = if p ∈ done then .empty else r.setAt (childrenKey p)

section Script

variable {jobId : String} {r r' : Redis} {done ticks : List String}

theorem Reads.refl (ht : Typed jobId r) : Reads jobId r r [] [] where
  typed := ht
  known := rfl
  counter := rfl
  tasks := (List.append_nil _).symm
  errors := (List.append_nil _).symm
  sets _ := (if_neg List.not_mem_nil).symm

/-- A key of another type reads as the empty set, and so does a set without members. -/
theorem setAt_eq_empty {key : String} (h : ¬ r.IsSet key) : r.setAt key = .empty := by
  rw [Redis.IsSet] at h
  rw [Redis.setAt] at h ⊢
  cases hset : Slot.asSet (r.keys key) with
  | error e => rfl
  | ok s => exact absurd (by rw [hset]; rfl) h

theorem RedisSet.eq_empty {s : RedisSet} (ord : MembersOrder) (h : ord.order s.members = []) :
    s = .empty := by
  obtain ⟨members, hnodup⟩ := s
  have hperm : (ord.order members).Perm members := ord.perm members
  rw [h] at hperm
  obtain rfl := List.nil_perm.mp hperm
  rfl

/-- A parent without children is done as it is. -/
theorem Reads.childless (h : Reads jobId r r' done ticks) {p : String}
    (hempty : r'.setAt (childrenKey p) = .empty) : Reads jobId r r' (p :: done) ticks := by
  refine ⟨h.typed, h.known, h.counter, h.tasks, h.errors, fun q => ?_⟩
  by_cases hq : q = p
  · rw [hq, hempty, if_pos List.mem_cons_self]
  · rw [h.sets q]
    simp only [List.mem_cons, hq, false_or]

/-- **One parent** is a tick for each of its children. -/
theorem Reads.complete (h : Reads jobId r r' done ticks) (ord : MembersOrder) (p : String)
    (hrange : InRange jobId (view jobId r).known (view jobId r).counter
      (ticks ++ ord.order (r'.setAt (childrenKey p)).members)) :
    Reads jobId r (completeTask ord p jobId r').2 (p :: done)
      (ticks ++ ord.order (r'.setAt (childrenKey p)).members) := by
  by_cases hset : r'.IsSet (childrenKey p)
  · have hmembers := smembers_ok ord hset
    by_cases hnil : ord.order (r'.setAt (childrenKey p)).members = []
    · rw [hnil, List.append_nil, completeTask, completeTaskScript, RedisM.bind_ok hmembers,
        if_pos hnil]
      exact h.childless (RedisSet.eq_empty ord hnil)
    · have hloopRange := hrange.right
      rw [← h.counter, ← h.known] at hloopRange
      obtain ⟨n, r₁, hloop, h₁⟩ := decrementChildren_wrote h.typed hloopRange
      rw [h.known, h.counter] at h₁
      rw [completeTask, completeTaskScript, RedisM.bind_ok hmembers, if_neg hnil,
        RedisM.bind_ok hloop, RedisM.bind_ok (delKey_ok _ _)]
      show Reads jobId r (r₁.put (childrenKey p) none) (p :: done) _
      refine ⟨⟨by simpa using h₁.typed.deps, by simpa using h₁.typed.tasks,
        by simpa using h₁.typed.errors⟩, ?_, ?_, ?_, ?_, fun q => ?_⟩
      · rw [view_del_children]
        exact h₁.known.trans h.known
      · rw [view_del_children, after_append]
        exact h₁.counter
      · rw [fieldsAt, Redis.streamAt_put_ne _ _ _ (by simp), emitted_append, sentTo_append,
          ← List.append_assoc, ← h.tasks]
        exact h₁.tasks
      · rw [fieldsAt, Redis.streamAt_put_ne _ _ _ (by simp), emitted_append, sentTo_append,
          ← List.append_assoc, ← h.errors]
        exact h₁.errors
      · by_cases hq : q = p
        · rw [hq, Redis.setAt_put_none, if_pos List.mem_cons_self]
        · rw [Redis.setAt_put_ne _ _ _ (by simpa using hq), h₁.setAt, h.sets q]
          simp only [List.mem_cons, hq, false_or]
  · have hempty := setAt_eq_empty hset
    have hnil : ord.order (r'.setAt (childrenKey p)).members = [] := by
      rw [hempty]
      exact (ord.perm []).eq_nil
    obtain ⟨e, he⟩ := smembers_error ord hset
    rw [hnil, List.append_nil, completeTask, completeTaskScript, RedisM.bind_error he]
    exact h.childless hempty

-- ---------------------------------------------------------------------------
-- A list of parents
-- ---------------------------------------------------------------------------

/-- The ticks of a list of parents: a parent that is done has no children left. -/
def ticksOf (r : Redis) : List String → List (MembersOrder × String) → List String
  | _, [] => []
  | done, (ord, p) :: rest =>
    (if p ∈ done then [] else ord.order (r.setAt (childrenKey p)).members) ++
      ticksOf r (p :: done) rest

/-- **A list of parents** is a tick for each child of each. -/
theorem Reads.completeAll (h : Reads jobId r r' done ticks) {parents : List (MembersOrder × String)}
    (hrange : InRange jobId (view jobId r).known (view jobId r).counter
      (ticks ++ ticksOf r done parents)) :
    ∃ done', Reads jobId r (completeAll jobId parents r') done' (ticks ++ ticksOf r done parents) ∧
      ∀ q, q ∈ done' ↔ q ∈ done ∨ q ∈ parents.map Prod.snd := by
  induction parents generalizing r' done ticks with
  | nil =>
    refine ⟨done, ?_, fun q => by simp⟩
    rw [ticksOf, List.append_nil]
    exact h
  | cons parent parents ih =>
    obtain ⟨ord, p⟩ := parent
    have hchildren : ord.order (r'.setAt (childrenKey p)).members =
        if p ∈ done then [] else ord.order (r.setAt (childrenKey p)).members := by
      rw [h.sets p]
      split
      · exact (ord.perm []).eq_nil
      · rfl
    rw [ticksOf, ← hchildren, ← List.append_assoc] at hrange
    obtain ⟨done', hreads, hdone⟩ := ih (h.complete ord p hrange.left) hrange
    refine ⟨done', ?_, fun q => ?_⟩
    · rw [ticksOf, ← hchildren, ← List.append_assoc]
      exact hreads
    · rw [hdone, List.mem_cons, List.map_cons, List.mem_cons]
      tauto

/-- Which ticks a list of parents makes does not depend on its order or its
repetitions. -/
theorem ticksOf_perm {parents : List (MembersOrder × String)} {distinct : List String}
    (hnodup : distinct.Nodup)
    (hmem : ∀ p, p ∈ distinct ↔ p ∈ parents.map Prod.snd ∧ p ∉ done) :
    (ticksOf r done parents).Perm
      (distinct.flatMap fun p => (r.setAt (childrenKey p)).members) := by
  induction parents generalizing done distinct with
  | nil =>
    have hnil : distinct = [] := by
      refine List.eq_nil_iff_forall_not_mem.mpr fun p hp => ?_
      exact List.not_mem_nil ((hmem p).mp hp).1
    rw [hnil]
    exact .refl _
  | cons parent parents ih =>
    obtain ⟨ord, p⟩ := parent
    rw [ticksOf]
    by_cases hp : p ∈ done
    · rw [if_pos hp, List.nil_append]
      refine ih hnodup fun q => ?_
      rw [hmem, List.map_cons, List.mem_cons, List.mem_cons]
      constructor
      · rintro ⟨hq, hdone⟩
        exact ⟨hq.resolve_left fun heq => hdone (heq ▸ hp), not_or.mpr ⟨fun heq =>
          hdone (heq ▸ hp), hdone⟩⟩
      · rintro ⟨hq, hdone⟩
        exact ⟨.inr hq, fun hmem => hdone (.inr hmem)⟩
    · rw [if_neg hp]
      have hpmem : p ∈ distinct := (hmem p).mpr ⟨List.mem_cons_self, hp⟩
      have hrest : (ticksOf r (p :: done) parents).Perm
          ((distinct.erase p).flatMap fun p => (r.setAt (childrenKey p)).members) :=
        ih (hnodup.erase p) fun q => by
          rw [hnodup.mem_erase_iff, hmem, List.map_cons, List.mem_cons, List.mem_cons]
          tauto
      refine ((ord.perm _).append hrest).trans ?_
      have hcons : ((p :: distinct.erase p).flatMap fun p =>
          (r.setAt (childrenKey p)).members).Perm _ :=
        (List.perm_cons_erase hpmem).symm.flatMap_right _
      exact hcons

end Script

-- ---------------------------------------------------------------------------
-- Order and repetitions
-- ---------------------------------------------------------------------------

section Perm

variable {jobId : String} {r : Redis} {parents parents' : List (MembersOrder × String)}

/-- The parents that have a child. -/
def parentsOf (r : Redis) (parents : Finset String) (c : String) : Finset String :=
  parents.filter fun p => c ∈ (r.setAt (childrenKey p)).members

/-- The counter of no child overflows while it is decremented once for each of its
parents. -/
def NoOverflow (jobId : String) (r : Redis) (parents : Finset String) : Prop :=
  ∀ c, ∀ i < (parentsOf r parents c).card,
    inInt64 (((fun v => (childStep jobId (view jobId r).known c v).1)^[i]
      ((view jobId r).counter c)).getD 0 - 1) = true

/-- A child occurs among the children of a list of parents once for each that has
it. -/
theorem count_flatMap_members (c : String) (distinct : List String) :
    (distinct.flatMap fun p => (r.setAt (childrenKey p)).members).count c =
      distinct.countP fun p => c ∈ (r.setAt (childrenKey p)).members := by
  induction distinct with
  | nil => rfl
  | cons p distinct ih =>
    rw [List.flatMap_cons, List.count_append, ih, List.countP_cons, Nat.add_comm]
    congr 1
    by_cases hc : c ∈ (r.setAt (childrenKey p)).members
    · rw [if_pos (decide_eq_true hc)]
      exact List.count_eq_one_of_mem (r.setAt (childrenKey p)).nodup hc
    · rw [if_neg (by simpa using hc)]
      exact List.count_eq_zero.mpr hc

theorem NoOverflow.inRange {set : Finset String} (h : NoOverflow jobId r set) :
    InRange jobId (view jobId r).known (view jobId r).counter
      (set.toList.flatMap fun p => (r.setAt (childrenKey p)).members) := by
  intro c i hi
  refine h c i ?_
  rw [count_flatMap_members] at hi
  have hcard : (parentsOf r set c).card =
      set.toList.countP fun p => c ∈ (r.setAt (childrenKey p)).members := by
    rw [parentsOf, Finset.card_def, Finset.filter_val, ← Multiset.countP_eq_card_filter,
      ← Finset.coe_toList, Multiset.coe_countP]
  rwa [hcard]

/-- The ticks of a whole list, by the set of its parents. -/
theorem ticksOf_toFinset (r : Redis) (parents : List (MembersOrder × String)) :
    (ticksOf r [] parents).Perm ((parents.map Prod.snd).toFinset.toList.flatMap fun p =>
      (r.setAt (childrenKey p)).members) := by
  refine ticksOf_perm (Finset.nodup_toList _) fun p => ?_
  rw [Finset.mem_toList, List.mem_toFinset]
  exact (and_iff_left List.not_mem_nil).symm

/-- What a list of parents leaves, in terms of the set of them. -/
theorem completeAll_reads (ht : Typed jobId r)
    (hrange : NoOverflow jobId r (parents.map Prod.snd).toFinset) :
    ∃ done, Reads jobId r (completeAll jobId parents r) done (ticksOf r [] parents) ∧
      ∀ q, q ∈ done ↔ q ∈ (parents.map Prod.snd).toFinset := by
  have hticks := hrange.inRange.perm (ticksOf_toFinset r parents).symm
  obtain ⟨done, hreads, hdone⟩ := (Reads.refl ht).completeAll hticks
  refine ⟨done, hreads, fun q => ?_⟩
  rw [hdone, List.mem_toFinset]
  exact or_iff_right List.not_mem_nil

/-- Without a dependency hash nothing is decremented and nothing is deleted. -/
theorem completeAll_noHash (hdeps : ¬ r.IsHash (dependencyHash jobId)) :
    completeAll jobId parents r = r := by
  induction parents with
  | nil => rfl
  | cons parent parents ih =>
    have hone : (completeTask parent.1 parent.2 jobId r).2 = r := by
      rw [completeTask, completeTaskScript]
      by_cases hset : r.IsSet (childrenKey parent.2)
      · rw [RedisM.bind_ok (smembers_ok parent.1 hset)]
        split
        · rfl
        · next hne =>
          obtain ⟨c, rest, hcons⟩ := List.exists_cons_of_ne_nil hne
          have hincr : ∃ e, hincrby (dependencyHash jobId) c (-1) r = (.error e, r) :=
            hincrby_error fun h => hdeps h.1
          obtain ⟨e, he⟩ := hincr
          have hchild : decrementChild (dependencyHash jobId) kTasks kErrors jobId c r =
              (.error e, r) := by
            rw [decrementChild, RedisM.bind_error he]
          have hloop : decrementChildren (dependencyHash jobId) kTasks kErrors jobId (c :: rest) r =
              (.error e, r) := by
            rw [decrementChildren, RedisM.bind_error hchild]
          rw [hcons, RedisM.bind_error hloop]
      · obtain ⟨e, he⟩ := smembers_error parent.1 hset
        rw [RedisM.bind_error he]
    rw [completeAll, List.foldl_cons, hone]
    exact ih

/-- **Completion is order-independent and idempotent.** From any keyspace with two
streams, whatever its counters, metas and children sets, two lists of parents with
the same elements leave the same children sets and counters and have added the same
entries to the two streams, up to their order. -/
theorem completeAll_perm (htasks : r.IsStream kTasks) (herrors : r.IsStream kErrors)
    (hsame : (parents.map Prod.snd).toFinset = (parents'.map Prod.snd).toFinset)
    (hrange : NoOverflow jobId r (parents.map Prod.snd).toFinset) :
    (∀ p, (completeAll jobId parents r).setAt (childrenKey p) =
      (completeAll jobId parents' r).setAt (childrenKey p)) ∧
    (∀ c, ((completeAll jobId parents r).hashAt (dependencyHash jobId)).lookup c =
      ((completeAll jobId parents' r).hashAt (dependencyHash jobId)).lookup c) ∧
    (fieldsAt (completeAll jobId parents r) kTasks).Perm
      (fieldsAt (completeAll jobId parents' r) kTasks) ∧
    (fieldsAt (completeAll jobId parents r) kErrors).Perm
      (fieldsAt (completeAll jobId parents' r) kErrors) := by
  by_cases hdeps : r.IsHash (dependencyHash jobId)
  · have ht : Typed jobId r := ⟨hdeps, htasks, herrors⟩
    obtain ⟨done, hreads, hdone⟩ := completeAll_reads ht hrange
    obtain ⟨done', hreads', hdone'⟩ := completeAll_reads ht (hsame ▸ hrange)
    have hticks : (ticksOf r [] parents).Perm (ticksOf r [] parents') := by
      refine (ticksOf_toFinset r parents).trans ?_
      rw [hsame]
      exact (ticksOf_toFinset r parents').symm
    have hemitted : (emitted (childStep jobId (view jobId r).known) (view jobId r).counter
          (ticksOf r [] parents)).Perm
        (emitted (childStep jobId (view jobId r).known) (view jobId r).counter
          (ticksOf r [] parents')) :=
      emitted_perm hticks
    refine ⟨fun p => ?_, fun c => ?_, ?_, ?_⟩
    · have hiff : p ∈ done ↔ p ∈ done' := by rw [hdone, hdone', hsame]
      rw [hreads.sets, hreads'.sets]
      simp only [hiff]
    · have hcounter : (view jobId (completeAll jobId parents r)).counter =
          (view jobId (completeAll jobId parents' r)).counter := by
        rw [hreads.counter, hreads'.counter, after_perm hticks]
      exact congrFun hcounter c
    · rw [hreads.tasks, hreads'.tasks]
      exact (sentTo_perm .tasks hemitted).append_left _
    · rw [hreads.errors, hreads'.errors]
      exact (sentTo_perm .errors hemitted).append_left _
  · rw [completeAll_noHash hdeps, completeAll_noHash hdeps]
    exact ⟨fun _ => rfl, fun _ => rfl, .refl _, .refl _⟩

end Perm

/-- Two parents with a child in common, and no counters. -/
def sharedChild : Redis :=
  (Redis.empty.put (childrenKey "p") (some ⟨.set ⟨["c", "d"], by decide⟩, none⟩)).put
    (childrenKey "q") (some ⟨.set ⟨["c"], by decide⟩, none⟩)

theorem sharedChild_noOverflow : NoOverflow "j" sharedChild {"p", "q"} := by
  intro c i hi
  have hcard : (parentsOf sharedChild {"p", "q"} c).card ≤ 2 :=
    (Finset.card_filter_le _ _).trans Finset.card_le_two
  have hcounter : (view "j" sharedChild).counter c = none := rfl
  rw [hcounter]
  obtain rfl | rfl : i = 0 ∨ i = 1 := by omega
  · rfl
  · rfl

theorem completeAll_perm_shared :
    (∀ p, (completeAll "j" [(.insertion, "p"), (.insertion, "q")] sharedChild).setAt
        (childrenKey p) =
      (completeAll "j" [(.insertion, "q"), (.insertion, "p"), (.insertion, "q")]
        sharedChild).setAt (childrenKey p)) ∧
    (∀ c, ((completeAll "j" [(.insertion, "p"), (.insertion, "q")] sharedChild).hashAt
        (dependencyHash "j")).lookup c =
      ((completeAll "j" [(.insertion, "q"), (.insertion, "p"), (.insertion, "q")]
        sharedChild).hashAt (dependencyHash "j")).lookup c) ∧
    (fieldsAt (completeAll "j" [(.insertion, "p"), (.insertion, "q")] sharedChild) kTasks).Perm
      (fieldsAt (completeAll "j" [(.insertion, "q"), (.insertion, "p"), (.insertion, "q")]
        sharedChild) kTasks) ∧
    (fieldsAt (completeAll "j" [(.insertion, "p"), (.insertion, "q")] sharedChild) kErrors).Perm
      (fieldsAt (completeAll "j" [(.insertion, "q"), (.insertion, "p"), (.insertion, "q")]
        sharedChild) kErrors) :=
  completeAll_perm (by rfl) (by rfl) (by decide) (by
    have hset : (([(MembersOrder.insertion, "p"), (.insertion, "q")].map Prod.snd).toFinset :
      Finset String) = {"p", "q"} := by decide
    rw [hset]
    exact sharedChild_noOverflow)

end DistTaskSystem
