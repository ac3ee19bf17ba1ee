import DistTaskSystem.Common.RedisKeys
import DistTaskSystem.Library.Countdown

/-!
# DTS — the completion script

`kCompleteTaskScript` notifies the children of a completed task: each child's
counter is decremented, a child that reached zero is pushed to the task
stream, and the children set is deleted at the end, which makes a second run
for the same task return at once.

The script is a refinement of `Countdown.State.complete`: `view` reads the
counters, children sets, metas and streams of one job out of the keyspace, and
`completeTask_effect` shows that a run of the script is one completion of the
countdown. The script has no rollback, so a run that raises an error would
leave half a completion behind; `completeTask_run` says when one does: on keys
of the expected types, with counters inside 64 bits, no command fails.
-/

namespace DistTaskSystem

/-- The entry written when a counter reached zero but the payload is gone. -/
def missingMetaEntry (jobId childId : String) : List (String × String) :=
  [("type", "MISSING_META"), ("job_id", jobId), ("task_id", childId),
    ("reason", "Meta data not found when dependency met")]

/-- `n / d` to the nearest, ties to even. -/
def roundHalfEven (n d : Nat) : Nat :=
  if 2 * (n % d) < d then n / d
  else if d < 2 * (n % d) then n / d + 1
  else n / d + n / d % 2

/-- An integer as a Lua number, which has 53 bits. -/
def luaNumber (n : Nat) : Nat :=
  roundHalfEven n (2 ^ (n.log2 - 52)) * 2 ^ (n.log2 - 52)

/-- `tostring` of an integer reply: `%.14g` prints up to fourteen digits exactly, and
longer numbers rounded to fourteen digits with an exponent. -/
def luaToString (v : Int) : String :=
  let n := luaNumber v.natAbs
  let sign := if v < 0 then "-" else ""
  if n < 10 ^ 14 then sign ++ toString n
  else
    let exponent := (toString n).length - 1
    let rounded := roundHalfEven n (10 ^ (exponent - 13))
    -- rounding up may have made it one digit longer
    let exponent := if rounded = 10 ^ 14 then exponent + 1 else exponent
    let digits := ((toString rounded).toList.reverse.dropWhile (· = '0')).reverse
    let fraction := if digits.length = 1 then [] else '.' :: digits.drop 1
    sign ++ String.ofList (digits.take 1 ++ fraction) ++ "e+" ++ toString exponent

/-- The entry written when a counter fell below zero. -/
def negativeDepsEntry (jobId childId : String) (remain : Int) : List (String × String) :=
  [("type", "NEGATIVE_DEPS"), ("job_id", jobId), ("task_id", childId),
    ("current_val", luaToString remain)]

/-- One iteration of the script's loop; the answer is what it adds to
`triggered_count`. -/
def decrementChild (depsKey tasksKey errorsKey jobId childId : String) : RedisM Nat := do
  let remain ← hincrby depsKey childId (-1)
  if remain = 0 then
    let metaExists ← existsKey ("dts:task:meta:" ++ childId)
    if metaExists then
      let _ ← xadd tasksKey [("task_id", childId), ("job_id", jobId)]
      hdel depsKey childId
      return 1
    else
      let _ ← xadd errorsKey (missingMetaEntry jobId childId)
      return 0
  else if remain < 0 then
    let _ ← xadd errorsKey (negativeDepsEntry jobId childId remain)
    return 0
  else return 0

/-- The script's loop over the enumerated children. -/
def decrementChildren (depsKey tasksKey errorsKey jobId : String) : List String → RedisM Nat
  | [] => return 0
  | childId :: rest => do
    let n ← decrementChild depsKey tasksKey errorsKey jobId childId
    let m ← decrementChildren depsKey tasksKey errorsKey jobId rest
    return n + m

/-- `kCompleteTaskScript`: the four `KEYS` and `ARGV[1]`. -/
def completeTaskScript (ord : MembersOrder)
    (childKey depsKey tasksKey errorsKey jobId : String) : RedisM Nat := do
  let children ← smembers ord childKey
  if children = [] then return 0
  else
    let triggered ← decrementChildren depsKey tasksKey errorsKey jobId children
    delKey childKey
    return triggered

/-- The script with the keys and the argument `UpdateTaskStatus` passes. -/
def completeTask (ord : MembersOrder) (taskId jobId : String) : RedisM Nat :=
  completeTaskScript ord (childrenKey taskId) (dependencyHash jobId) kTasks kErrors jobId

/-! ## The countdown of a job -/

/-- The fault an entry of the error stream reports about a job. -/
def faultOf? (jobId : String) (entry : StreamEntry) : Option (Countdown.Fault String) :=
  match entry.fields with
  | [("type", "MISSING_META"), ("job_id", job), ("task_id", childId), _] =>
    if job = jobId then some (.missing childId) else none
  | [("type", "NEGATIVE_DEPS"), ("job_id", job), ("task_id", childId), _] =>
    if job = jobId then some (.negative childId) else none
  | _ => none

/-- What the keyspace says about the dependencies of a job. -/
def view (jobId : String) (r : Redis) : Countdown.State String where
  children taskId := (r.setAt (childrenKey taskId)).members.toFinset
  counter taskId := (r.hashAt (dependencyHash jobId)).lookup taskId
  known taskId := r.has (taskMeta taskId)
  ready := (r.streamAt kTasks).entries.filterMap StreamEntry.taskId?
  faults := (r.streamAt kErrors).entries.filterMap (faultOf? jobId)

/-- The shared keys of a job hold values of the types the commands expect. -/
structure Typed (jobId : String) (r : Redis) : Prop where
  deps : r.IsHash (dependencyHash jobId)
  tasks : r.IsStream kTasks
  errors : r.IsStream kErrors

@[simp] theorem faultOf?_missingMeta (id : Nat) (jobId childId : String) :
    faultOf? jobId ⟨id, missingMetaEntry jobId childId⟩ = some (.missing childId) := by
  simp [faultOf?, missingMetaEntry]

@[simp] theorem faultOf?_negativeDeps (id : Nat) (jobId childId : String) (remain : Int) :
    faultOf? jobId ⟨id, negativeDepsEntry jobId childId remain⟩ = some (.negative childId) := by
  simp [faultOf?, negativeDepsEntry]


/-! What a write to a key of the job does to its countdown. -/

section View

variable (jobId : String) (r : Redis)

@[simp] theorem view_put_deps (h : RedisHash) (ttl : Option Nat) :
    view jobId (r.put (dependencyHash jobId) (some ⟨.hash h, ttl⟩)) =
      { view jobId r with counter := fun t => h.lookup t } := by
  simp [view]

@[simp] theorem view_put_ofHash (h : RedisHash) (ttl : Option Nat) :
    view jobId (r.put (dependencyHash jobId) (Slot.ofHash h ttl)) =
      { view jobId r with counter := fun t => h.lookup t } := by
  simp [view]

@[simp] theorem view_put_tasks (s : Stream) (ttl : Option Nat) :
    view jobId (r.put kTasks (some ⟨.stream s, ttl⟩)) =
      { view jobId r with ready := s.entries.filterMap StreamEntry.taskId? } := by
  simp [view]

@[simp] theorem view_put_errors (s : Stream) (ttl : Option Nat) :
    view jobId (r.put kErrors (some ⟨.stream s, ttl⟩)) =
      { view jobId r with faults := s.entries.filterMap (faultOf? jobId) } := by
  simp [view]

@[simp] theorem view_put_meta (taskId : String) (slot : Option Slot) :
    view jobId (r.put (taskMeta taskId) slot) =
      { view jobId r with
        known := Function.update (view jobId r).known taskId slot.isSome } := by
  have hknown : (fun t => (r.put (taskMeta taskId) slot).has (taskMeta t)) =
      Function.update (fun t => r.has (taskMeta t)) taskId slot.isSome := by
    funext t
    by_cases htask : t = taskId
    · subst htask
      simp [Redis.has]
    · simp [htask]
  simp [view, hknown]

@[simp] theorem view_put_children (taskId : String) (s : RedisSet) (ttl : Option Nat) :
    view jobId (r.put (childrenKey taskId) (some ⟨.set s, ttl⟩)) =
      { view jobId r with
        children := Function.update (view jobId r).children taskId s.members.toFinset } := by
  have hchildren :
      (fun t => ((r.put (childrenKey taskId) (some ⟨.set s, ttl⟩)).setAt
        (childrenKey t)).members.toFinset) =
      Function.update (fun t => (r.setAt (childrenKey t)).members.toFinset) taskId
        s.members.toFinset := by
    funext t
    by_cases htask : t = taskId
    · subst htask
      simp
    · simp [htask]
  simp [view, hchildren]

@[simp] theorem view_del_children (taskId : String) :
    view jobId (r.put (childrenKey taskId) none) =
      { view jobId r with children := Function.update (view jobId r).children taskId ∅ } := by
  have hchildren :
      (fun t => ((r.put (childrenKey taskId) none).setAt (childrenKey t)).members.toFinset) =
      Function.update (fun t => (r.setAt (childrenKey t)).members.toFinset) taskId ∅ := by
    funext t
    by_cases htask : t = taskId
    · subst htask
      simp [RedisSet.empty]
    · simp [htask]
  simp [view, hchildren]

end View

/-! ## One child -/

/-- What a script run may do outside the counters of its job: the two streams
only grow, every new error entry is a fault of the job, and `touched` are the
other keys it writes. -/
structure ScriptFrame (jobId : String) (touched : List String) (r r' : Redis) : Prop where
  other : ∀ k ∉ touched, k ≠ dependencyHash jobId → k ≠ kTasks → k ≠ kErrors →
    r'.keys k = r.keys k
  tasks : ∃ new, (r'.streamAt kTasks).entries = (r.streamAt kTasks).entries ++ new
  errors : ∃ new, (r'.streamAt kErrors).entries = (r.streamAt kErrors).entries ++ new ∧
    ∀ entry ∈ new, (faultOf? jobId entry).isSome
  now : r'.now = r.now

namespace ScriptFrame

variable {jobId : String} {touched : List String} {r r' r'' : Redis}

theorem refl (r : Redis) : ScriptFrame jobId touched r r :=
  ⟨fun _ _ _ _ _ => rfl, ⟨[], by simp⟩, ⟨[], by simp⟩, rfl⟩

theorem trans (h : ScriptFrame jobId touched r r') (h' : ScriptFrame jobId touched r' r'') :
    ScriptFrame jobId touched r r'' := by
  obtain ⟨tasks, htasks⟩ := h.tasks
  obtain ⟨tasks', htasks'⟩ := h'.tasks
  obtain ⟨errors, herrors, hfault⟩ := h.errors
  obtain ⟨errors', herrors', hfault'⟩ := h'.errors
  refine ⟨fun k hk hd ht he => ?_, ⟨tasks ++ tasks', ?_⟩, ⟨errors ++ errors', ?_, ?_⟩, ?_⟩
  · rw [h'.other k hk hd ht he, h.other k hk hd ht he]
  · rw [htasks', htasks, List.append_assoc]
  · rw [herrors', herrors, List.append_assoc]
  · intro entry hentry
    exact (List.mem_append.mp hentry).elim (hfault entry) (hfault' entry)
  · rw [h'.now, h.now]

theorem mono {touched' : List String} (h : ScriptFrame jobId touched r r')
    (hsub : touched ⊆ touched') : ScriptFrame jobId touched' r r' :=
  ⟨fun k hk => h.other k fun hk' => hk (hsub hk'), h.tasks, h.errors, h.now⟩

/-- A run that reports no fault leaves the error stream's entries alone. -/
theorem errors_unchanged (h : ScriptFrame jobId touched r r')
    (hfaults : (view jobId r').faults = (view jobId r).faults) :
    (r'.streamAt kErrors).entries = (r.streamAt kErrors).entries := by
  obtain ⟨new, hnew, hall⟩ := h.errors
  have hnone : new.filterMap (faultOf? jobId) = [] := by
    have := hfaults
    simp only [view, hnew, List.filterMap_append] at this
    exact List.append_right_eq_self.mp this
  cases new with
  | nil => rw [hnew, List.append_nil]
  | cons entry rest =>
    obtain ⟨fault, hfault⟩ := Option.isSome_iff_exists.mp (hall entry List.mem_cons_self)
    simp [hfault] at hnone

end ScriptFrame

/-- The shared keys of a job keep the types of their values. -/
structure SameTypes (jobId : String) (r r' : Redis) : Prop where
  deps : r'.IsHash (dependencyHash jobId) ↔ r.IsHash (dependencyHash jobId)
  tasks : r'.IsStream kTasks ↔ r.IsStream kTasks
  errors : r'.IsStream kErrors ↔ r.IsStream kErrors

theorem SameTypes.refl (jobId : String) (r : Redis) : SameTypes jobId r r :=
  ⟨Iff.rfl, Iff.rfl, Iff.rfl⟩

theorem SameTypes.trans {jobId : String} {r r' r'' : Redis} (h : SameTypes jobId r r')
    (h' : SameTypes jobId r' r'') : SameTypes jobId r r'' :=
  ⟨h'.deps.trans h.deps, h'.tasks.trans h.tasks, h'.errors.trans h.errors⟩

/-- The outcome of a command on the keys of a job: the countdown it leaves,
with the types and the frame kept. -/
structure Effect (jobId : String) (touched : List String) (r r' : Redis)
    (s : Countdown.State String) : Prop where
  view : view jobId r' = s
  types : SameTypes jobId r r'
  frame : ScriptFrame jobId touched r r'

theorem Effect.typed {jobId : String} {touched : List String} {r r' : Redis}
    {s : Countdown.State String} (h : Effect jobId touched r r' s) (ht : Typed jobId r) :
    Typed jobId r' :=
  ⟨h.types.deps.mpr ht.deps, h.types.tasks.mpr ht.tasks, h.types.errors.mpr ht.errors⟩

section Commands

variable {jobId : String} {r : Redis}

theorem hset_effect (h : r.IsHash (dependencyHash jobId)) (field : String) (value : Int) :
    ∃ r', hset (dependencyHash jobId) field value r = (.ok (), r') ∧
      Effect jobId [] r r' { view jobId r with
        counter := Function.update (view jobId r).counter field (some value) } := by
  refine ⟨_, hset_ok h field value, ?_, ⟨?_, ?_, ?_⟩, ⟨?_, ⟨[], ?_⟩, ⟨[], ?_⟩, rfl⟩⟩
  · rw [view_put_deps, RedisHash.lookup_insert]
    rfl
  · simpa using h
  · simp
  · simp
  · exact fun k _ hk _ _ => Redis.keys_put_ne _ _ _ hk
  · simp
  · simp

theorem hincrby_effect (h : r.IsHash (dependencyHash jobId)) {childId : String}
    (hc : inInt64 ((view jobId r).left childId) = true) :
    ∃ r', hincrby (dependencyHash jobId) childId (-1) r =
        (.ok ((view jobId r).left childId), r') ∧
      Effect jobId [] r r' { view jobId r with
        counter := Function.update (view jobId r).counter childId
          (some ((view jobId r).left childId)) } := by
  -- HINCRBY stores what HSET would have stored
  obtain ⟨r', hr', heffect⟩ := hset_effect h childId ((view jobId r).left childId)
  refine ⟨r', ?_, heffect⟩
  rw [hset_ok h, Prod.mk.injEq] at hr'
  rw [← hr'.2]
  exact hincrby_ok h hc

theorem hdel_effect (h : r.IsHash (dependencyHash jobId)) (field : String) :
    ∃ r', hdel (dependencyHash jobId) field r = (.ok (), r') ∧
      Effect jobId [] r r' { view jobId r with
        counter := Function.update (view jobId r).counter field none } := by
  refine ⟨_, hdel_ok h field, ?_, ⟨?_, ?_, ?_⟩, ⟨?_, ⟨[], ?_⟩, ⟨[], ?_⟩, rfl⟩⟩
  · rw [view_put_ofHash, RedisHash.lookup_erase]
    rfl
  · simpa using h
  · rw [Slot.ofHash]
    split <;> simp
  · rw [Slot.ofHash]
    split <;> simp
  · exact fun k _ hk _ _ => Redis.keys_put_ne _ _ _ hk
  · simp
  · simp

theorem xadd_tasks_effect (jobId : String) (h : r.IsStream kTasks) {taskId : String}
    {fields : List (String × String)} (hf : ∀ id, StreamEntry.taskId? ⟨id, fields⟩ = some taskId) :
    ∃ id r', xadd kTasks fields r = (.ok id, r') ∧
      Effect jobId [] r r' { view jobId r with ready := (view jobId r).ready ++ [taskId] } := by
  refine ⟨_, _, xadd_ok h fields, ?_, ⟨?_, ?_, ?_⟩, ⟨?_, ?_, ⟨[], ?_⟩, rfl⟩⟩
  · rw [view_put_tasks]
    simp [Stream.add, hf, view]
  · simp
  · simpa using h
  · simp
  · exact fun k _ _ hk _ => Redis.keys_put_ne _ _ _ hk
  · exact ⟨_, by rw [Redis.streamAt_put_stream]; rfl⟩
  · simp

theorem xadd_errors_effect (h : r.IsStream kErrors) {fault : Countdown.Fault String}
    {fields : List (String × String)} (hf : ∀ id, faultOf? jobId ⟨id, fields⟩ = some fault) :
    ∃ id r', xadd kErrors fields r = (.ok id, r') ∧
      Effect jobId [] r r' { view jobId r with faults := (view jobId r).faults ++ [fault] } := by
  refine ⟨_, _, xadd_ok h fields, ?_, ⟨?_, ?_, ?_⟩, ⟨?_, ⟨[], ?_⟩, ?_, rfl⟩⟩
  · rw [view_put_errors]
    simp [Stream.add, hf, view]
  · simp
  · simp
  · simpa using h
  · exact fun k _ _ _ hk => Redis.keys_put_ne _ _ _ hk
  · simp
  · refine ⟨_, by rw [Redis.streamAt_put_stream]; rfl, fun entry hentry => ?_⟩
    rw [List.mem_singleton.mp hentry, hf, Option.isSome_some]

end Commands

/-! ## The loop -/

/-- What a child adds to `triggered_count`. -/
def triggered (s : Countdown.State String) (childId : String) : Nat :=
  if s.fires childId then 1 else 0

/-- The commands the script sends for a child answer no error. -/
structure ChildFits (jobId childId : String) (r : Redis) : Prop where
  deps : r.IsHash (dependencyHash jobId)
  inRange : inInt64 ((view jobId r).left childId) = true
  tasks : (view jobId r).fires childId = true → r.IsStream kTasks
  errors : ((view jobId r).faultOf childId).isSome = true → r.IsStream kErrors

theorem Typed.childFits {jobId childId : String} {r : Redis} (ht : Typed jobId r)
    (hc : inInt64 ((view jobId r).left childId) = true) : ChildFits jobId childId r :=
  ⟨ht.deps, hc, fun _ => ht.tasks, fun _ => ht.errors⟩

section Child

variable {jobId childId : String} {r : Redis}

/-- One iteration of the loop is one decrement of the countdown. -/
theorem decrementChild_effect (h : ChildFits jobId childId r) :
    ∃ r', decrementChild (dependencyHash jobId) kTasks kErrors jobId childId r =
        (.ok (triggered (view jobId r) childId), r') ∧
      Effect jobId [] r r' ((view jobId r).decrement childId) := by
  obtain ⟨r₁, hincr, h₁⟩ := hincrby_effect h.deps h.inRange
  have hknown : r₁.has (taskMeta childId) = (view jobId r).known childId :=
    congrFun (congrArg Countdown.State.known h₁.view) childId
  have hexists : existsKey ("dts:task:meta:" ++ childId) r₁ =
      (.ok ((view jobId r).known childId), r₁) := by
    rw [← hknown]
    exact existsKey_ok r₁ (taskMeta childId)
  by_cases hzero : (view jobId r).left childId = 0
  · by_cases hmeta : (view jobId r).known childId = true
    · -- the child is pushed and its counter removed
      have hfires : (view jobId r).fires childId = true := by
        simp [Countdown.State.fires, hzero, hmeta]
      have hfault : (view jobId r).faultOf childId = none := by
        simp [Countdown.State.faultOf, hzero, hmeta]
      obtain ⟨id, r₂, hpush, h₂⟩ := xadd_tasks_effect jobId
        (h₁.types.tasks.mpr (h.tasks hfires)) fun id => taskId?_script id childId jobId
      obtain ⟨r₃, hdel, h₃⟩ := hdel_effect (h₂.types.deps.mpr (h₁.types.deps.mpr h.deps)) childId
      refine ⟨r₃, ?_, ?_, (h₁.types.trans h₂.types).trans h₃.types,
        (h₁.frame.trans h₂.frame).trans h₃.frame⟩
      · rw [decrementChild, RedisM.bind_ok hincr, if_pos hzero, RedisM.bind_ok hexists,
          if_pos hmeta, RedisM.bind_ok hpush, RedisM.bind_ok hdel]
        simp [triggered, hfires]
      · rw [h₃.view, h₂.view, h₁.view]
        simp [Countdown.State.decrement, hfires, hfault]
    · -- the counter stays at zero and the missing payload is reported
      have hfires : (view jobId r).fires childId = false := by
        simp [Countdown.State.fires, hmeta]
      have hfault : (view jobId r).faultOf childId = some (.missing childId) := by
        simp [Countdown.State.faultOf, hzero, hmeta]
      obtain ⟨id, r₂, hreport, h₂⟩ := xadd_errors_effect
        (h₁.types.errors.mpr (h.errors (by rw [hfault]; rfl)))
        fun id => faultOf?_missingMeta id jobId childId
      refine ⟨r₂, ?_, ?_, h₁.types.trans h₂.types, h₁.frame.trans h₂.frame⟩
      · rw [decrementChild, RedisM.bind_ok hincr, if_pos hzero, RedisM.bind_ok hexists,
          if_neg hmeta, RedisM.bind_ok hreport]
        simp [triggered, hfires]
      · rw [h₂.view, h₁.view]
        simp [Countdown.State.decrement, hfires, hfault]
  · have hfires : (view jobId r).fires childId = false := by
      simp [Countdown.State.fires, hzero]
    by_cases hneg : (view jobId r).left childId < 0
    · have hfault : (view jobId r).faultOf childId = some (.negative childId) := by
        simp [Countdown.State.faultOf, hzero, hneg]
      obtain ⟨id, r₂, hreport, h₂⟩ := xadd_errors_effect
        (h₁.types.errors.mpr (h.errors (by rw [hfault]; rfl)))
        fun id => faultOf?_negativeDeps id jobId childId ((view jobId r).left childId)
      refine ⟨r₂, ?_, ?_, h₁.types.trans h₂.types, h₁.frame.trans h₂.frame⟩
      · rw [decrementChild, RedisM.bind_ok hincr, if_neg hzero, if_pos hneg,
          RedisM.bind_ok hreport]
        simp [triggered, hfires]
      · rw [h₂.view, h₁.view]
        simp [Countdown.State.decrement, hfires, hfault]
    · have hfault : (view jobId r).faultOf childId = none := by
        simp [Countdown.State.faultOf, hzero, hneg]
      refine ⟨r₁, ?_, ?_, h₁.types, h₁.frame⟩
      · rw [decrementChild, RedisM.bind_ok hincr, if_neg hzero, if_neg hneg]
        simp [triggered, hfires]
      · rw [h₁.view]
        simp [Countdown.State.decrement, hfires, hfault]

/-- An iteration that meets a command it cannot run stops there, and has pushed
nothing. -/
theorem decrementChild_error (h : ¬ ChildFits jobId childId r) :
    ∃ e r', decrementChild (dependencyHash jobId) kTasks kErrors jobId childId r =
        (.error e, r') ∧ (view jobId r').ready = (view jobId r).ready := by
  by_cases hhash : r.IsHash (dependencyHash jobId) ∧
      inInt64 ((view jobId r).left childId) = true
  · obtain ⟨hdeps, hrange⟩ := hhash
    obtain ⟨r₁, hincr, h₁⟩ := hincrby_effect hdeps hrange
    have hready : (view jobId r₁).ready = (view jobId r).ready := by rw [h₁.view]
    have hknown : r₁.has (taskMeta childId) = (view jobId r).known childId :=
      congrFun (congrArg Countdown.State.known h₁.view) childId
    have hexists : existsKey ("dts:task:meta:" ++ childId) r₁ =
        (.ok ((view jobId r).known childId), r₁) := by
      rw [← hknown]
      exact existsKey_ok r₁ (taskMeta childId)
    by_cases hzero : (view jobId r).left childId = 0
    · by_cases hmeta : (view jobId r).known childId = true
      · have htasks : ¬ r₁.IsStream kTasks := fun hstream =>
          h ⟨hdeps, hrange, fun _ => h₁.types.tasks.mp hstream, fun hfault => by
            simp [Countdown.State.faultOf, hzero, hmeta] at hfault⟩
        obtain ⟨e, he⟩ := xadd_error htasks [("task_id", childId), ("job_id", jobId)]
        refine ⟨e, r₁, ?_, hready⟩
        rw [decrementChild, RedisM.bind_ok hincr, if_pos hzero, RedisM.bind_ok hexists,
          if_pos hmeta, RedisM.bind_error he]
      · have herrors : ¬ r₁.IsStream kErrors := fun hstream =>
          h ⟨hdeps, hrange, fun hfires => by simp [Countdown.State.fires, hmeta] at hfires,
            fun _ => h₁.types.errors.mp hstream⟩
        obtain ⟨e, he⟩ := xadd_error herrors (missingMetaEntry jobId childId)
        refine ⟨e, r₁, ?_, hready⟩
        rw [decrementChild, RedisM.bind_ok hincr, if_pos hzero, RedisM.bind_ok hexists,
          if_neg hmeta, RedisM.bind_error he]
    · have herrors : ¬ r₁.IsStream kErrors := fun hstream =>
        h ⟨hdeps, hrange, fun hfires => by simp [Countdown.State.fires, hzero] at hfires,
          fun _ => h₁.types.errors.mp hstream⟩
      have hneg : (view jobId r).left childId < 0 := by
        by_contra hneg
        exact h ⟨hdeps, hrange, fun hfires => by simp [Countdown.State.fires, hzero] at hfires,
          fun hfault => by simp [Countdown.State.faultOf, hzero, hneg] at hfault⟩
      obtain ⟨e, he⟩ := xadd_error herrors
        (negativeDepsEntry jobId childId ((view jobId r).left childId))
      refine ⟨e, r₁, ?_, hready⟩
      rw [decrementChild, RedisM.bind_ok hincr, if_neg hzero, if_pos hneg, RedisM.bind_error he]
  · -- HINCRBY is refused
    obtain ⟨e, he⟩ := hincrby_error hhash
    refine ⟨e, r, ?_, rfl⟩
    rw [decrementChild, RedisM.bind_error he]

/-- The iteration for one child does not change what another child finds. -/
theorem childFits_decrement {c d : String} {r' : Redis}
    (h : Effect jobId [] r r' ((view jobId r).decrement c)) (hdc : d ≠ c) :
    ChildFits jobId d r' ↔ ChildFits jobId d r := by
  have hleft : (view jobId r').left d = (view jobId r).left d := by
    rw [h.view, Countdown.State.decrement_left_ne hdc]
  have hfires : (view jobId r').fires d = (view jobId r).fires d := by
    rw [h.view, Countdown.State.decrement_fires_ne hdc]
  have hfault : (view jobId r').faultOf d = (view jobId r).faultOf d := by
    rw [h.view, Countdown.State.decrement_faultOf_ne hdc]
  constructor
  · rintro ⟨hdeps, hrange, htasks, herrors⟩
    rw [hleft] at hrange
    rw [hfires] at htasks
    rw [hfault] at herrors
    exact ⟨h.types.deps.mp hdeps, hrange, fun hf => h.types.tasks.mp (htasks hf),
      fun hf => h.types.errors.mp (herrors hf)⟩
  · rintro ⟨hdeps, hrange, htasks, herrors⟩
    rw [← hleft] at hrange
    rw [← hfires] at htasks
    rw [← hfault] at herrors
    exact ⟨h.types.deps.mpr hdeps, hrange, fun hf => h.types.tasks.mpr (htasks hf),
      fun hf => h.types.errors.mpr (herrors hf)⟩

/-- The loop over distinct children is one decrement for each. -/
theorem decrementChildren_effect {children : List String} (hnodup : children.Nodup)
    (hfits : ∀ c ∈ children, ChildFits jobId c r) :
    ∃ r', decrementChildren (dependencyHash jobId) kTasks kErrors jobId children r =
        (.ok (children.countP (view jobId r).fires), r') ∧
      Effect jobId [] r r' ((view jobId r).decrementAll children) := by
  induction children generalizing r with
  | nil => exact ⟨r, rfl, rfl, .refl jobId r, .refl r⟩
  | cons c rest ih =>
    rw [List.nodup_cons] at hnodup
    obtain ⟨r₁, hchild, h₁⟩ := decrementChild_effect (hfits c List.mem_cons_self)
    have hne : ∀ d ∈ rest, d ≠ c := fun d hd hdc => hnodup.1 (hdc ▸ hd)
    obtain ⟨r₂, hloop, h₂⟩ := ih hnodup.2 fun d hd =>
      (childFits_decrement h₁ (hne d hd)).mpr (hfits d (List.mem_cons_of_mem c hd))
    have hcount : rest.countP (view jobId r₁).fires = rest.countP (view jobId r).fires :=
      List.countP_congr fun d hd => by
        rw [h₁.view, Countdown.State.decrement_fires_ne (hne d hd)]
    refine ⟨r₂, ?_, ?_, h₁.types.trans h₂.types, h₁.frame.trans h₂.frame⟩
    · rw [decrementChildren, RedisM.bind_ok hchild, RedisM.bind_ok hloop, hcount,
        List.countP_cons, Nat.add_comm]
      rfl
    · rw [h₂.view, h₁.view]
      rfl

private theorem takeWhile_congr {α : Type} {p q : α → Bool} {l : List α}
    (h : ∀ x ∈ l, p x = q x) : l.takeWhile p = l.takeWhile q := by
  induction l with
  | nil => rfl
  | cons x l ih =>
    rw [List.forall_mem_cons] at h
    rw [List.takeWhile_cons, List.takeWhile_cons, h.1, ih h.2]

open scoped Classical in
/-- On any keyspace the loop runs up to the first child that does not fit, and
pushes the children before it that fire. -/
theorem decrementChildren_run (jobId : String) (r : Redis) {children : List String}
    (hnodup : children.Nodup) :
    ((∃ n, (decrementChildren (dependencyHash jobId) kTasks kErrors jobId children r).1 = .ok n) ↔
      ∀ c ∈ children, ChildFits jobId c r) ∧
    (view jobId
        (decrementChildren (dependencyHash jobId) kTasks kErrors jobId children r).2).ready =
      (view jobId r).ready ++
        (children.takeWhile fun c => ChildFits jobId c r).filter (view jobId r).fires := by
  induction children generalizing r with
  | nil => simp [decrementChildren]
  | cons c rest ih =>
    rw [List.nodup_cons] at hnodup
    have hne : ∀ d ∈ rest, d ≠ c := fun d hd hdc => hnodup.1 (hdc ▸ hd)
    by_cases hc : ChildFits jobId c r
    · obtain ⟨r₁, hchild, h₁⟩ := decrementChild_effect hc
      obtain ⟨hok, hready⟩ := ih r₁ hnodup.2
      have hrest : (∀ d ∈ rest, ChildFits jobId d r₁) ↔ ∀ d ∈ rest, ChildFits jobId d r :=
        forall₂_congr fun d hd => childFits_decrement h₁ (hne d hd)
      have htake : rest.takeWhile (fun d => ChildFits jobId d r₁) =
          rest.takeWhile fun d => ChildFits jobId d r :=
        takeWhile_congr fun d hd => decide_eq_decide.mpr (childFits_decrement h₁ (hne d hd))
      have hfilter : (rest.takeWhile fun d => ChildFits jobId d r).filter (view jobId r₁).fires =
          (rest.takeWhile fun d => ChildFits jobId d r).filter (view jobId r).fires :=
        List.filter_congr fun d hd => by
          rw [h₁.view, Countdown.State.decrement_fires_ne
            (hne d (List.takeWhile_subset _ hd))]
      rw [htake, hfilter, h₁.view] at hready
      rw [hrest] at hok
      have hloop : decrementChildren (dependencyHash jobId) kTasks kErrors jobId (c :: rest) r =
          ((decrementChildren (dependencyHash jobId) kTasks kErrors jobId rest r₁).1.map
              (triggered (view jobId r) c + ·),
            (decrementChildren (dependencyHash jobId) kTasks kErrors jobId rest r₁).2) := by
        rw [decrementChildren, RedisM.bind_ok hchild]
        cases hrun : decrementChildren (dependencyHash jobId) kTasks kErrors jobId rest r₁ with
        | mk answer r₂ =>
          cases answer with
          | ok n =>
            rw [RedisM.bind_ok hrun]
            rfl
          | error e =>
            rw [RedisM.bind_error hrun]
            rfl
      rw [hloop]
      constructor
      · rw [List.forall_mem_cons, ← hok]
        cases (decrementChildren (dependencyHash jobId) kTasks kErrors jobId rest r₁).1 <;>
          simp [hc, Except.map]
      · rw [hready, List.takeWhile_cons, if_pos (decide_eq_true hc), List.filter_cons]
        cases hfires : (view jobId r).fires c <;>
          simp [Countdown.State.decrement, hfires]
    · -- the error of this child ends the loop
      obtain ⟨e, r₁, hchild, hready⟩ := decrementChild_error hc
      rw [decrementChildren, RedisM.bind_error hchild]
      simp [hc, hready]

end Child

/-! ## The whole script -/

section Script

variable {jobId taskId : String} {r : Redis}

/-- **A script run is one completion of the countdown.** It answers with the
number of children it pushed. -/
theorem completeTask_effect (ord : MembersOrder) (hset : r.IsSet (childrenKey taskId))
    (hfits : ∀ c ∈ (view jobId r).children taskId, ChildFits jobId c r) :
    ∃ r', completeTask ord taskId jobId r =
        (.ok ((ord.order (r.setAt (childrenKey taskId)).members).countP (view jobId r).fires),
          r') ∧
      Effect jobId [childrenKey taskId] r r'
        ((view jobId r).complete taskId (ord.order (r.setAt (childrenKey taskId)).members)) ∧
      r'.IsSet (childrenKey taskId) := by
  set children := ord.order (r.setAt (childrenKey taskId)).members with hchildren
  have hperm : children.Perm (r.setAt (childrenKey taskId)).members := ord.perm _
  have hmembers : smembers ord (childrenKey taskId) r = (.ok children, r) := smembers_ok ord hset
  have hin : ∀ c ∈ children, ChildFits jobId c r := fun c hmem =>
    hfits c (List.mem_toFinset.mpr (hperm.mem_iff.mp hmem))
  have hnodup : children.Nodup := hperm.nodup_iff.mpr (r.setAt (childrenKey taskId)).nodup
  by_cases hnil : children = []
  · -- nothing to notify: the script returns before the DEL, on a free key
    refine ⟨r, ?_, ⟨?_, .refl jobId r, .refl r⟩, hset⟩
    · rw [completeTask, completeTaskScript, RedisM.bind_ok hmembers, if_pos hnil, hnil]
      rfl
    · have hnone : (r.setAt (childrenKey taskId)).members = [] := by
        rw [hnil] at hperm
        exact List.nil_perm.mp hperm
      have hempty : (view jobId r).children taskId = ∅ := by
        show (r.setAt (childrenKey taskId)).members.toFinset = ∅
        rw [hnone]
        rfl
      rw [hnil, Countdown.State.complete, Countdown.State.decrementAll_nil, ← hempty,
        Function.update_eq_self]
  · obtain ⟨r₁, hloop, h₁⟩ := decrementChildren_effect hnodup hin
    refine ⟨r₁.put (childrenKey taskId) none, ?_,
      ⟨?_, h₁.types.trans ⟨?_, ?_, ?_⟩, ?_⟩, by simp⟩
    · rw [completeTask, completeTaskScript, RedisM.bind_ok hmembers, if_neg hnil,
        RedisM.bind_ok hloop, RedisM.bind_ok (delKey_ok _ _)]
      rfl
    · rw [view_del_children, h₁.view]
      simp [Countdown.State.complete]
    · simp
    · simp
    · simp
    · refine (h₁.frame.mono (List.nil_subset _)).trans ⟨?_, ⟨[], ?_⟩, ⟨[], ?_⟩, rfl⟩
      · exact fun k hk _ _ _ => Redis.keys_put_ne _ _ _ fun hkey => hk (by simp [hkey])
      · simp
      · simp

/-- The keys the script of a task uses hold values of the types it expects, so
that it runs to its end. -/
structure ScriptFits (taskId jobId : String) (r : Redis) : Prop where
  children : r.IsSet (childrenKey taskId)
  child : ∀ c ∈ (r.setAt (childrenKey taskId)).members, ChildFits jobId c r

open scoped Classical in
/-- The children a script run pushes, in order: those that fire before one that
does not fit stops the loop. -/
noncomputable def scriptPushes (ord : MembersOrder) (taskId jobId : String) (r : Redis) :
    List String :=
  if r.IsSet (childrenKey taskId) then
    ((ord.order (r.setAt (childrenKey taskId)).members).takeWhile fun c =>
      ChildFits jobId c r).filter (view jobId r).fires
  else []

/-- **A script run on any keyspace** answers unless a key has another type or a
counter leaves its range, and what it pushes is known in either case. -/
theorem completeTask_run (ord : MembersOrder) (taskId jobId : String) (r : Redis) :
    ((∃ n, (completeTask ord taskId jobId r).1 = .ok n) ↔ ScriptFits taskId jobId r) ∧
      (view jobId (completeTask ord taskId jobId r).2).ready =
        (view jobId r).ready ++ scriptPushes ord taskId jobId r := by
  by_cases hset : r.IsSet (childrenKey taskId)
  · set children := ord.order (r.setAt (childrenKey taskId)).members with hchildren
    have hperm : children.Perm (r.setAt (childrenKey taskId)).members := ord.perm _
    have hmembers : smembers ord (childrenKey taskId) r = (.ok children, r) := smembers_ok ord hset
    have hnodup : children.Nodup := hperm.nodup_iff.mpr (r.setAt (childrenKey taskId)).nodup
    have hfits : (∀ c ∈ children, ChildFits jobId c r) ↔ ScriptFits taskId jobId r :=
      ⟨fun h => ⟨hset, fun c hc => h c (hperm.mem_iff.mpr hc)⟩,
        fun h c hc => h.child c (hperm.mem_iff.mp hc)⟩
    rw [scriptPushes, if_pos hset, ← hchildren, ← hfits]
    by_cases hnil : children = []
    · rw [completeTask, completeTaskScript, RedisM.bind_ok hmembers, if_pos hnil]
      simp [hnil]
    · obtain ⟨hok, hready⟩ := decrementChildren_run jobId r hnodup
      rw [← hok, ← hready]
      rw [completeTask, completeTaskScript, RedisM.bind_ok hmembers, if_neg hnil]
      cases hrun : decrementChildren (dependencyHash jobId) kTasks kErrors jobId children r with
      | mk answer r₁ =>
        cases answer with
        | ok n =>
          rw [RedisM.bind_ok hrun, RedisM.bind_ok (delKey_ok r₁ _), RedisM.pure_apply,
            view_del_children]
          simp
        | error e =>
          rw [RedisM.bind_error hrun]
          simp
  · obtain ⟨e, he⟩ := smembers_error ord hset
    rw [completeTask, completeTaskScript, RedisM.bind_error he, scriptPushes, if_neg hset]
    refine ⟨⟨fun hok => ?_, fun hfits => absurd hfits.children hset⟩, by simp⟩
    obtain ⟨n, hn⟩ := hok
    exact nomatch hn

end Script

/-! ## Runs that may fail -/

section Unseen

open TwoRuns

variable {R : Redis → Redis → Prop} {depsKey tasksKey errorsKey : String}

theorem unseen_existsKey (k : String) : Unseen R (existsKey k) := by
  intro r q h
  rwa [existsKey_ok]

/-- What does not see the commands of the loop does not see an iteration, wherever
it stops. -/
theorem unseen_decrementChild
    (h : ∀ key ∈ [depsKey, tasksKey, errorsKey], ∀ (α : Type) f, Unseen R (@onKey α key f))
    (jobId childId : String) :
    Unseen R (decrementChild depsKey tasksKey errorsKey jobId childId) := by
  have hdeps : ∀ (α : Type) f, Unseen R (@onKey α depsKey f) := h _ (by simp)
  have htasks : ∀ (α : Type) f, Unseen R (@onKey α tasksKey f) := h _ (by simp)
  have herrors : ∀ (α : Type) f, Unseen R (@onKey α errorsKey f) := h _ (by simp)
  unfold decrementChild
  refine unseen_bind (hdeps _ _) fun remain => ?_
  split
  · refine unseen_bind (unseen_existsKey _) fun metaExists => ?_
    split
    · refine unseen_bind (htasks _ _) fun _ => ?_
      exact unseen_bind (hdeps _ _) fun _ => unseen_pure 1
    · exact unseen_bind (herrors _ _) fun _ => unseen_pure 0
  · split
    · exact unseen_bind (herrors _ _) fun _ => unseen_pure 0
    · exact unseen_pure 0

theorem unseen_decrementChildren
    (h : ∀ key ∈ [depsKey, tasksKey, errorsKey], ∀ (α : Type) f, Unseen R (@onKey α key f))
    (jobId : String) (children : List String) :
    Unseen R (decrementChildren depsKey tasksKey errorsKey jobId children) := by
  induction children with
  | nil => exact unseen_pure 0
  | cons c rest ih =>
    unfold decrementChildren
    refine unseen_bind (unseen_decrementChild h jobId c) fun n => ?_
    exact unseen_bind ih fun m => unseen_pure (n + m)

theorem unseen_completeTask {taskId jobId : String}
    (h : ∀ key ∈ [childrenKey taskId, dependencyHash jobId, kTasks, kErrors], ∀ (α : Type) f,
      Unseen R (@onKey α key f)) (ord : MembersOrder) :
    Unseen R (completeTask ord taskId jobId) := by
  have hchildren : ∀ (α : Type) f, Unseen R (@onKey α (childrenKey taskId) f) :=
    h _ List.mem_cons_self
  unfold completeTask completeTaskScript
  refine unseen_bind (hchildren _ _) fun children => ?_
  split
  · exact unseen_pure 0
  · refine unseen_bind ?_ fun triggered => ?_
    · exact unseen_decrementChildren (fun key hkey => h key (List.mem_cons_of_mem _ hkey)) jobId
        children
    · exact unseen_bind (hchildren _ _) fun _ => unseen_pure triggered

end Unseen

section Frame

open TwoRuns

variable {taskId jobId : String} {r : Redis}

theorem unseen_onKey_ne {key k : String} (hkey : key ≠ k) (α : Type)
    (f : Nat → Option Slot → Except RedisError (α × Option Slot)) :
    Unseen (fun r q : Redis => r.keys k = q.keys k) (@onKey α key f) :=
  fun r _ h => (onKey_frame hkey.symm r).trans h

/-- A run takes no time. -/
theorem completeTask_now (ord : MembersOrder) (taskId jobId : String) (r : Redis) :
    (completeTask ord taskId jobId r).2.now = r.now :=
  unseen_completeTask (fun key _ _ f r _ h => (onKey_now key f r).trans h) ord r r rfl

/-- A run for one task leaves the children of the others alone. -/
theorem completeTask_children_ne (ord : MembersOrder) {other : String} (hother : other ≠ taskId)
    (jobId : String) (r : Redis) :
    (completeTask ord taskId jobId r).2.keys (childrenKey other) = r.keys (childrenKey other) := by
  refine unseen_completeTask (fun key hkey α f => unseen_onKey_ne ?_ α f) ord r r rfl
  simp only [List.mem_cons, List.not_mem_nil, or_false] at hkey
  rcases hkey with rfl | rfl | rfl | rfl <;> simp [hother.symm]

/-- Without a children set there is nothing to do. -/
theorem completeTask_absent (ord : MembersOrder) (jobId : String)
    (h : r.keys (childrenKey taskId) = none) : completeTask ord taskId jobId r = (.ok 0, r) := by
  have hmembers : (r.setAt (childrenKey taskId)).members = [] := by
    rw [Redis.setAt_of_none h]
    rfl
  rw [completeTask, completeTaskScript, RedisM.bind_ok (smembers_ok ord (Redis.isSet_of_none h)),
    hmembers, if_pos (List.perm_nil.mp (ord.perm []))]
  rfl

/-- A run that fails leaves the children of its task for the next one. -/
theorem completeTask_failed (ord : MembersOrder) (jobId : String)
    (h : (completeTask ord taskId jobId r).1.isOk ≠ true) :
    (completeTask ord taskId jobId r).2.keys (childrenKey taskId) =
      r.keys (childrenKey taskId) := by
  by_cases hset : r.IsSet (childrenKey taskId)
  · rw [completeTask, completeTaskScript, RedisM.bind_ok (smembers_ok ord hset)] at h ⊢
    split at h
    · exact absurd rfl h
    · next hmembers =>
      rw [if_neg hmembers]
      have hkeys : ∀ key ∈ [dependencyHash jobId, kTasks, kErrors], key ≠ childrenKey taskId := by
        intro key hkey
        simp only [List.mem_cons, List.not_mem_nil, or_false] at hkey
        rcases hkey with rfl | rfl | rfl <;> simp
      have hloop := unseen_decrementChildren (fun key hkey => unseen_onKey_ne (hkeys key hkey))
        jobId (ord.order (r.setAt (childrenKey taskId)).members) r r rfl
      cases hrun : decrementChildren (dependencyHash jobId) kTasks kErrors jobId
          (ord.order (r.setAt (childrenKey taskId)).members) r with
      | mk answer r' =>
        rw [hrun] at hloop
        cases answer with
        | ok n =>
          rw [RedisM.bind_ok hrun, RedisM.bind_ok (delKey_ok r' _)] at h
          exact absurd rfl h
        | error e =>
          rw [RedisM.bind_error hrun]
          exact hloop
  · obtain ⟨e, he⟩ := smembers_error ord hset
    rw [completeTask, completeTaskScript, RedisM.bind_error he]

end Frame

end DistTaskSystem
