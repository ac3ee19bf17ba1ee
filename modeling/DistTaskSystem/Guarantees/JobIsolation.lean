import DistTaskSystem.Guarantees.Submission
import DistTaskSystem.Library.TwoRuns
import Mathlib.Order.CompletePartialOrder

/-!
# DTS — jobs do not interfere

The publications and completion scripts of all jobs run against one keyspace.
Each of them uses keys built from its own ids, and two streams that all jobs
share: there an entry carries the id of its job. What a job can see of the
keyspace is therefore the same with and without the other jobs.

A script also asks whether the meta of a child exists. A child set of the job
must hold tasks of the job only for that (`ClosedSlot`), which is what its
publication puts there.

## Results

* `sameView_own`, `unseen_other` — an operation, for its own job and for the others.
* `jobs_isolated` — the part of a job is the same in both runs.
-/

namespace DistTaskSystem

open TwoRuns

-- ---------------------------------------------------------------------------
-- The part of a job
-- ---------------------------------------------------------------------------

/-- The job an entry belongs to. -/
def StreamEntry.jobId? (e : StreamEntry) : Option String :=
  (parseStreamEntry e).map StreamTaskPointer.jobId

/-- The entries of a job, in order. Their ids depend on the clock and on the other
entries, so only the fields are its own. -/
def jobEntries (jobId : String) (s : Stream) : List (List (String × String)) :=
  (s.entries.filter fun e => e.jobId? = some jobId).map StreamEntry.fields

/-- The task ids of a submission. -/
def DagCommitContext.taskIds (ctx : DagCommitContext) : Set String :=
  { uuid | ∃ naturalId, ctx.naturalToUuid naturalId = some uuid }

/-- The two keyspaces agree on the part of a job. -/
structure SamePart (ctx : DagCommitContext) (r q : Redis) : Prop where
  children : ∀ t ∈ ctx.taskIds, r.keys (childrenKey t) = q.keys (childrenKey t)
  metas : ∀ t ∈ ctx.taskIds, r.keys (taskMeta t) = q.keys (taskMeta t)
  deps : r.keys (dependencyHash ctx.jobId) = q.keys (dependencyHash ctx.jobId)
  tasks : jobEntries ctx.jobId (r.streamAt kTasks) = jobEntries ctx.jobId (q.streamAt kTasks)
  errors : jobEntries ctx.jobId (r.streamAt kErrors) = jobEntries ctx.jobId (q.streamAt kErrors)

-- ---------------------------------------------------------------------------
-- Operations
-- ---------------------------------------------------------------------------

/-- What is done for a job: a command of a publication, or a completion script. -/
inductive JobOp where
  | command (cmd : PipeCmd)
  | complete (ord : MembersOrder) (taskId : String)

def JobOp.exec (jobId : String) : JobOp → Redis → Redis
  | .command cmd, r => cmd.exec r
  | .complete ord taskId, r => (completeTask ord taskId jobId r).2

/-- The operation is one of a job. -/
inductive DagCommitContext.Issues (serialize : PbTask → List UInt8) (ctx : DagCommitContext) :
    JobOp → Prop
  | command {req : SubmitDagRequest} {cmds : List PipeCmd} {cmd : PipeCmd}
      (hcmds : appendDagToPipeline serialize req ctx = .ok cmds) (hcmd : cmd ∈ cmds) :
      ctx.Issues serialize (.command cmd)
  | complete (ord : MembersOrder) {taskId : String} (htask : taskId ∈ ctx.taskIds) :
      ctx.Issues serialize (.complete ord taskId)

/-- An operation of the `i`-th job, or time that passes. -/
inductive JobEvent (ι : Type) where
  | op (i : ι) (o : JobOp)
  | pass (ms : Nat)

section Events

variable {ι : Type} (ctx : ι → DagCommitContext)

def JobEvent.exec : JobEvent ι → Redis → Redis
  | .op i o, r => o.exec (ctx i).jobId r
  | .pass ms, r => r.advance ms

/-- Time passes for every job. -/
def JobEvent.Concerns (i : ι) : JobEvent ι → Prop
  | .op j _ => j = i
  | .pass _ => True

instance [DecidableEq ι] (i : ι) : DecidablePred (JobEvent.Concerns i)
  | .op j _ => inferInstanceAs (Decidable (j = i))
  | .pass _ => inferInstanceAs (Decidable True)

def execEvents (events : List (JobEvent ι)) (r : Redis) : Redis :=
  events.foldl (fun r event => event.exec ctx r) r

end Events

-- ---------------------------------------------------------------------------
-- What a job can see
-- ---------------------------------------------------------------------------

/-- The keys that only one job uses. -/
inductive DagCommitContext.Owns (ctx : DagCommitContext) : Key → Prop
  | children {t : String} (h : t ∈ ctx.taskIds) : ctx.Owns (.children t)
  | taskMeta {t : String} (h : t ∈ ctx.taskIds) : ctx.Owns (.taskMeta t)
  | deps : ctx.Owns (.deps ctx.jobId)

/-- The keys that all jobs use. -/
inductive Key.Shared : Key → Prop
  | tasks : Key.Shared .tasks
  | errors : Key.Shared .errors

/-- The same slot, or streams that differ in entries of other jobs only. -/
def SameEntries (jobId : String) (a b : Option Slot) : Prop :=
  a = b ∨ ∃ s s', Slot.asStream a = .ok s ∧ Slot.asStream b = .ok s' ∧
    jobEntries jobId s = jobEntries jobId s' ∧ Slot.ttlOf a = Slot.ttlOf b

/-- A child set with tasks of the job only. -/
def ClosedSlot (ctx : DagCommitContext) (slot : Option Slot) : Prop :=
  ∀ c ∈ ((Slot.asSet slot).toOption.getD .empty).members, c ∈ ctx.taskIds

/-- The two keyspaces look alike to a job. -/
structure SameView (ctx : DagCommitContext) (r q : Redis) : Prop where
  own : ∀ key : Key, ctx.Owns key → r.keys key.text = q.keys key.text
  shared : ∀ key : Key, key.Shared → SameEntries ctx.jobId (r.keys key.text) (q.keys key.text)
  now : r.now = q.now
  closed : ∀ t ∈ ctx.taskIds, ClosedSlot ctx (r.keys (childrenKey t))

section View

variable {ctx ctx' : DagCommitContext} {r q : Redis} {key : Key}

theorem DagCommitContext.Owns.not_shared (h : ctx.Owns key) : ¬ key.Shared := by
  intro hshared
  cases h <;> exact nomatch hshared

theorem SameEntries.rfl {jobId : String} {a : Option Slot} : SameEntries jobId a a :=
  .inl (Eq.refl a)

theorem SameEntries.jobEntries {jobId : String} {a b : Option Slot} (h : SameEntries jobId a b) :
    DistTaskSystem.jobEntries jobId ((Slot.asStream a).toOption.getD .empty) =
      DistTaskSystem.jobEntries jobId ((Slot.asStream b).toOption.getD .empty) := by
  rcases h with rfl | ⟨s, s', ha, hb, heq, -⟩
  · rfl
  · rw [ha, hb]
    exact heq

theorem SameView.samePart (h : SameView ctx r q) : SamePart ctx r q where
  children t ht := h.own (.children t) (.children ht)
  metas t ht := h.own (.taskMeta t) (.taskMeta ht)
  deps := h.own (.deps ctx.jobId) .deps
  tasks := (h.shared .tasks .tasks).jobEntries
  errors := (h.shared .errors .errors).jobEntries

/-- **A write on both sides** that keeps what the job can see of the key. -/
theorem SameView.put (h : SameView ctx r q) {a b : Option Slot} (hown : ctx.Owns key → a = b)
    (hshared : key.Shared → SameEntries ctx.jobId a b)
    (hclosed : ∀ t ∈ ctx.taskIds, key = .children t → ClosedSlot ctx a) :
    SameView ctx (r.put key.text a) (q.put key.text b) where
  own k hk := by
    by_cases heq : k = key
    · subst heq
      rw [Redis.keys_put_self, Redis.keys_put_self, hown hk]
    · have hne : k.text ≠ key.text := fun h => heq (Key.text_inj.mp h)
      rw [Redis.keys_put_ne _ _ _ hne, Redis.keys_put_ne _ _ _ hne, h.own k hk]
  shared k hk := by
    by_cases heq : k = key
    · subst heq
      rw [Redis.keys_put_self, Redis.keys_put_self]
      exact hshared hk
    · have hne : k.text ≠ key.text := fun h => heq (Key.text_inj.mp h)
      rw [Redis.keys_put_ne _ _ _ hne, Redis.keys_put_ne _ _ _ hne]
      exact h.shared k hk
  now := h.now
  closed t ht := by
    by_cases heq : Key.children t = key
    · rw [← heq, Redis.keys_put_self]
      exact hclosed t ht heq.symm
    · have hne : (Key.children t).text ≠ key.text := fun h => heq (Key.text_inj.mp h)
      rw [Redis.keys_put_ne _ _ _ hne]
      exact h.closed t ht

/-- A write on one side that the job cannot see. -/
theorem SameView.put_left (h : SameView ctx r q) {a : Option Slot} (hown : ¬ ctx.Owns key)
    (hshared : key.Shared → SameEntries ctx.jobId a (q.keys key.text)) :
    SameView ctx (r.put key.text a) q := by
  have hself : q.put key.text (q.keys key.text) = q := by
    rw [Redis.put, Function.update_eq_self]
  have hboth : SameView ctx (r.put key.text a) (q.put key.text (q.keys key.text)) := by
    refine h.put (fun hk => absurd hk hown) hshared ?_
    rintro t ht rfl
    exact absurd (.children ht) hown
  rwa [hself] at hboth

end View

-- ---------------------------------------------------------------------------
-- Entries
-- ---------------------------------------------------------------------------

theorem jobId?_id (id : Nat) (fields : List (String × String)) :
    StreamEntry.jobId? ⟨id, fields⟩ = StreamEntry.jobId? ⟨0, fields⟩ := by
  simp only [StreamEntry.jobId?, parseStreamEntry]
  split <;> rfl

@[simp] theorem jobId?_toXAddArgs (id : Nat) (taskId jobId : String) :
    StreamEntry.jobId? ⟨id, toXAddArgs taskId jobId⟩ = some jobId := by
  simp [StreamEntry.jobId?, parseStreamEntry, toXAddArgs, parseField]

@[simp] theorem jobId?_script (id : Nat) (taskId jobId : String) :
    StreamEntry.jobId? ⟨id, [("task_id", taskId), ("job_id", jobId)]⟩ = some jobId := by
  simp [StreamEntry.jobId?, parseStreamEntry, parseField]

@[simp] theorem jobId?_missingMeta (id : Nat) (taskId jobId : String) :
    StreamEntry.jobId? ⟨id, missingMetaEntry jobId taskId⟩ = some jobId := by
  simp [StreamEntry.jobId?, parseStreamEntry, missingMetaEntry, parseField]

@[simp] theorem jobId?_negativeDeps (id : Nat) (taskId jobId : String) (remain : Int) :
    StreamEntry.jobId? ⟨id, negativeDepsEntry jobId taskId remain⟩ = some jobId := by
  simp [StreamEntry.jobId?, parseStreamEntry, negativeDepsEntry, parseField]

theorem jobEntries_add (jobId : String) (s : Stream) (now : Nat)
    (fields : List (String × String)) : jobEntries jobId (s.add now fields) =
      jobEntries jobId s ++
        if StreamEntry.jobId? ⟨0, fields⟩ = some jobId then [fields] else [] := by
  rw [jobEntries, jobEntries, Stream.add, List.filter_append, List.map_append,
    List.filter_singleton, jobId?_id]
  by_cases hjob : StreamEntry.jobId? ⟨0, fields⟩ = some jobId <;> simp [hjob]

/-- The slot after an XADD that was answered. -/
theorem sameEntries_add {jobId : String} {a b : Option Slot} {s s' : Stream} {now now' : Nat}
    {fields fields' : List (String × String)}
    (h : jobEntries jobId (s.add now fields) = jobEntries jobId (s'.add now' fields'))
    (httl : Slot.ttlOf a = Slot.ttlOf b) :
    SameEntries jobId (some ⟨.stream (s.add now fields), Slot.ttlOf a⟩)
      (some ⟨.stream (s'.add now' fields'), Slot.ttlOf b⟩) :=
  .inr ⟨_, _, rfl, rfl, h, httl⟩

-- ---------------------------------------------------------------------------
-- Commands
-- ---------------------------------------------------------------------------

section Commands

variable {ctx ctx' : DagCommitContext} {key : Key} {α β γ δ : Type}

theorem coupled_bind {R : Redis → Redis → Prop} {S : α → β → Prop} {T : γ → δ → Prop}
    {m : RedisM α} {n : RedisM β} {f : α → RedisM γ} {g : β → RedisM δ} (h : Coupled R S m n)
    (hrest : ∀ a b, S a b → Coupled R T (f a) (g b)) : Coupled R T (m >>= f) (n >>= g) := by
  rw [bind_eq_andThen, bind_eq_andThen]
  exact h.andThen hrest

theorem coupled_pure {R : Redis → Redis → Prop} {S : α → α → Prop} {a : α} (h : S a a) :
    Coupled R S (pure a : RedisM α) (pure a : RedisM α) :=
  Coupled.answer h

/-- **A command on a key of the job** does the same on both sides. -/
theorem coupled_own (hown : ctx.Owns key) {S : α → α → Prop}
    {f : Nat → Option Slot → Except RedisError (α × Option Slot)}
    (hf : ∀ now slot a slot', f now slot = .ok (a, slot') →
      (∀ t ∈ ctx.taskIds, key = .children t → ClosedSlot ctx slot) →
      S a a ∧ ∀ t ∈ ctx.taskIds, key = .children t → ClosedSlot ctx slot') :
    Coupled (SameView ctx) S (onKey key.text f) (onKey key.text f) := by
  intro r q h
  unfold onKey
  rw [← h.own key hown, ← h.now]
  have hclosed : ∀ t ∈ ctx.taskIds, key = .children t → ClosedSlot ctx (r.keys key.text) := by
    rintro t ht rfl
    exact h.closed t ht
  cases hresult : f r.now (r.keys key.text) with
  | error e => exact ⟨trivial, h⟩
  | ok result =>
    obtain ⟨a, slot'⟩ := result
    obtain ⟨hS, hclosed'⟩ := hf r.now (r.keys key.text) a slot' hresult hclosed
    exact ⟨hS, h.put (fun _ => rfl) (fun _ => .rfl) hclosed'⟩

/-- A command on a key of the job that is not a child set. -/
theorem coupled_plain (hown : ctx.Owns key) (hne : ∀ t, key ≠ .children t)
    {f : Nat → Option Slot → Except RedisError (α × Option Slot)} :
    Coupled (SameView ctx) Eq (onKey key.text f) (onKey key.text f) :=
  coupled_own hown fun _ _ _ _ _ _ => ⟨rfl, fun t _ heq => absurd heq (hne t)⟩

/-- A command on a key of another job. -/
theorem unseen_key (hown : ¬ ctx.Owns key) (hshared : ¬ key.Shared)
    {f : Nat → Option Slot → Except RedisError (α × Option Slot)} :
    Unseen (SameView ctx) (onKey key.text f) := by
  intro r q h
  unfold onKey
  split
  · exact h.put_left hown fun hk => absurd hk hshared
  · exact h

theorem xadd_asStream {r : Redis} {k : String} {s : Stream}
    (hs : Slot.asStream (r.keys k) = .ok s) (fields : List (String × String)) :
    xadd k fields r = (.ok (s.nextId r.now),
      r.put k (some ⟨.stream (s.add r.now fields), Slot.ttlOf (r.keys k)⟩)) := by
  refine onKey_ok ?_
  rw [hs]
  rfl

theorem xadd_asStream_error {r : Redis} {k : String} {e : RedisError}
    (hs : Slot.asStream (r.keys k) = .error e) (fields : List (String × String)) :
    xadd k fields r = (.error e, r) := by
  refine onKey_error ?_
  rw [hs]
  rfl

/-- An entry of the job is added on both sides. -/
theorem coupled_xadd (hkey : key.Shared) (fields : List (String × String)) :
    Coupled (SameView ctx) (fun _ _ => True) (xadd key.text fields) (xadd key.text fields) := by
  have hnot : ¬ ctx.Owns key := fun hown => hown.not_shared hkey
  intro r q h
  have hput : ∀ a b, SameEntries ctx.jobId a b →
      SameView ctx (r.put key.text a) (q.put key.text b) := by
    intro a b hab
    refine h.put (fun hown => absurd hown hnot) (fun _ => hab) ?_
    rintro t ht rfl
    exact absurd (.children ht) hnot
  rcases h.shared key hkey with heq | ⟨s, s', hs, hs', hentries, httl⟩
  · cases hstream : Slot.asStream (r.keys key.text) with
    | error e =>
      rw [xadd_asStream_error hstream, xadd_asStream_error (heq ▸ hstream)]
      exact ⟨trivial, h⟩
    | ok s =>
      rw [xadd_asStream hstream, xadd_asStream (heq ▸ hstream), ← heq, ← h.now]
      exact ⟨trivial, hput _ _ .rfl⟩
  · rw [xadd_asStream hs, xadd_asStream hs']
    refine ⟨trivial, hput _ _ (sameEntries_add ?_ httl)⟩
    rw [jobEntries_add, jobEntries_add, hentries]

/-- An entry of another job is added. -/
theorem unseen_xadd (hkey : key.Shared) {fields : List (String × String)}
    (hjob : StreamEntry.jobId? ⟨0, fields⟩ ≠ some ctx.jobId) :
    Unseen (SameView ctx) (xadd key.text fields) := by
  have hnot : ¬ ctx.Owns key := fun hown => hown.not_shared hkey
  intro r q h
  have hentries : ∀ s : Stream,
      jobEntries ctx.jobId (s.add r.now fields) = jobEntries ctx.jobId s := by
    intro s
    rw [jobEntries_add, if_neg hjob, List.append_nil]
  cases hstream : Slot.asStream (r.keys key.text) with
  | error e =>
    rw [xadd_asStream_error hstream]
    exact h
  | ok s =>
    rw [xadd_asStream hstream]
    refine h.put_left hnot fun _ => .inr ?_
    rcases h.shared key hkey with heq | ⟨s₀, s', hs, hs', hsame, httl⟩
    · exact ⟨_, s, rfl, heq ▸ hstream, hentries s, heq ▸ rfl⟩
    · obtain rfl := Except.ok.inj (hs.symm.trans hstream)
      exact ⟨_, s', rfl, hs', (hentries s₀).trans hsame, httl⟩

end Commands

-- ---------------------------------------------------------------------------
-- Publications
-- ---------------------------------------------------------------------------

/-- The commands of a publication: each uses an own key, or adds an entry of the
job. -/
inductive DagCommitContext.Queues (ctx : DagCommitContext) : PipeCmd → Prop
  | sadd {p c : String} (hp : p ∈ ctx.taskIds) (hc : c ∈ ctx.taskIds) :
      ctx.Queues (.sadd (.children p) c)
  | expire {key : Key} (hkey : ctx.Owns key) (ttl : Nat) : ctx.Queues (.expire key ttl)
  | set {t : String} (ht : t ∈ ctx.taskIds) (payload : List UInt8) (ttl : Nat) :
      ctx.Queues (.set (.taskMeta t) payload ttl)
  | hset (field : String) (value : Int) : ctx.Queues (.hset (.deps ctx.jobId) field value)
  | xadd (t : String) : ctx.Queues (.xadd .tasks (toXAddArgs t ctx.jobId))

section Publications

variable {ctx ctx' : DagCommitContext}

/-- The task ids of an accepted request were generated for it. -/
theorem commitContext_taskIds {req : SubmitDagRequest} {jobId : Uuid} {uuids : List Uuid}
    {t : String} (ht : t ∈ (commitContext req jobId uuids).taskIds) :
    ∃ u ∈ uuids, u.text = t := by
  obtain ⟨naturalId, hlookup⟩ := ht
  obtain ⟨pair, hmem, -, htext⟩ := assignIds_some hlookup
  exact ⟨pair.2, (List.of_mem_zip hmem).2, htext⟩

theorem taskIds_of_at {naturalId uuid : String} (h : ctx.at naturalId = .ok uuid) :
    uuid ∈ ctx.taskIds :=
  ⟨naturalId, ctx.at_eq_ok.mp h⟩

theorem edgeCommands_queues {processed : List String} {edges : List TaskEdge}
    {cmds : List PipeCmd} (h : edgeCommands ctx processed edges = .ok cmds) :
    ∀ cmd ∈ cmds, ctx.Queues cmd := by
  induction edges generalizing processed cmds with
  | nil =>
    obtain rfl : [] = cmds := Except.ok.inj h
    exact fun cmd hcmd => absurd hcmd List.not_mem_nil
  | cons edge rest ih =>
    rw [edgeCommands] at h
    obtain ⟨parent, hparent, h⟩ := Fallible.bind_eq_ok.mp h
    obtain ⟨child, hchild, h⟩ := Fallible.bind_eq_ok.mp h
    have hp := taskIds_of_at hparent
    have hc := taskIds_of_at hchild
    dsimp only at h
    split at h
    · obtain ⟨more, hmore, h⟩ := Fallible.bind_eq_ok.mp h
      obtain rfl := Except.ok.inj h
      exact List.forall_mem_cons.mpr ⟨.sadd hp hc, ih hmore⟩
    · obtain ⟨more, hmore, h⟩ := Fallible.bind_eq_ok.mp h
      obtain rfl := Except.ok.inj h
      exact List.forall_mem_cons.mpr ⟨.sadd hp hc,
        List.forall_mem_cons.mpr ⟨.expire (.children hp) _, ih hmore⟩⟩

theorem taskCommands_queues {serialize : PbTask → List UInt8} {edges : List TaskEdge}
    {tasks : List PbTask} {cmds : List PipeCmd}
    (h : taskCommands serialize ctx edges tasks = .ok cmds) : ∀ cmd ∈ cmds, ctx.Queues cmd := by
  induction tasks generalizing cmds with
  | nil =>
    obtain rfl : [] = cmds := Except.ok.inj h
    exact fun cmd hcmd => absurd hcmd List.not_mem_nil
  | cons task rest ih =>
    rw [taskCommands] at h
    obtain ⟨uuid, huuid, h⟩ := Fallible.bind_eq_ok.mp h
    obtain ⟨more, hmore, h⟩ := Fallible.bind_eq_ok.mp h
    obtain rfl := Except.ok.inj h
    refine List.forall_mem_cons.mpr ⟨.set (taskIds_of_at huuid) _ _,
      List.forall_mem_cons.mpr ⟨?_, ih hmore⟩⟩
    split
    · exact .hset _ _
    · exact .xadd _

/-- `AppendDagToPipeline` queues nothing else. -/
theorem appendDag_queues {serialize : PbTask → List UInt8} {req : SubmitDagRequest}
    {cmds : List PipeCmd} (h : appendDagToPipeline serialize req ctx = .ok cmds) :
    ∀ cmd ∈ cmds, ctx.Queues cmd := by
  rw [appendDagToPipeline_eq] at h
  split at h
  · obtain rfl := Except.ok.inj h
    exact fun cmd hcmd => absurd hcmd List.not_mem_nil
  · obtain ⟨phase1, hphase1, h⟩ := Fallible.bind_eq_ok.mp h
    obtain ⟨phase2, hphase2, h⟩ := Fallible.bind_eq_ok.mp h
    have hboth : ∀ cmd ∈ phase1 ++ phase2, ctx.Queues cmd := fun cmd hcmd =>
      (List.mem_append.mp hcmd).elim (edgeCommands_queues hphase1 cmd)
        (taskCommands_queues hphase2 cmd)
    split at h
    · obtain rfl := Except.ok.inj h
      exact hboth
    · obtain rfl := Except.ok.inj h
      intro cmd hcmd
      rcases List.mem_append.mp hcmd with hmem | hlast
      · exact hboth cmd hmem
      · obtain rfl := List.mem_singleton.mp hlast
        exact .expire .deps _

end Publications

-- ---------------------------------------------------------------------------
-- Two jobs
-- ---------------------------------------------------------------------------

/-- Two jobs with nothing in common. -/
structure Apart (ctx ctx' : DagCommitContext) : Prop where
  jobId : ctx'.jobId ≠ ctx.jobId
  taskIds : ∀ t ∈ ctx'.taskIds, t ∉ ctx.taskIds

section TwoJobs

variable {ctx ctx' : DagCommitContext} {key : Key}

theorem Apart.not_owns (h : Apart ctx ctx') (hown : ctx'.Owns key) : ¬ ctx.Owns key := by
  intro hown'
  cases hown with
  | children ht =>
    cases hown' with
    | children ht' => exact h.taskIds _ ht ht'
  | taskMeta ht =>
    cases hown' with
    | taskMeta ht' => exact h.taskIds _ ht ht'
  | deps =>
    generalize hkey : Key.deps ctx'.jobId = k at hown'
    cases hown' with
    | deps => exact h.jobId (Key.deps.inj hkey)
    | children ht' => exact nomatch hkey
    | taskMeta ht' => exact nomatch hkey

/-- A command on a key of another job. -/
theorem Apart.unseen (h : Apart ctx ctx') (hown : ctx'.Owns key) {α : Type}
    {f : Nat → Option Slot → Except RedisError (α × Option Slot)} :
    Unseen (SameView ctx) (onKey key.text f) :=
  unseen_key (h.not_owns hown) hown.not_shared

/-- An entry of another job. -/
theorem Apart.unseen_xadd (h : Apart ctx ctx') (hkey : key.Shared)
    {fields : List (String × String)}
    (hjob : StreamEntry.jobId? ⟨0, fields⟩ = some ctx'.jobId) :
    Unseen (SameView ctx) (xadd key.text fields) := by
  refine DistTaskSystem.unseen_xadd hkey fun heq => ?_
  exact h.jobId (Option.some.inj (hjob.symm.trans heq))

/-- **A command of a publication, for its own job.** -/
theorem sameView_command {cmd : PipeCmd} (hcmd : ctx.Queues cmd) {r q : Redis}
    (h : SameView ctx r q) : SameView ctx (cmd.exec r) (cmd.exec q) := by
  have hkeep : ∀ {α : Type} (m : RedisM α) {S : α → α → Prop},
      Coupled (SameView ctx) S m m → SameView ctx (m r).2 (m q).2 := fun m _ hm => (hm r q h).2
  cases hcmd with
  | @sadd p c hp hc =>
    refine hkeep (DistTaskSystem.sadd (Key.children p).text c)
      (coupled_own (.children hp) (S := fun _ _ => True) ?_)
    rintro now slot a slot' hresult hclosed
    refine ⟨trivial, fun t ht heq => ?_⟩
    obtain ⟨s, hs, hresult⟩ := Fallible.bind_eq_ok.mp hresult
    obtain ⟨-, rfl⟩ := Prod.mk.inj (Except.ok.inj hresult)
    have hold := hclosed p hp rfl
    intro c' hc'
    rcases RedisSet.mem_insert.mp hc' with hmem | rfl
    · refine hold c' ?_
      rw [hs]
      exact hmem
    · exact hc
  | @expire key hkey ttl =>
    refine hkeep (expireKey key.text ttl) (coupled_own hkey (S := fun _ _ => True) ?_)
    rintro now slot a slot' hresult hclosed
    refine ⟨trivial, fun t ht heq => ?_⟩
    obtain ⟨-, rfl⟩ := Prod.mk.inj (Except.ok.inj hresult)
    have hsame : Slot.asSet (slot.map (Slot.withDeadline (now + ttl))) = Slot.asSet slot := by
      rcases slot with _ | ⟨_ | _ | _ | _, _⟩ <;> rfl
    rw [ClosedSlot, hsame]
    exact hclosed t ht heq
  | @set t ht payload ttl =>
    exact hkeep (setEx (Key.taskMeta t).text payload ttl) (coupled_plain (.taskMeta ht) nofun)
  | hset field value =>
    exact hkeep (DistTaskSystem.hset (Key.deps ctx.jobId).text field value)
      (coupled_plain .deps nofun)
  | xadd t =>
    refine hkeep (do
      let _ ← DistTaskSystem.xadd Key.tasks.text (toXAddArgs t ctx.jobId)
      return ()) (S := Eq) (coupled_bind (coupled_xadd .tasks _) fun _ _ _ => ?_)
    exact coupled_pure rfl

/-- **A command of another publication.** -/
theorem Apart.unseen_command (happart : Apart ctx ctx') {cmd : PipeCmd} (hcmd : ctx'.Queues cmd)
    {r q : Redis} (h : SameView ctx r q) : SameView ctx (cmd.exec r) q := by
  cases hcmd with
  | sadd hp hc => exact happart.unseen (.children hp) r q h
  | expire hkey ttl => exact happart.unseen hkey r q h
  | set ht payload ttl => exact happart.unseen (.taskMeta ht) r q h
  | hset field value => exact happart.unseen .deps r q h
  | xadd t =>
    have hunseen : Unseen (SameView ctx) (do
        let _ ← DistTaskSystem.xadd Key.tasks.text (toXAddArgs t ctx'.jobId)
        return () : RedisM Unit) :=
      unseen_bind (happart.unseen_xadd .tasks (jobId?_toXAddArgs 0 t ctx'.jobId))
        fun _ => unseen_pure ()
    exact hunseen r q h

-- ---------------------------------------------------------------------------
-- The completion script
-- ---------------------------------------------------------------------------

theorem coupled_decrementChild {c : String} (hc : c ∈ ctx.taskIds) :
    Coupled (SameView ctx) Eq
      (decrementChild (dependencyHash ctx.jobId) kTasks kErrors ctx.jobId c)
      (decrementChild (dependencyHash ctx.jobId) kTasks kErrors ctx.jobId c) := by
  have hanswer : ∀ n : Nat, Coupled (SameView ctx) Eq (pure n : RedisM Nat) (pure n : RedisM Nat) :=
    fun n => coupled_pure rfl
  unfold decrementChild
  -- HINCRBY answers the same remainder, so the script takes the same branch
  refine coupled_bind (coupled_plain .deps nofun) ?_
  rintro remain _ rfl
  split
  · refine coupled_bind (coupled_plain (.taskMeta hc) nofun) ?_
    rintro metaExists _ rfl
    split
    · refine coupled_bind (coupled_xadd .tasks _) fun _ _ _ => ?_
      exact coupled_bind (coupled_plain .deps nofun) fun _ _ _ => hanswer 1
    · exact coupled_bind (coupled_xadd .errors _) fun _ _ _ => hanswer 0
  · split
    · exact coupled_bind (coupled_xadd .errors _) fun _ _ _ => hanswer 0
    · exact hanswer 0

theorem coupled_decrementChildren {children : List String}
    (hchildren : ∀ c ∈ children, c ∈ ctx.taskIds) :
    Coupled (SameView ctx) Eq
      (decrementChildren (dependencyHash ctx.jobId) kTasks kErrors ctx.jobId children)
      (decrementChildren (dependencyHash ctx.jobId) kTasks kErrors ctx.jobId children) := by
  induction children with
  | nil => exact coupled_pure rfl
  | cons c rest ih =>
    obtain ⟨hc, hrest⟩ := List.forall_mem_cons.mp hchildren
    unfold decrementChildren
    refine coupled_bind (coupled_decrementChild hc) ?_
    rintro n _ rfl
    refine coupled_bind (ih hrest) ?_
    rintro m _ rfl
    exact coupled_pure rfl

/-- **The script, for its own job.** The enumerated children are tasks of the
job. -/
theorem coupled_completeTask (ord : MembersOrder) {t : String} (ht : t ∈ ctx.taskIds) :
    Coupled (SameView ctx) Eq (completeTask ord t ctx.jobId) (completeTask ord t ctx.jobId) := by
  have hmembers : Coupled (SameView ctx) (fun a b => a = b ∧ ∀ c ∈ a, c ∈ ctx.taskIds)
      (smembers ord (childrenKey t)) (smembers ord (childrenKey t)) := by
    refine coupled_own (.children ht) ?_
    intro now slot children slot' hresult hclosed
    obtain ⟨s, hs, hresult⟩ := Fallible.bind_eq_ok.mp hresult
    obtain ⟨rfl, rfl⟩ := Prod.mk.inj (Except.ok.inj hresult)
    refine ⟨⟨rfl, fun c hc => ?_⟩, hclosed⟩
    have hmem : c ∈ s.members := (ord.perm s.members).mem_iff.mp hc
    refine hclosed t ht rfl c ?_
    rw [hs]
    exact hmem
  have hdel : Coupled (SameView ctx) Eq (delKey (childrenKey t)) (delKey (childrenKey t)) := by
    refine coupled_own (.children ht) ?_
    intro now slot a slot' hresult _
    obtain ⟨-, rfl⟩ := Prod.mk.inj (Except.ok.inj hresult)
    exact ⟨rfl, fun _ _ _ c hc => absurd hc List.not_mem_nil⟩
  unfold completeTask completeTaskScript
  refine coupled_bind hmembers ?_
  rintro children _ ⟨rfl, hchildren⟩
  split
  · exact coupled_pure rfl
  · refine coupled_bind (coupled_decrementChildren hchildren) ?_
    rintro triggered _ rfl
    exact coupled_bind hdel fun _ _ _ => coupled_pure rfl

/-- `EXISTS` leaves the keyspace alone, whoever owns the key. -/
theorem Apart.unseen_decrementChild (h : Apart ctx ctx') (c : String) :
    Unseen (SameView ctx)
      (decrementChild (dependencyHash ctx'.jobId) kTasks kErrors ctx'.jobId c) := by
  unfold decrementChild
  refine unseen_bind (h.unseen .deps) fun remain => ?_
  split
  · refine unseen_bind (unseen_existsKey _) fun metaExists => ?_
    split
    · refine unseen_bind (h.unseen_xadd .tasks (jobId?_script 0 c ctx'.jobId)) fun _ => ?_
      exact unseen_bind (h.unseen .deps) fun _ => unseen_pure 1
    · exact unseen_bind (h.unseen_xadd .errors (jobId?_missingMeta 0 c ctx'.jobId))
        fun _ => unseen_pure 0
  · split
    · exact unseen_bind (h.unseen_xadd .errors (jobId?_negativeDeps 0 c ctx'.jobId remain))
        fun _ => unseen_pure 0
    · exact unseen_pure 0

theorem Apart.unseen_decrementChildren (h : Apart ctx ctx') (children : List String) :
    Unseen (SameView ctx)
      (decrementChildren (dependencyHash ctx'.jobId) kTasks kErrors ctx'.jobId children) := by
  induction children with
  | nil => exact unseen_pure 0
  | cons c rest ih =>
    unfold decrementChildren
    refine unseen_bind (h.unseen_decrementChild c) fun n => ?_
    exact unseen_bind ih fun m => unseen_pure (n + m)

/-- **The script of another job.** -/
theorem Apart.unseen_completeTask (h : Apart ctx ctx') (ord : MembersOrder) {t : String}
    (ht : t ∈ ctx'.taskIds) : Unseen (SameView ctx) (completeTask ord t ctx'.jobId) := by
  unfold completeTask completeTaskScript
  refine unseen_bind (h.unseen (.children ht)) fun children => ?_
  split
  · exact unseen_pure 0
  · refine unseen_bind (h.unseen_decrementChildren children) fun triggered => ?_
    exact unseen_bind (h.unseen (.children ht)) fun _ => unseen_pure triggered

end TwoJobs

-- ---------------------------------------------------------------------------
-- Time
-- ---------------------------------------------------------------------------

/-- Whether a slot expires depends on its deadline only. -/
theorem filter_expireAt (slot : Option Slot) (p : Nat → Bool) :
    slot.filter (fun s => s.expireAt.all p) = if (Slot.ttlOf slot).all p then slot else none := by
  rcases slot with _ | ⟨value, ttl⟩
  · simp
  · exact Option.filter_some

theorem SameEntries.filter {jobId : String} {a b : Option Slot} (h : SameEntries jobId a b)
    (p : Nat → Bool) : SameEntries jobId (a.filter fun s => s.expireAt.all p)
      (b.filter fun s => s.expireAt.all p) := by
  rcases h with rfl | ⟨s, s', hs, hs', hentries, httl⟩
  · exact .rfl
  · rw [filter_expireAt, filter_expireAt, httl]
    split
    · exact .inr ⟨s, s', hs, hs', hentries, httl⟩
    · exact .rfl

theorem ClosedSlot.filter {ctx : DagCommitContext} {slot : Option Slot} (h : ClosedSlot ctx slot)
    (p : Nat → Bool) : ClosedSlot ctx (slot.filter fun s => s.expireAt.all p) := by
  rw [filter_expireAt]
  split
  · exact h
  · exact fun c hc => absurd hc List.not_mem_nil

/-- The keys of both sides expire together. -/
theorem SameView.advance {ctx : DagCommitContext} {r q : Redis} (h : SameView ctx r q) (ms : Nat) :
    SameView ctx (r.advance ms) (q.advance ms) where
  own key hown := by
    show (r.keys key.text).filter _ = (q.keys key.text).filter _
    rw [h.own key hown, h.now]
  shared key hkey := by
    show SameEntries ctx.jobId ((r.keys key.text).filter _) ((q.keys key.text).filter _)
    rw [h.now]
    exact (h.shared key hkey).filter fun deadline => q.now + ms < deadline
  now := by
    show r.now + ms = q.now + ms
    rw [h.now]
  closed t ht := (h.closed t ht).filter fun deadline => r.now + ms < deadline

-- ---------------------------------------------------------------------------
-- All jobs
-- ---------------------------------------------------------------------------

section AllJobs

variable {ι : Type} {serialize : PbTask → List UInt8} {ctx : ι → DagCommitContext} {i j : ι}

/-- **An operation, for its own job.** -/
theorem sameView_own {o : JobOp} (ho : (ctx i).Issues serialize o) {r q : Redis}
    (h : SameView (ctx i) r q) :
    SameView (ctx i) (o.exec (ctx i).jobId r) (o.exec (ctx i).jobId q) := by
  cases ho with
  | command hcmds hcmd => exact sameView_command (appendDag_queues hcmds _ hcmd) h
  | complete ord htask => exact (coupled_completeTask ord htask r q h).2

/-- **An operation, for another job.** -/
theorem unseen_other (happart : Apart (ctx i) (ctx j)) {o : JobOp}
    (ho : (ctx j).Issues serialize o) {r q : Redis} (h : SameView (ctx i) r q) :
    SameView (ctx i) (o.exec (ctx j).jobId r) q := by
  cases ho with
  | command hcmds hcmd => exact happart.unseen_command (appendDag_queues hcmds _ hcmd) h
  | complete ord htask => exact happart.unseen_completeTask ord htask r q h

/-- **Jobs do not interfere.** Take any interleaving of the publications and of the
completion scripts of jobs that share no id, with time passing. Without the
other jobs' operations, the part of a job comes out the same. -/
theorem jobs_isolated (serialize : PbTask → List UInt8) [DecidableEq ι]
    (events : List (JobEvent ι)) (r : Redis) (i : ι)
    (hjobs : ∀ j, j ≠ i → (ctx j).jobId ≠ (ctx i).jobId)
    (htasks : ∀ j, j ≠ i → Disjoint (ctx j).taskIds (ctx i).taskIds)
    (hissued : ∀ j o, .op j o ∈ events → (ctx j).Issues serialize o)
    (hclosed : ∀ t ∈ (ctx i).taskIds, ClosedSlot (ctx i) (r.keys (childrenKey t))) :
    SamePart (ctx i) (execEvents ctx events r)
      (execEvents ctx (events.filter (JobEvent.Concerns i)) r) := by
  have hstart : SameView (ctx i) r r := ⟨fun _ _ => rfl, fun _ _ => .rfl, rfl, hclosed⟩
  refine (unwinding ?_ ?_ hstart).samePart
  · rintro (⟨j, o⟩ | ms) hevent hown s t hst
    · obtain rfl : j = i := hown
      exact sameView_own (hissued j o hevent) hst
    · exact hst.advance ms
  · rintro (⟨j, o⟩ | ms) hevent hother s t hst
    · have happart : Apart (ctx i) (ctx j) :=
        ⟨hjobs j hother, fun c hc hc' => Set.disjoint_left.mp (htasks j hother) hc hc'⟩
      exact unseen_other happart (hissued j o hevent) hst
    · exact absurd trivial hother

end AllJobs

/-! Two chains, published command by command in turn and then run. -/

def twoChains : Bool → DagCommitContext
  | true => commitContext chainRequest jobX [taskA, taskB]
  | false => commitContext chainRequest jobY [taskC, taskD]

def chainCommands (i : Bool) : List PipeCmd :=
  (appendDagToPipeline (fun _ => []) chainRequest (twoChains i)).toOption.getD []

def inTurn : List (JobEvent Bool) :=
  ((chainCommands true).zip (chainCommands false)).flatMap
      (fun cmds => [.op true (.command cmds.1), .op false (.command cmds.2)]) ++
    [.op false (.complete .insertion taskC.text), .pass 5,
      .op true (.complete .insertion taskA.text)]

theorem jobs_isolated_two_chains :
    SamePart (twoChains true) (execEvents twoChains inTurn .empty)
      (execEvents twoChains (inTurn.filter (JobEvent.Concerns true)) .empty) := by
  have hcmds : ∀ i, appendDagToPipeline (fun _ => []) chainRequest (twoChains i) =
      .ok (chainCommands i) := by decide
  have hchains : ∀ j, j ≠ true → j = false := by decide
  refine jobs_isolated (fun _ => []) inTurn .empty true (fun j hj => ?_) (fun j hj => ?_) ?_ ?_
  · obtain rfl := hchains j hj
    decide
  · obtain rfl := hchains j hj
    refine Set.disjoint_left.mpr fun t ht ht' => ?_
    obtain ⟨u, hu, rfl⟩ := commitContext_taskIds ht
    obtain ⟨v, hv, hvu⟩ := commitContext_taskIds ht'
    have hne : ∀ u ∈ [taskC, taskD], u ∉ [taskA, taskB] := by decide
    exact hne u hu (Uuid.text_inj.mp hvu ▸ hv)
  · intro j o hevent
    rcases List.mem_append.mp hevent with hpublished | hrun
    · obtain ⟨cmds, hmem, hop⟩ := List.mem_flatMap.mp hpublished
      obtain ⟨hleft, hright⟩ := List.of_mem_zip hmem
      rcases List.mem_pair.mp hop with heq | heq
      · obtain ⟨rfl, rfl⟩ := JobEvent.op.inj heq
        exact .command (hcmds true) hleft
      · obtain ⟨rfl, rfl⟩ := JobEvent.op.inj heq
        exact .command (hcmds false) hright
    · simp only [List.mem_cons, JobEvent.op.injEq, reduceCtorEq, List.not_mem_nil, or_false,
        false_or] at hrun
      rcases hrun with ⟨rfl, rfl⟩ | ⟨rfl, rfl⟩
      · exact .complete .insertion ⟨"a", by decide⟩
      · exact .complete .insertion ⟨"a", by decide⟩
  · exact fun t ht c hc => absurd hc List.not_mem_nil

end DistTaskSystem
