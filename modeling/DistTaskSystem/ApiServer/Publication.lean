import DistTaskSystem.ApiServer.DagPipeline

/-!
# DTS — the published DAG

The commands of a publication, read as operations on the countdown of a job,
and the countdown they leave: after the whole pipeline it is the `Exact` state
of the request's graph, with every task published and none completed
(`publication_exact`). The pieces are stated for one command at a time
(`exec_view`, `exec_typed`), since other clients run between the commands.
-/

namespace DistTaskSystem

open TwoRuns
open Countdown (Exact parents pending)

/-! ## What a command does to a job -/

/-- The key a command is sent to. -/
def PipeCmd.key : PipeCmd → Key
  | .sadd key _ => key
  | .expire key _ => key
  | .set key .. => key
  | .hset key .. => key
  | .xadd key _ => key

/-- The key is free or holds a value of the type it is used at. -/
def KeyTyped (r : Redis) : Key → Prop
  | .children taskId => r.IsSet (childrenKey taskId)
  | .deps jobId => r.IsHash (dependencyHash jobId)
  | .taskMeta _ => True
  | .tasks => r.IsStream kTasks
  | .errors => r.IsStream kErrors

/-- The command is sent to a key of its kind, which is free or holds a value of
the type the command expects. -/
def PipeCmd.Fits (r : Redis) : PipeCmd → Prop
  | .sadd key _ => KeyTyped r key ∧ ∃ taskId, key = .children taskId
  | .expire .. => True
  | .set key .. => ∃ taskId, key = .taskMeta taskId
  | .hset key .. => KeyTyped r key ∧ ∃ jobId, key = .deps jobId
  | .xadd key _ => KeyTyped r key ∧ key = .tasks

/-- A command as an operation on the countdown of a job. -/
def PipeCmd.act (jobId : String) (cmd : PipeCmd) (s : Countdown.State String) :
    Countdown.State String :=
  match cmd with
  | .sadd (.children taskId) child =>
    { s with children := Function.update s.children taskId (insert child (s.children taskId)) }
  | .set (.taskMeta taskId) _ _ => s.learn taskId
  | .hset (.deps job) taskId value =>
    if job = jobId then { s with counter := Function.update s.counter taskId (some value) } else s
  | .xadd .tasks fields =>
    { s with ready := s.ready ++ (StreamEntry.taskId? ⟨0, fields⟩).toList }
  | _ => s

section Exec

variable {cmd : PipeCmd} {r : Redis}

/-- A command on a key of its kind replaces the slot of that key. -/
theorem exec_eq_put (h : cmd.Fits r) :
    ∃ slot, cmd.exec r = r.put cmd.key.text slot := by
  cases cmd with
  | sadd key member =>
    obtain ⟨ht, taskId, rfl⟩ := h
    exact ⟨_, congrArg Prod.snd (sadd_ok ht member)⟩
  | expire key ttl => exact ⟨_, rfl⟩
  | set key payload ttl => exact ⟨_, rfl⟩
  | hset key field value =>
    obtain ⟨ht, jobId, rfl⟩ := h
    exact ⟨_, congrArg Prod.snd (hset_ok ht field value)⟩
  | xadd key fields =>
    obtain ⟨ht, rfl⟩ := h
    exact ⟨_, congrArg Prod.snd (RedisM.bind_ok (xadd_ok ht fields))⟩

theorem unseen_run {R : Redis → Redis → Prop}
    (h : ∀ (α : Type) f, Unseen R (@onKey α cmd.key.text f)) : Unseen R cmd.run := by
  cases cmd with
  | sadd key member => exact h _ _
  | expire key ttl => exact h _ _
  | set key payload ttl => exact h _ _
  | hset key field value => exact h _ _
  | xadd key fields => exact unseen_bind (h _ _) fun _ => unseen_pure ()

/-- A command takes no time. -/
theorem exec_now (cmd : PipeCmd) (r : Redis) : (cmd.exec r).now = r.now :=
  unseen_run (fun _ f r _ h => (onKey_now _ f r).trans h) r r rfl

/-- A command touches only its key, whatever it answers. -/
theorem exec_keys_ne {k : String} (hk : k ≠ cmd.key.text) : (cmd.exec r).keys k = r.keys k :=
  unseen_run (unseen_onKey_ne hk.symm) r r rfl

theorem keyTyped_put_ne {key k : Key} (hk : k ≠ key) (slot : Option Slot) :
    KeyTyped (r.put key.text slot) k ↔ KeyTyped r k := by
  have hne : k.text ≠ key.text := fun h => hk (Key.text_inj.mp h)
  cases k with
  | children taskId => exact Redis.isSet_put_ne r _ slot hne
  | deps jobId => exact Redis.isHash_put_ne r _ slot hne
  | taskMeta taskId => exact Iff.rfl
  | tasks => exact Redis.isStream_put_ne r _ slot hne
  | errors => exact Redis.isStream_put_ne r _ slot hne

/-- A command keeps the types of all keys. -/
theorem exec_typed {k : Key} (h : cmd.Fits r) (hk : KeyTyped r k) :
    KeyTyped (cmd.exec r) k := by
  by_cases hkey : k = cmd.key
  · subst hkey
    cases cmd with
    | sadd key member =>
      obtain ⟨ht, taskId, rfl⟩ := h
      rw [PipeCmd.exec, PipeCmd.run, sadd_ok ht member]
      exact Redis.isSet_put_set ..
    | expire key ttl =>
      rw [PipeCmd.exec, PipeCmd.run, expireKey_ok]
      cases key with
      | children taskId => exact (Redis.isSet_expire ..).mpr hk
      | deps jobId => exact (Redis.isHash_expire ..).mpr hk
      | taskMeta taskId => exact hk
      | tasks => exact (Redis.isStream_expire ..).mpr hk
      | errors => exact (Redis.isStream_expire ..).mpr hk
    | set key payload ttl =>
      obtain ⟨taskId, rfl⟩ := h
      exact hk
    | hset key field value =>
      obtain ⟨ht, jobId, rfl⟩ := h
      rw [PipeCmd.exec, PipeCmd.run, hset_ok ht field value]
      exact Redis.isHash_put_hash ..
    | xadd key fields =>
      obtain ⟨ht, rfl⟩ := h
      rw [PipeCmd.exec, PipeCmd.run, RedisM.bind_ok (xadd_ok ht fields)]
      exact Redis.isStream_put_stream ..
  · obtain ⟨slot, hslot⟩ := exec_eq_put h
    rw [hslot]
    exact (keyTyped_put_ne hkey slot).mpr hk

/-- A command acts on the countdown of every job as `act` says. -/
theorem exec_view (jobId : String) (h : cmd.Fits r) :
    view jobId (cmd.exec r) = cmd.act jobId (view jobId r) := by
  cases cmd with
  | sadd key member =>
    obtain ⟨ht, taskId, rfl⟩ := h
    rw [PipeCmd.exec, PipeCmd.run, sadd_ok ht member, view_put_children, PipeCmd.act,
      RedisSet.toFinset_insert]
    rfl
  | expire key ttl =>
    rw [PipeCmd.exec, PipeCmd.run, expireKey_ok]
    simp [view, PipeCmd.act]
  | set key payload ttl =>
    obtain ⟨taskId, rfl⟩ := h
    rw [PipeCmd.exec, PipeCmd.run, setEx_ok, view_put_meta]
    rfl
  | hset key field value =>
    obtain ⟨ht, job, rfl⟩ := h
    rw [PipeCmd.exec, PipeCmd.run, hset_ok ht field value, PipeCmd.act]
    by_cases hjob : job = jobId
    · subst hjob
      rw [view_put_deps, RedisHash.lookup_insert, if_pos rfl]
      rfl
    · simp [hjob, view, Ne.symm hjob]
  | xadd key fields =>
    obtain ⟨ht, rfl⟩ := h
    rw [PipeCmd.exec, PipeCmd.run, RedisM.bind_ok (xadd_ok ht fields)]
    show view jobId (r.put kTasks _) = _
    rw [view_put_tasks]
    have hentry : [(⟨(r.streamAt kTasks).nextId r.now, fields⟩ : StreamEntry)].filterMap
        StreamEntry.taskId? = (StreamEntry.taskId? ⟨0, fields⟩).toList := by
      rw [← taskId?_id ((r.streamAt kTasks).nextId r.now)]
      cases h : StreamEntry.taskId? ⟨(r.streamAt kTasks).nextId r.now, fields⟩ <;> simp [h]
    simp [view, PipeCmd.act, Stream.add, hentry]

/-- No command writes to the error stream. -/
theorem exec_errors (h : cmd.Fits r) : (cmd.exec r).streamAt kErrors = r.streamAt kErrors := by
  cases cmd with
  | expire key ttl =>
    rw [PipeCmd.exec, PipeCmd.run, expireKey_ok]
    exact Redis.streamAt_expire ..
  | sadd key member =>
    obtain ⟨-, taskId, rfl⟩ := id h
    exact Redis.streamAt_congr (exec_keys_ne (by simp [PipeCmd.key]))
  | set key payload ttl =>
    obtain ⟨taskId, rfl⟩ := id h
    exact Redis.streamAt_congr (exec_keys_ne (by simp [PipeCmd.key]))
  | hset key field value =>
    obtain ⟨-, jobId, rfl⟩ := id h
    exact Redis.streamAt_congr (exec_keys_ne (by simp [PipeCmd.key]))
  | xadd key fields =>
    obtain ⟨-, rfl⟩ := id h
    exact Redis.streamAt_congr (exec_keys_ne (by simp [PipeCmd.key]))

/-- A command stays applicable. -/
theorem exec_fits {cmd' : PipeCmd} (h : cmd.Fits r) (h' : cmd'.Fits r) :
    cmd'.Fits (cmd.exec r) := by
  cases cmd' with
  | sadd key member => exact ⟨exec_typed h h'.1, h'.2⟩
  | expire key ttl => trivial
  | set key payload ttl => exact h'
  | hset key field value => exact ⟨exec_typed h h'.1, h'.2⟩
  | xadd key fields => exact ⟨exec_typed h h'.1, h'.2⟩

end Exec

/-! ## A pipeline -/

section Pipeline

variable {cmds : List PipeCmd} {r : Redis}

@[simp] theorem execPipeline_nil : execPipeline [] r = r := rfl

@[simp] theorem execPipeline_cons (cmd : PipeCmd) :
    execPipeline (cmd :: cmds) r = execPipeline cmds (cmd.exec r) := rfl

/-- The countdown operations of a list of commands, in order. -/
def actAll (jobId : String) (cmds : List PipeCmd) (s : Countdown.State String) :
    Countdown.State String :=
  cmds.foldl (fun s cmd => cmd.act jobId s) s

theorem actAll_append (jobId : String) (more : List PipeCmd) (s : Countdown.State String) :
    actAll jobId (cmds ++ more) s = actAll jobId more (actAll jobId cmds s) :=
  List.foldl_append ..

/-- An EXPIRE does nothing to a countdown. -/
theorem actAll_filter (jobId : String) (s : Countdown.State String) :
    actAll jobId (cmds.filter fun cmd => !cmd.isExpire) s = actAll jobId cmds s := by
  induction cmds generalizing s with
  | nil => rfl
  | cons cmd rest ih =>
    cases cmd with
    | expire key ttl => exact ih s
    | _ => exact ih _

theorem execPipeline_errors (h : ∀ cmd ∈ cmds, cmd.Fits r) :
    (execPipeline cmds r).streamAt kErrors = r.streamAt kErrors := by
  induction cmds generalizing r with
  | nil => rfl
  | cons cmd rest ih =>
    obtain ⟨hcmd, hrest⟩ := List.forall_mem_cons.mp h
    rw [execPipeline_cons, ih fun cmd' hmem => exec_fits hcmd (hrest cmd' hmem),
      exec_errors hcmd]

/-- A pipeline keeps the types of all keys. -/
theorem execPipeline_typed {k : Key} (h : ∀ cmd ∈ cmds, cmd.Fits r) (hk : KeyTyped r k) :
    KeyTyped (execPipeline cmds r) k := by
  induction cmds generalizing r with
  | nil => exact hk
  | cons cmd rest ih =>
    obtain ⟨hcmd, hrest⟩ := List.forall_mem_cons.mp h
    exact ih (fun cmd' hmem => exec_fits hcmd (hrest cmd' hmem)) (exec_typed hcmd hk)

/-- A pipeline acts on the countdown of every job, command by command. -/
theorem execPipeline_view (jobId : String) (h : ∀ cmd ∈ cmds, cmd.Fits r) :
    view jobId (execPipeline cmds r) = actAll jobId cmds (view jobId r) := by
  induction cmds generalizing r with
  | nil => rfl
  | cons cmd rest ih =>
    obtain ⟨hcmd, hrest⟩ := List.forall_mem_cons.mp h
    rw [execPipeline_cons, ih fun cmd' hmem => exec_fits hcmd (hrest cmd' hmem),
      exec_view jobId hcmd]
    rfl

end Pipeline

end DistTaskSystem
