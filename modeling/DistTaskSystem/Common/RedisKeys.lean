import DistTaskSystem.Common.Redis
import Mathlib.Tactic.Common

/-!
# DTS — key builders and stream pointers

The keys of `RedisKeys.hpp` the DAG engine uses and the stream entries that
point to a task (`TaskSerializer.hpp`). The builders share one namespace of
texts, so their disjointness is a fact about prefixes; it is proved once, for
the structured key `Key`, as `Key.text_inj`.
-/

namespace DistTaskSystem

/-- The keys of the DAG engine. -/
inductive Key where
  | children (taskId : String)
  | deps (jobId : String)
  | taskMeta (taskId : String)
  | tasks
  | errors
deriving DecidableEq

/-- The text of a key, as `std::format("{}{}", prefix, id)` prints it. -/
def Key.text : Key → String
  | .children taskId => "dts:dag:children:" ++ taskId
  | .deps jobId => "dts:dag:deps:" ++ jobId
  | .taskMeta taskId => "dts:task:meta:" ++ taskId
  | .tasks => "dts:stream:tasks"
  | .errors => "dts:stream:errors"

/-- What the text of a key starts with. -/
def Key.start : Key → String
  | .children _ => "dts:dag:children:"
  | .deps _ => "dts:dag:deps:"
  | .taskMeta _ => "dts:task:meta:"
  | .tasks => "dts:stream:tasks"
  | .errors => "dts:stream:errors"

theorem Key.text_eq (a : Key) : ∃ id, a.text = a.start ++ id := by
  cases a with
  | children taskId => exact ⟨taskId, rfl⟩
  | deps jobId => exact ⟨jobId, rfl⟩
  | taskMeta taskId => exact ⟨taskId, rfl⟩
  | tasks => exact ⟨"", by decide⟩
  | errors => exact ⟨"", by decide⟩

/-- Of two starts of one text, one is a start of the other. -/
theorem start_of_append_eq {p q x y : String} (h : p ++ x = q ++ y) :
    p.toList <+: q.toList ∨ q.toList <+: p.toList := by
  have hlist : p.toList ++ x.toList = q.toList ++ y.toList := by
    rw [← String.toList_append, h, String.toList_append]
  exact List.prefix_or_prefix_of_prefix ⟨x.toList, rfl⟩ ⟨y.toList, hlist.symm⟩

/-- The builders are injective and their ranges disjoint. -/
@[simp] theorem Key.text_inj {a b : Key} : a.text = b.text ↔ a = b := by
  refine ⟨fun h => ?_, fun h => by rw [h]⟩
  obtain ⟨x, hx⟩ := a.text_eq
  obtain ⟨y, hy⟩ := b.text_eq
  have hstart := start_of_append_eq (hx.symm.trans (h.trans hy))
  cases a <;> cases b
  case children.children => rw [(String.append_right_inj _).mp h]
  case deps.deps => rw [(String.append_right_inj _).mp h]
  case taskMeta.taskMeta => rw [(String.append_right_inj _).mp h]
  case tasks.tasks => rfl
  case errors.errors => rfl
  -- neither start is a start of the other
  all_goals exact absurd hstart (by simp only [Key.start]; decide)

/-- `keys::dag::Children`. -/
abbrev childrenKey (taskId : String) : String := (Key.children taskId).text

/-- `keys::dag::DependencyHash`. -/
abbrev dependencyHash (jobId : String) : String := (Key.deps jobId).text

/-- `keys::dag::TaskMeta`. -/
abbrev taskMeta (taskId : String) : String := (Key.taskMeta taskId).text

/-- `keys::stream::kTasks`. -/
abbrev kTasks : String := Key.tasks.text

/-- `keys::stream::kErrors`. -/
abbrev kErrors : String := Key.errors.text

/-- `keys::stream::kGroupMain`. -/
def kGroupMain : String := "dts:group:main"

/-! ## Stream pointers -/

/-- `StreamTaskPointer`. -/
structure StreamTaskPointer where
  taskId : String
  jobId : String
  streamId : Nat
deriving DecidableEq, Repr

/-- One iteration of the field loop of `ParseStreamEntry`: both spellings of a
field are accepted, and a later field overwrites an earlier one. -/
def parseField (acc : Option String × String) (field : String × String) :
    Option String × String :=
  if field.1 = "id" ∨ field.1 = "task_id" then (some field.2, acc.2)
  else if field.1 = "job" ∨ field.1 = "job_id" then (acc.1, field.2)
  else acc

/-- `TaskSerializer::ParseStreamEntry`. -/
def parseStreamEntry (entry : StreamEntry) : Option StreamTaskPointer :=
  match entry.fields.foldl parseField (none, "") with
  | (some taskId, jobId) => some ⟨taskId, jobId, entry.id⟩
  | (none, _) => none

/-- `TaskSerializer::ToXAddArgs`, and `BuildXAddFieldsFromProto`. -/
def toXAddArgs (taskId jobId : String) : List (String × String) :=
  [("id", taskId), ("job", jobId)]

/-- The task an entry points to. -/
def StreamEntry.taskId? (entry : StreamEntry) : Option String :=
  (parseStreamEntry entry).map StreamTaskPointer.taskId

/-- How many entries of the task stream point to a task. -/
def streamCount (r : Redis) (t : String) : Nat :=
  ((r.streamAt kTasks).entries.filterMap StreamEntry.taskId?).count t

/-- The id of an entry says nothing about its task. -/
theorem taskId?_id (id : Nat) (fields : List (String × String)) :
    StreamEntry.taskId? ⟨id, fields⟩ = StreamEntry.taskId? ⟨0, fields⟩ := by
  simp only [StreamEntry.taskId?, parseStreamEntry]
  split <;> rfl

@[simp] theorem taskId?_toXAddArgs (id : Nat) (taskId jobId : String) :
    StreamEntry.taskId? ⟨id, toXAddArgs taskId jobId⟩ = some taskId := by
  simp [StreamEntry.taskId?, parseStreamEntry, toXAddArgs, parseField]

@[simp] theorem taskId?_script (id : Nat) (taskId jobId : String) :
    StreamEntry.taskId? ⟨id, [("task_id", taskId), ("job_id", jobId)]⟩ = some taskId := by
  simp [StreamEntry.taskId?, parseStreamEntry, parseField]

end DistTaskSystem
