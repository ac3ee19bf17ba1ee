import Mathlib.Algebra.Group.Nat.Defs
import Mathlib.Data.List.Basic
import Mathlib.Data.Rat.Defs

/-!
# DTS — tasks and their messages

The records the processes exchange (`dts/task/*.proto`, `dts/service/*.proto`,
`dts/internal/*.proto`, `task.hpp`, `dag.hpp`) and the field-by-field
conversions of `converters.cpp`. Protobuf messages keep the widths of the
schema; a `double` is kept as its 64-bit pattern, since no modelled function
computes with one.

The JSON library is a parameter wherever its text format matters: `dump` and
`parse` are the two functions of `nlohmann::json` the program calls.
-/

namespace DistTaskSystem

/-- The bit pattern of a C++ `double`. -/
abbrev DoubleBits := UInt64

/-! ## JSON values and `google.protobuf.Struct` -/

/-- A `nlohmann::json` value; object members stand in key order. -/
inductive Json where
  | null
  | bool (b : Bool)
  | number (q : Rat)
  | string (s : String)
  | array (items : List Json)
  | object (members : List (String × Json))
deriving Repr, Inhabited

/-- The cases of `google.protobuf.Value` the program reads or writes. -/
inductive PbValue where
  | nullValue
  | numberValue (q : Rat)
  | stringValue (s : String)
  | boolValue (b : Bool)
  | structValue (fields : List (String × PbValue))
deriving Repr, Inhabited

abbrev PbStruct := List (String × PbValue)

mutual

/-- One iteration of the loop in `JsonToStruct`: the value stored under a key. -/
def jsonToValue : Json → PbValue
  | .bool b => .boolValue b
  | .number q => .numberValue q
  | .string s => .stringValue s
  | .null => .nullValue
  -- arrays and objects both go through `mutable_struct_value`
  | .array items => .structValue (itemsToStruct 0 items)
  | .object members => .structValue (membersToStruct members)

/-- The fields of an array: `items()` numbers the elements. -/
def itemsToStruct (i : Nat) : List Json → PbStruct
  | [] => []
  | v :: rest => (toString i, jsonToValue v) :: itemsToStruct (i + 1) rest

/-- The fields of an object. -/
def membersToStruct : List (String × Json) → PbStruct
  | [] => []
  | (k, v) :: rest => (k, jsonToValue v) :: membersToStruct rest

end

/-- `JsonToStruct`. A primitive other than null iterates over itself once,
under the empty key. -/
def jsonToStruct : Json → PbStruct
  | .null => []
  | .array items => itemsToStruct 0 items
  | .object members => membersToStruct members
  | j => [("", jsonToValue j)]

mutual

/-- The assignment in `StructToJson`, if the case at hand makes one. -/
def valueToJson? : PbValue → Option Json
  | .boolValue b => some (.bool b)
  | .numberValue q => some (.number q)
  | .stringValue s => some (.string s)
  | .structValue fields => some (.object (structToMembers fields))
  -- the default case of the switch assigns nothing
  | .nullValue => none

/-- The members `StructToJson` sets. -/
def structToMembers : PbStruct → List (String × Json)
  | [] => []
  | (k, v) :: rest =>
    match valueToJson? v with
    | some j => (k, j) :: structToMembers rest
    | none => structToMembers rest

end

/-- `StructToJson`. -/
def structToJson (fields : PbStruct) : Json :=
  .object (structToMembers fields)

/-! ## Task states -/

/-- `dts.task.TaskState`. The enumeration is open on the wire: an unlisted
number survives parsing. -/
inductive TaskState where
  | pending
  | running
  | success
  | failed
  | timeout
  | cancelled
  | waitingDeps
  | unrecognized (n : Int)
deriving DecidableEq, Repr

/-- The number a state is stored and sent as. -/
def TaskState.toInt : TaskState → Int
  | .pending => 0
  | .running => 1
  | .success => 2
  | .failed => 3
  | .timeout => 4
  | .cancelled => 5
  | .waitingDeps => 6
  | .unrecognized n => n

/-! ## Messages -/

/-- `dts.task.TaskEdge`, and `dts::TaskEdge`. -/
structure TaskEdge where
  parentNaturalId : String
  childNaturalId : String
deriving DecidableEq, Repr

/-- `dts.common.Resource`, and `dts::Resource`. -/
structure Resource where
  cpuCore : DoubleBits := 0
  memMb : UInt64 := 0
deriving DecidableEq, Repr

/-- `dts.common.Shard`; `dts::Shard` has the default `total_shards = 1`. -/
structure Shard where
  shardId : UInt32 := 0
  totalShards : UInt32 := 0
deriving DecidableEq, Repr

/-- The message `dts.task.Task`. -/
structure PbTask where
  taskId : String := ""
  naturalId : String := ""
  jobId : String := ""
  pendingDependencies : Int := 0
  clientId : String := ""
  priority : UInt32 := 0
  state : TaskState := .pending
  funcName : String := ""
  funcParams : String := ""
  required : Resource := {}
  shard : Shard := {}
  timeoutMs : UInt32 := 0
  maxRetry : UInt32 := 0
  retryCount : UInt32 := 0
  submitTs : Int := 0
  startTs : Int := 0
  finishTs : Int := 0
  result : PbStruct := []
  errorMsg : String := ""

/-- The message `dts.service.SubmitDagRequest`. -/
structure SubmitDagRequest where
  idempotencyKey : String
  tasks : List PbTask
  edges : List TaskEdge
  clientId : String := ""
  /-- the size of a repeated field is an `int` -/
  edgesSize : edges.length < 2 ^ 31

theorem SubmitDagRequest.edgesSize_nil : ([] : List TaskEdge).length < 2 ^ 31 := by decide

def SubmitDagRequest.naturalIds (req : SubmitDagRequest) : List String :=
  req.tasks.map PbTask.naturalId

/-- The message `dts.internal.UpdateTaskStatusRequest`. -/
structure UpdateTaskStatusRequest where
  taskId : String
  finalState : TaskState
  errorMsg : String := ""
  resultJson : String := ""
  jobId : String := ""
  retryCount : Int := 0
  workerId : String := ""

/-- The struct `dts::Task`. -/
structure Task where
  jobId : String := ""
  taskId : String := ""
  naturalId : String := ""
  clientId : String := ""
  streamId : String := ""
  priority : UInt32 := 0
  state : TaskState := .pending
  pendingDependencies : Int := 0
  funcName : String := ""
  funcParams : Json := .null
  required : Resource := {}
  shard : Shard := { totalShards := 1 }
  timeoutMs : UInt32 := 30000
  maxRetry : UInt32 := 3
  retryCount : UInt32 := 0
  submitTs : Int := 0
  startTs : Int := 0
  finishTs : Int := 0
  result : Json := .null
  errorMsg : String := ""

/-! ## Conversions -/

/-- `TaskToProto`. The stream id is not part of the message. -/
def taskToProto (dump : Json → String) (task : Task) : PbTask where
  taskId := task.taskId
  naturalId := task.naturalId
  clientId := task.clientId
  jobId := task.jobId
  priority := task.priority
  state := task.state
  funcName := task.funcName
  funcParams := dump task.funcParams
  required := task.required
  shard := task.shard
  timeoutMs := task.timeoutMs
  maxRetry := task.maxRetry
  retryCount := task.retryCount
  submitTs := task.submitTs
  startTs := task.startTs
  finishTs := task.finishTs
  result := jsonToStruct task.result
  errorMsg := task.errorMsg
  pendingDependencies := task.pendingDependencies

/-- How `nlohmann::json::parse` refuses a text. -/
inductive JsonError where
  | parseError
  | outOfRange
deriving DecidableEq, Repr

/-- `TaskFromProto`. Only `parse_error` is caught; any other exception of the
parser leaves the function. -/
def taskFromProto (parse : String → Except JsonError Json) (proto : PbTask) :
    Except JsonError Task := do
  let funcParams ←
    if proto.funcParams = "" then pure (.object [])
    else match parse proto.funcParams with
      | .ok j => pure j
      | .error .parseError => pure (.object [])
      | .error e => throw e
  return {
    taskId := proto.taskId
    naturalId := proto.naturalId
    jobId := proto.jobId
    clientId := proto.clientId
    priority := proto.priority
    state := proto.state
    funcName := proto.funcName
    funcParams := funcParams
    required := proto.required
    shard := proto.shard
    timeoutMs := proto.timeoutMs
    maxRetry := proto.maxRetry
    retryCount := proto.retryCount
    submitTs := proto.submitTs
    startTs := proto.startTs
    finishTs := proto.finishTs
    result := structToJson proto.result
    errorMsg := proto.errorMsg
    pendingDependencies := proto.pendingDependencies }

/-- The parser refuses the parameters of the message otherwise than by a
`parse_error`. -/
def PbTask.Poisonous (parse : String → Except JsonError Json) (proto : PbTask) : Prop :=
  proto.funcParams ≠ "" ∧ parse proto.funcParams = .error .outOfRange

section TaskFromProto

variable {parse : String → Except JsonError Json} {proto : PbTask} {task : Task}

/-- **TaskFromProto throws** exactly on such a message. -/
theorem taskFromProto_ok_iff : (∃ task, taskFromProto parse proto = .ok task) ↔
    ¬ proto.Poisonous parse := by
  by_cases hempty : proto.funcParams = ""
  · have hfine : ¬ proto.Poisonous parse := fun h => h.1 hempty
    rw [taskFromProto, if_pos hempty]
    exact iff_of_true ⟨_, rfl⟩ hfine
  · rw [taskFromProto, if_neg hempty]
    cases hparse : parse proto.funcParams with
    | ok j =>
      exact iff_of_true ⟨_, rfl⟩ fun h => nomatch hparse.symm.trans h.2
    | error e =>
      cases e with
      | parseError => exact iff_of_true ⟨_, rfl⟩ fun h => nomatch hparse.symm.trans h.2
      | outOfRange => exact iff_of_false (fun ⟨task, h⟩ => nomatch h) fun h => h ⟨hempty, hparse⟩

/-- A converted message keeps its ids. -/
theorem taskFromProto_ids (h : taskFromProto parse proto = .ok task) :
    task.taskId = proto.taskId ∧ task.jobId = proto.jobId ∧ task.funcName = proto.funcName := by
  by_cases hempty : proto.funcParams = ""
  · rw [taskFromProto, if_pos hempty] at h
    obtain rfl := Except.ok.inj h
    exact ⟨rfl, rfl, rfl⟩
  · rw [taskFromProto, if_neg hempty] at h
    split at h
    · obtain rfl := Except.ok.inj h
      exact ⟨rfl, rfl, rfl⟩
    · obtain rfl := Except.ok.inj h
      exact ⟨rfl, rfl, rfl⟩
    · exact nomatch h

end TaskFromProto

end DistTaskSystem
