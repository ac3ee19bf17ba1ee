import DistTaskSystem.Client.Coroutine
import DistTaskSystem.Client.DagBuilder

/-!
# DTS — submission over http

`handle_dag_submit` reads the posted document and builds a DAG as it goes: each task is
added when it has been read, each edge likewise, so that the first thing that is wrong
ends the request, be it in the text or in the graph. What was built is forwarded through
`AsyncSubmitBridge`. A chain of `catch` clauses turns what was thrown into a status, and
answers with the text of the exception. That text can quote the body, which is any bytes,
whereas json is UTF-8: where it is not, the clause throws itself.

Of `nlohmann::json` the model has the accessors the handler uses. Its parser, its texts
and its conversion of a number that the target type cannot hold are parameters. Where a
task or an edge lacks several fields, C++ leaves open which of them is reported; here it is
the first.
-/

namespace DistTaskSystem

-- ---------------------------------------------------------------------------
-- JSON values
-- ---------------------------------------------------------------------------

/-- The exceptions of `nlohmann::json`. -/
inductive JsonFault where
  /-- with the text of the parser, which quotes the body -/
  | parse (text : ByteArray)
  /-- `type must be`, but is not -/
  | mustBe (type : String) (j : Json)
  /-- `cannot use` a method `with` a value of this type -/
  | cannotUse (method : String) (j : Json)
  | keyNotFound (key : String)
  /-- `dump` met a string that is not UTF-8 -/
  | invalidUtf8

/-- What the handler uses of `nlohmann::json`. -/
structure JsonLibrary where
  parse : ByteArray → Except JsonFault Json
  dump : Json → String
  what : JsonFault → ByteArray
  /-- a number, as an integer of a type that cannot hold it -/
  wide : Rat → Int
  toDouble : Rat → DoubleBits

/-- `at(key)`. -/
def Json.at (j : Json) (key : String) : Except JsonFault Json :=
  match j with
  | .object members =>
    match members.lookup key with
    | some member => .ok member
    | none => .error (.keyNotFound key)
  | j => .error (.cannotUse "at()" j)

/-- `value(key, default)`, with the conversion to the type of the default. -/
def Json.value {α : Type} (j : Json) (key : String) (get : Json → Except JsonFault α)
    (default : α) : Except JsonFault α :=
  match j with
  | .object members =>
    match members.lookup key with
    | some member => get member
    | none => .ok default
  | j => .error (.cannotUse "value()" j)

/-- `contains(key)`. -/
def Json.contains (j : Json) (key : String) : Bool :=
  match j with
  | .object members => (members.lookup key).isSome
  | _ => false

/-- What a loop over the value runs through. A primitive other than null is its own only
element. -/
def Json.elements : Json → List Json
  | .null => []
  | .array items => items
  | .object members => members.map Prod.snd
  | j => [j]

def Json.getString : Json → Except JsonFault String
  | .string s => .ok s
  | j => .error (.mustBe "string" j)

namespace JsonLibrary

variable (lib : JsonLibrary)

/-- The conversion of a number to an integer type from `lo` below `hi`. -/
def toInteger (lo hi : Int) (q : Rat) : Int :=
  let n := q.num.tdiv q.den
  if lo ≤ n ∧ n < hi then n else lib.wide q

/-- `get<int>`. It takes a boolean for a number. -/
def getInt : Json → Except JsonFault Int
  | .number q => .ok (lib.toInteger (-2 ^ 31) (2 ^ 31) q)
  | .bool b => .ok b.toInt
  | j => .error (.mustBe "number" j)

/-- `get<std::uint32_t>`, which does so, too. -/
def getUInt32 : Json → Except JsonFault UInt32
  | .number q => .ok (.ofInt (lib.toInteger 0 (2 ^ 32) q))
  | .bool b => .ok (.ofInt b.toInt)
  | j => .error (.mustBe "number" j)

/-- `get<std::uint64_t>`. -/
def getUInt64 : Json → Except JsonFault UInt64
  | .number q => .ok (.ofInt (lib.toInteger 0 (2 ^ 64) q))
  | j => .error (.mustBe "number" j)

/-- `get<double>`. -/
def getDouble : Json → Except JsonFault DoubleBits
  | .number q => .ok (lib.toDouble q)
  | j => .error (.mustBe "number" j)

/-- `from_json` of a `Resource`. -/
def getResource (j : Json) : Except JsonFault Resource := do
  let cpuCore ← (j.at "cpu_core").bind lib.getDouble
  let memMb ← (j.at "mem_mb").bind lib.getUInt64
  return { cpuCore := cpuCore, memMb := memMb }

/-- `from_json` of a `Shard`. -/
def getShard (j : Json) : Except JsonFault Shard := do
  let shardId ← (j.at "shard_id").bind lib.getUInt32
  let totalShards ← (j.at "total_shards").bind lib.getUInt32
  return { shardId := shardId, totalShards := totalShards }

/-- A member that may be missing. -/
def getOptional {α : Type} (j : Json) (key : String) (get : Json → Except JsonFault α) :
    Except JsonFault (Option α) :=
  if j.contains key then ((j.at key).bind get).map some else .ok none

/-- `ParseJsonToTask`: what it assigns to the task. -/
def parseJsonToTask (jTask : Json) : Except JsonFault (Task → Task) := do
  let priority ← jTask.value "priority" lib.getInt 0
  let timeoutMs ← jTask.value "timeout_ms" lib.getInt 30000
  let maxRetry ← jTask.value "max_retry" lib.getInt 3
  let required ← getOptional jTask "required" lib.getResource
  let shard ← getOptional jTask "shard" lib.getShard
  return fun task => { task with
    priority := .ofInt priority
    timeoutMs := .ofInt timeoutMs
    maxRetry := .ofInt maxRetry
    required := required.getD task.required
    shard := shard.getD task.shard }

end JsonLibrary

-- ---------------------------------------------------------------------------
-- The handler
-- ---------------------------------------------------------------------------

/-- What is thrown in the handler. -/
inductive WebException where
  | json (fault : JsonFault)
  | invalidArgument (what : String)
  /-- the `GrpcError` of `exceptions.hpp`, which is not the one of `grpc_error.h` -/
  | dtsGrpcError (what : String)
  | runtimeError (what : String)
  | other (what : String)
  /-- the process is gone -/
  | aborted

/-- What `DagBuilder` throws. -/
def BuilderError.toWeb : BuilderError → WebException
  | .invalidArgument msg => .invalidArgument msg
  | .runtimeError msg => .runtimeError msg
  | .aborted => .aborted
  | .outOfFuel => .aborted

def fromJson {α : Type} (x : Except JsonFault α) : Except WebException α := x.mapError .json

def fromBuilder {α : Type} (x : Except BuilderError α) : Except WebException α :=
  x.mapError BuilderError.toWeb

namespace JsonLibrary

variable (lib : JsonLibrary)

/-- One round of the loop over the tasks. -/
def addJsonTask (builder : DagBuilder) (jTask : Json) : Except WebException DagBuilder := do
  let naturalId ← fromJson ((jTask.at "natural_id").bind Json.getString)
  let funcName ← fromJson ((jTask.at "func_name").bind Json.getString)
  let funcParams ← fromJson (jTask.value "func_params" .ok .null)
  let builder ← fromBuilder (builder.addTask naturalId funcName funcParams)
  let edit ← fromJson (lib.parseJsonToTask jTask)
  return builder.editTask naturalId edit

end JsonLibrary

/-- One round of the loop over the edges. -/
def addJsonEdge (builder : DagBuilder) (jEdge : Json) : Except WebException DagBuilder := do
  let parent ← fromJson ((jEdge.at "parent").bind Json.getString)
  let child ← fromJson ((jEdge.at "child").bind Json.getString)
  fromBuilder (builder.addDependency parent child)

namespace JsonLibrary

variable (lib : JsonLibrary)

/-- `handle_dag_submit`, up to the call of `AsyncSubmitBridge`. -/
def buildRequest (body : ByteArray) : Except WebException SubmitDagRequest := do
  let jBody ← fromJson (lib.parse body)
  let idempotencyKey ← fromJson ((jBody.at "idempotency_key").bind Json.getString)
  let jTasks ← fromJson (jBody.at "tasks")
  let jEdges ← fromJson (jBody.value "edges" .ok (.array []))
  let builder ← fromBuilder (DagBuilder.new idempotencyKey)
  let builder ← jTasks.elements.foldlM lib.addJsonTask builder
  let builder ← jEdges.elements.foldlM addJsonEdge builder
  fromBuilder (builder.buildProto lib.dump)

end JsonLibrary

end DistTaskSystem
