/-!
# DTS — the messages of the api server

What `TaskService` answers with (`task_service.proto`, `error.proto`): every response
has a header in front of its own fields, and says there what went wrong.
-/

namespace DistTaskSystem

/-- The code of `dts.error.Error`, a number of one of the two enumerations. -/
inductive ErrorCode where
  | sys (code : Int)
  | job (code : Int)
deriving DecidableEq, Repr

/-- `SYS_INTERNAL`. -/
def ErrorCode.sysInternal : ErrorCode := .sys 4

/-- The message `dts.error.Error`. -/
structure ApiError where
  code : Option ErrorCode := none
  msg : String := ""
deriving DecidableEq, Repr

/-- The message `dts.service.RpcRespHeader`. -/
structure RpcRespHeader where
  error : Option ApiError := none
  requestId : String := ""
deriving DecidableEq, Repr

/-- A response: its header, and the fields behind it, which the server passes on. -/
structure ApiResponse (Body : Type) where
  header : RpcRespHeader := {}
  body : Body

/-- The message `dts.service.SubmitDagResponse`; its own field is `job_id`. -/
abbrev SubmitDagResponse := ApiResponse String

end DistTaskSystem
