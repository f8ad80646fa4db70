import Mathlib.Data.Option.Basic

/-!
# The answers of an RPC handler

A handler returns a value or an error.  An error carries a status code, or it is
a plain Go error, which reaches the client with the code `unknown`.  A handler may also panic,
which answers nothing and ends the process.
-/

namespace SonicGnmi.Grpc

/-- `codes.Code`, without `OK`. -/
inductive Code where
  | canceled
  | unknown
  | invalidArgument
  | deadlineExceeded
  | notFound
  | alreadyExists
  | permissionDenied
  | resourceExhausted
  | failedPrecondition
  | aborted
  | outOfRange
  | unimplemented
  | internal
  | unavailable
  | dataLoss
  | unauthenticated
  deriving DecidableEq, Repr

/-- A status error. -/
structure Status where
  code : Code
  message : String
  deriving DecidableEq, Repr

/-- `fmt.Errorf` seen from the client. -/
def plainError (message : String) : Status where
  code := .unknown
  message := message

/-- `codes.Code.String`. -/
def Code.text : Code → String
  | .canceled => "Canceled"
  | .unknown => "Unknown"
  | .invalidArgument => "InvalidArgument"
  | .deadlineExceeded => "DeadlineExceeded"
  | .notFound => "NotFound"
  | .alreadyExists => "AlreadyExists"
  | .permissionDenied => "PermissionDenied"
  | .resourceExhausted => "ResourceExhausted"
  | .failedPrecondition => "FailedPrecondition"
  | .aborted => "Aborted"
  | .outOfRange => "OutOfRange"
  | .unimplemented => "Unimplemented"
  | .internal => "Internal"
  | .unavailable => "Unavailable"
  | .dataLoss => "DataLoss"
  | .unauthenticated => "Unauthenticated"

/-- Why a call returned no value: a status error, a plain error, or a panic. -/
inductive Fault where
  | status (status : Status)
  | plain (text : String)
  | panic (reason : String)
  deriving DecidableEq, Repr

/-- `status.Error`. -/
def statusError {Value : Type} (code : Code) (message : String) : Except Fault Value :=
  .error (.status ⟨code, message⟩)

/-- `status.Error(code, err.Error())`; a panic stays one. -/
def Fault.withCode (code : Code) : Fault → Fault
  | .status s =>
    .status ⟨code, "rpc error: code = " ++ s.code.text ++ " desc = " ++ s.message⟩
  | .plain text => .status ⟨code, text⟩
  | .panic reason => .panic reason

/-- `status.Errorf(code, head + "%v", err)`; a panic stays one. -/
def Fault.wrap (code : Code) (head : String) : Fault → Fault
  | .status s =>
    .status ⟨code, head ++ "rpc error: code = " ++ s.code.text ++ " desc = " ++ s.message⟩
  | .plain text => .status ⟨code, head ++ text⟩
  | .panic reason => .panic reason

end SonicGnmi.Grpc
