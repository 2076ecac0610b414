import Inlay.Duration

namespace Inlay

inductive Fault.Kind where
  | brokenPipe
  | interrupted
  | wouldBlock
  | permissionDenied
  | unexpectedEof
  | notFound
  | writeZero
  | unsupported
  | uncategorized
  | other
deriving DecidableEq, Repr

structure Fault where
  kind : Fault.Kind
  message : Text
deriving DecidableEq, Repr

structure TaskFailure where
  title : Text
  message : Text
deriving DecidableEq, Repr

def TaskFailure.text (failure : TaskFailure) : Text := failure.title ++ ": " ++ failure.message

inductive Failure where
  /-- A frame could not be written. -/
  | output (fault : Fault)
  /-- The keyboard could not be read. -/
  | keyboard (fault : Fault)
  | cancelled
  /-- The time limit set for a prompt ran out. -/
  | timeout (limit : Duration)
  /-- A deadline of the caller's ran out. -/
  | deadlineExceeded
  | render (text : Text)
  | tasks (failures : List TaskFailure)
  /-- A deadline lies beyond what the clock can count. -/
  | clockOverflow
deriving DecidableEq, Repr

namespace Failure

def message : Failure → Text
  | output fault => "failed to write to terminal: " ++ fault.message
  | keyboard fault => "keyboard input failed: " ++ fault.message
  | cancelled => "cancelled by user"
  | timeout limit => "prompt timed out after " ++ limit.short
  | deadlineExceeded => "deadline exceeded"
  | render text => "render failed: " ++ text
  | tasks failures => Text.join "\n" (failures.map TaskFailure.text)
  | clockOverflow => "overflow when adding duration to instant"

def isCancelled : Failure → Bool
  | cancelled => true
  | _ => false

def isTimeout : Failure → Bool
  | timeout _ => true
  | _ => false

end Failure

end Inlay
