import WasmHost.Fault

set_option autoImplicit false

/-! # How a run ends

`Outcome.classify` turns the failure of a run into one of a few outcomes, by the type of its cause
and never by its text, whatever contexts were added to it. An outcome has one line of text and a
process exit code, which is zero exactly for the outcomes that count as success. -/

namespace WasmHost

/-- How a run ended. -/
inductive Outcome where
  /-- The entry point returned a status. -/
  | returned (moduleName entry : String) (status : Int32)
  /-- The program asked to stop. -/
  | terminated (status : Int32) (reason : String)
  /-- The program called a function without an implementation. -/
  | unimplemented (what : String)
  /-- The program trapped. -/
  | trap (kind : TrapKind)
  /-- Anything else. -/
  | unknown (message : String)
deriving DecidableEq

namespace Outcome

/-- The outcome of a run that failed. -/
def classify (f : Failure) : Outcome :=
  match f.cause with
  | .fault (.terminate status reason) => .terminated status reason
  | .fault (.unimplemented what) => .unimplemented what
  | .fault (.trap kind) => .trap kind
  | .memory _ => .trap .memoryOutOfBounds
  | .trap t =>
      match TrapKind.ofTrap? t with
      | some kind => .trap kind
      | none => .unknown f.message
  | .text _ => .unknown f.message

/-- The name of a kind of outcome. -/
def name : Outcome → String
  | .returned _ _ _ => "returned"
  | .terminated _ _ => "terminated"
  | .unimplemented _ => "unimplemented"
  | .trap _ => "trap"
  | .unknown _ => "unknown"

/-- The line that reports the outcome. -/
def text : Outcome → String
  | .returned moduleName entry status =>
      moduleName ++ "::" ++ entry ++ "() returned " ++ toString status.toInt
  | .terminated _ reason => "Program terminated with: " ++ reason
  | .unimplemented what => "Not yet implemented: " ++ what
  | .trap kind => "Runtime trap: " ++ kind.message
  | .unknown message => "Unknown failure: " ++ message

/-- The status that the program reported; failures without one report 1. -/
def exitStatus : Outcome → Int32
  | .returned _ _ status => status
  | .terminated status _ => status
  | _ => 1

/-- Whether the program reported success: it returned or stopped with status 0. -/
def isSuccess : Outcome → Bool
  | .returned _ _ status => status == 0
  | .terminated status _ => status == 0
  | _ => false

/-- Whether the outcome is passed on as a failure to whoever started the run. -/
def reraises (o : Outcome) : Bool := !o.isSuccess

/-- The exit code of the process: the low byte of the status, but never zero for a status that is
    not zero. -/
def exitCode (o : Outcome) : UInt8 :=
  if o.exitStatus = 0 then 0
  else
    let low := o.exitStatus.toUInt32.toUInt8
    if low = 0 then 1 else low

end Outcome

end WasmHost
