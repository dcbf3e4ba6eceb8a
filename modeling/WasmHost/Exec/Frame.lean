import WasmHost.Fault
import WasmHost.Value

set_option autoImplicit false

/-! # Frames

The local state of a running function: its local variables and its operand stack, top first. Taking
an operand that is not there, or not of the type asked for, fails; code that a validator accepts
never does that. -/

namespace WasmHost

/-- The local variables and the operand stack of a running function. -/
structure Frame where
  locals : Array Value
  stack : List Value

/-- The failure of code that takes an operand which is not there. -/
def stuck : Failure := .ofCause (.text "missing operand or operand of the wrong type")

namespace Frame

/-- Put a value on the stack. -/
def push (fr : Frame) (v : Value) : Frame := { fr with stack := v :: fr.stack }

/-- Take the value on top of the stack. -/
def pop (fr : Frame) : Except Failure (Value × Frame) :=
  match fr.stack with
  | v :: rest => .ok (v, { fr with stack := rest })
  | [] => .error stuck

/-- Take a 32-bit integer. -/
def popWord (fr : Frame) : Except Failure (UInt32 × Frame) :=
  match fr.stack with
  | .i32 v :: rest => .ok (v, { fr with stack := rest })
  | _ => .error stuck

/-- Take a 64-bit integer. -/
def popLong (fr : Frame) : Except Failure (UInt64 × Frame) :=
  match fr.stack with
  | .i64 v :: rest => .ok (v, { fr with stack := rest })
  | _ => .error stuck

/-- Take a double-precision number. -/
def popReal (fr : Frame) : Except Failure (UInt64 × Frame) :=
  match fr.stack with
  | .f64 bits :: rest => .ok (bits, { fr with stack := rest })
  | _ => .error stuck

/-- Take the top `n` values; the deepest of them comes first in the result. -/
def popMany (fr : Frame) (n : Nat) : Except Failure (List Value × Frame) :=
  if n ≤ fr.stack.length then
    .ok ((fr.stack.take n).reverse, { fr with stack := fr.stack.drop n })
  else .error stuck

/-- Put values on the stack, the last of them on top. -/
def pushMany (fr : Frame) (vs : List Value) : Frame :=
  { fr with stack := vs.reverse ++ fr.stack }

end Frame

/-- How control goes on after an instruction: with the next one, out of an enclosing block, or out
    of the function. -/
inductive Flow where
  | next (fr : Frame)
  | branch (depth : Nat) (fr : Frame)
  | ret (fr : Frame)

/-- How control goes on after a block that was entered with the operands `stack`. A branch to the
    block ends it and drops the operands that its body left. -/
def Flow.leaveBlock (stack : List Value) : Flow → Flow
  | .next fr => .next fr
  | .branch 0 fr => .next { fr with stack := stack }
  | .branch (d + 1) fr => .branch d fr
  | .ret fr => .ret fr

end WasmHost
