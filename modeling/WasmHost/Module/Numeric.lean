import WasmHost.Fault
import WasmHost.Module.Syntax
import WasmHost.Number.Binary64

set_option autoImplicit false

/-! # Numeric instructions

What the numeric instructions compute. Only division, remainder and truncation can trap. -/

namespace WasmHost

/-- The word that stands for a truth value. -/
def wordOfBool (b : Bool) : UInt32 := if b then 1 else 0

/-- The result of an operation on two 32-bit integers. Comparisons and divisions come in a signed
    and an unsigned form; signed division truncates. -/
def WordOp.apply (op : WordOp) (a b : UInt32) : Except Trap UInt32 :=
  match op with
  | .eq => .ok (wordOfBool (a == b))
  | .ne => .ok (wordOfBool (a != b))
  | .ltS => .ok (wordOfBool (a.toInt32 < b.toInt32))
  | .ltU => .ok (wordOfBool (a < b))
  | .gtS => .ok (wordOfBool (b.toInt32 < a.toInt32))
  | .gtU => .ok (wordOfBool (b < a))
  | .leS => .ok (wordOfBool (a.toInt32 ≤ b.toInt32))
  | .leU => .ok (wordOfBool (a ≤ b))
  | .geS => .ok (wordOfBool (b.toInt32 ≤ a.toInt32))
  | .geU => .ok (wordOfBool (b ≤ a))
  | .add => .ok (a + b)
  | .sub => .ok (a - b)
  | .mul => .ok (a * b)
  | .divS =>
      if b = 0 then .error .integerDivisionByZero
      else if a = 0x80000000 ∧ b = 0xffffffff then .error .integerOverflow
      else .ok (a.toInt32 / b.toInt32).toUInt32
  | .divU => if b = 0 then .error .integerDivisionByZero else .ok (a / b)
  | .remS =>
      if b = 0 then .error .integerDivisionByZero
      else if b = 0xffffffff then .ok 0
      else .ok (a.toInt32 % b.toInt32).toUInt32
  | .remU => if b = 0 then .error .integerDivisionByZero else .ok (a % b)
  | .and => .ok (a &&& b)
  | .or => .ok (a ||| b)
  | .xor => .ok (a ^^^ b)
  | .shl => .ok (a <<< b)
  | .shrS => .ok (a.toInt32 >>> b.toInt32).toUInt32
  | .shrU => .ok (a >>> b)

/-- The result of an operation on two 64-bit integers. -/
def LongOp.apply (op : LongOp) (a b : UInt64) : Except Trap UInt64 :=
  match op with
  | .add => .ok (a + b)
  | .sub => .ok (a - b)
  | .mul => .ok (a * b)
  | .divS =>
      if b = 0 then .error .integerDivisionByZero
      else if a = 0x8000000000000000 ∧ b = 0xffffffffffffffff then .error .integerOverflow
      else .ok (a.toInt64 / b.toInt64).toUInt64

/-- A double-precision number truncated to a 32-bit integer. -/
def truncToWord (bits : UInt64) : Except Trap UInt32 :=
  match Binary64.classify bits with
  | .nan => .error .badConversionToInteger
  | .infinite => .error .integerOverflow
  | _ =>
      let n := Binary64.truncate bits
      if Int32.minValue.toInt ≤ n ∧ n ≤ Int32.maxValue.toInt then .ok (Int32.ofInt n).toUInt32
      else .error .integerOverflow

end WasmHost
