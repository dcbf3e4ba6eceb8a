import WasmHost.Value

set_option autoImplicit false

/-! # Calling host functions

A host function is written once and can be bound to any signature of numbers. It reads its
arguments leniently: one that is missing reads as zero, and numbers are converted to the type that
is asked for. Its reply is converted to the result type that the importing module declares. -/

namespace WasmHost

/-! ## Reading arguments -/

namespace Args

/-- Argument `i` as a 64-bit integer: words are extended by their sign, floating-point numbers
    truncated and saturated; what is missing or no number reads as zero. -/
def long (args : List Value) (i : Nat) : UInt64 :=
  match args[i]? with
  | some (.i32 v) => v.toInt32.toInt64.toUInt64
  | some (.i64 v) => v
  | some (.f32 bits) => Binary64.toLong (Binary32.widen bits)
  | some (.f64 bits) => Binary64.toLong bits
  | _ => 0

/-- Argument `i` as a 32-bit integer: the low word of `long`. It serves as signed and unsigned
    number and as an address. -/
def word (args : List Value) (i : Nat) : UInt32 :=
  match args[i]? with
  | some (.i32 v) => v
  | _ => (long args i).toUInt32

/-- Argument `i` as a double-precision pattern. -/
def real (args : List Value) (i : Nat) : UInt64 :=
  match args[i]? with
  | some (.i32 v) => Binary64.ofInt v.toInt32.toInt
  | some (.i64 v) => Binary64.ofInt v.toInt64.toInt
  | some (.f32 bits) => Binary32.widen bits
  | some (.f64 bits) => bits
  | _ => 0

end Args

/-! ## Replies -/

/-- What a host function replies. -/
inductive Reply where
  | void
  | i32 (v : UInt32)
  | i64 (v : UInt64)
  | f64 (bits : UInt64)
deriving DecidableEq

namespace Reply

/-- A truth value is replied as 1 or 0. -/
def ofBool (b : Bool) : Reply := .i32 (if b then 1 else 0)

/-- The reply as a double-precision pattern. -/
def toReal : Reply → UInt64
  | void => 0
  | i32 v => Binary64.ofInt v.toInt32.toInt
  | i64 v => Binary64.ofInt v.toInt64.toInt
  | f64 bits => bits

/-- The reply as a value of the declared result type. Integers are extended by their sign or cut
    to their low word; floating-point numbers are truncated and saturated. Every type other than
    the two integer types and single precision gets a double-precision number. -/
def toValue (type : ValueType) (r : Reply) : Value :=
  match type with
  | .i32 => .i32 (match r with
      | void => 0
      | i32 v => v
      | i64 v => v.toUInt32
      | f64 bits => Binary64.toWord bits)
  | .i64 => .i64 (match r with
      | void => 0
      | i32 v => v.toInt32.toInt64.toUInt64
      | i64 v => v
      | f64 bits => Binary64.toLong bits)
  | .f32 => .f32 (Binary32.narrow r.toReal)
  | _ => .f64 r.toReal

end Reply

/-! ## Signatures -/

/-- The signatures that a host function can be bound to: parameters that are numbers, and at most
    one result, which is a number. -/
def FuncType.isBindable (t : FuncType) : Bool :=
  t.params.all ValueType.isNumeric && decide (t.results.length ≤ 1)
    && t.results.all ValueType.isNumeric

/-- The values that a bound host function gives back: the reply as a value of the declared result
    type, or nothing if no result is declared. -/
def FuncType.resultsOf (t : FuncType) (r : Reply) : List Value :=
  match t.results with
  | [] => []
  | type :: _ => [r.toValue type]

end WasmHost
