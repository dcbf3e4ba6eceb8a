import WasmHost.Calling
import WasmHost.Number.Elementary

set_option autoImplicit false

/-! # Functions of real numbers

The functions of `math.h`. Arguments and results are double-precision bit patterns. What depends on
signs and classes only is computed on the patterns; the rest goes through `Float`. -/

namespace WasmHost.Libc

open Binary64

/-- The functions of one number. -/
inductive RealFunction where
  | cos | sin | tan | acos | asin | atan | cosh | sinh | tanh | acosh | asinh | atanh
  | exp | exp2 | expm1 | log | log10 | log1p | log2
  | sqrt | cbrt | ceil | floor | trunc | round | fabs
deriving DecidableEq

/-- A function of `Float` as a function of bit patterns. -/
def onFloat (f : Float → Float) (x : UInt64) : UInt64 := (f (Float.ofBits x)).toBits

/-- The value of a function of one number. Rounding takes halves away from zero. -/
def RealFunction.apply : RealFunction → UInt64 → UInt64
  | .cos => onFloat Float.cos
  | .sin => onFloat Float.sin
  | .tan => onFloat Float.tan
  | .acos => onFloat Float.acos
  | .asin => onFloat Float.asin
  | .atan => onFloat Float.atan
  | .cosh => onFloat Float.cosh
  | .sinh => onFloat Float.sinh
  | .tanh => onFloat Float.tanh
  | .acosh => onFloat Elementary.acosh
  | .asinh => onFloat Elementary.asinh
  | .atanh => onFloat Elementary.atanh
  | .exp => onFloat Float.exp
  | .exp2 => onFloat Float.exp2
  | .expm1 => onFloat Elementary.expm1
  | .log => onFloat Float.log
  | .log10 => onFloat Float.log10
  | .log1p => onFloat Elementary.log1p
  | .log2 => onFloat Float.log2
  | .sqrt => onFloat Float.sqrt
  | .cbrt => onFloat Float.cbrt
  | .ceil => onFloat Float.ceil
  | .floor => onFloat Float.floor
  | .trunc => onFloat Elementary.trunc
  | .round => onFloat Float.round
  | .fabs => Binary64.abs

/-- The functions of two numbers. -/
inductive RealOperation where
  | atan2 | pow | hypot | fmod | copysign | fmax | fmin | fdim
deriving DecidableEq

/-- The value of a function of two numbers. The greater and the lesser of two numbers ignore one
    that is no number, and of two equal ones they are the first. -/
def RealOperation.apply (op : RealOperation) (x y : UInt64) : UInt64 :=
  let a := Float.ofBits x
  let b := Float.ofBits y
  match op with
  | .atan2 => (Float.atan2 a b).toBits
  | .pow => (Float.pow a b).toBits
  | .hypot => (Elementary.hypot a b).toBits
  | .fmod => remainder x y
  | .copysign => copySign x y
  | .fmax => if isNaN x then y else if isNaN y then x else if a < b then y else x
  | .fmin => if isNaN x then y else if isNaN y then x else if b < a then y else x
  | .fdim => if b < a then (a - b).toBits else 0

/-- The comparisons of two numbers. None of them but `unordered` holds of what is no number. -/
inductive RealRelation where
  | greater | greaterEqual | less | lessEqual | lessGreater | unordered
deriving DecidableEq

/-- Whether a comparison holds. -/
def RealRelation.holds (r : RealRelation) (x y : UInt64) : Bool :=
  let a := Float.ofBits x
  let b := Float.ofBits y
  match r with
  | .greater => b < a
  | .greaterEqual => b ≤ a
  | .less => a < b
  | .lessEqual => a ≤ b
  | .lessGreater => a < b || b < a
  | .unordered => isNaN x || isNaN y

/-- The tests of one number. -/
inductive RealTest where
  | isFinite | isNaN | isNormal | signBit | isInfinite | category
deriving DecidableEq

/-- The number by which a class is reported. -/
def categoryNumber : Binary64.Class → UInt32
  | .nan => 0
  | .infinite => 1
  | .zero => 2
  | .subnormal => 3
  | .normal => 4

/-- The result of a test. Infinities are reported as 1 and -1. -/
def RealTest.apply (t : RealTest) (x : UInt64) : UInt32 :=
  match t with
  | .isFinite => if Binary64.isFinite x then 1 else 0
  | .isNaN => if Binary64.isNaN x then 1 else 0
  | .isNormal => if classify x = .normal then 1 else 0
  | .signBit => if isNegative x then 1 else 0
  | .isInfinite => if Binary64.isInfinite x then if isNegative x then 0xffffffff else 1 else 0
  | .category => categoryNumber (classify x)

/-- The functions of `math.h`. -/
inductive MathFunction where
  | function (f : RealFunction)
  | operation (op : RealOperation)
  | relation (r : RealRelation)
  | test (t : RealTest)
  /-- Rounding to an integer. -/
  | roundToInteger
  /-- The pattern that stands for no number. -/
  | notANumber
deriving DecidableEq

/-- The reply of a function to the arguments `reals`. -/
def MathFunction.reply (f : MathFunction) (reals : Nat → UInt64) : Reply :=
  match f with
  | .function f => .f64 (f.apply (reals 0))
  | .operation op => .f64 (op.apply (reals 0) (reals 1))
  | .relation r => .ofBool (r.holds (reals 0) (reals 1))
  | .test t => .i32 (t.apply (reals 0))
  | .roundToInteger => .i64 (toLong (RealFunction.round.apply (reals 0)))
  | .notANumber => .f64 nan

end WasmHost.Libc
