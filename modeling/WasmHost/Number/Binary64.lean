set_option autoImplicit false

/-! # Double-precision bit patterns

A double-precision number is kept as its 64-bit pattern: sign, 11 bits of exponent, 52 bits of
fraction. Signs, classes, comparisons by class and conversions to integers are computed on the
pattern in exact arithmetic, so that they can be reasoned about; arithmetic and the elementary
functions go through `Float`. -/

namespace WasmHost.Binary64

/-- The classes of double-precision numbers. -/
inductive Class where
  | nan
  | infinite
  | zero
  | subnormal
  | normal
deriving DecidableEq

/-- Whether the sign bit is set. -/
def isNegative (bits : UInt64) : Bool := bits.toNat >>> 63 == 1

/-- The biased exponent. -/
def exponent (bits : UInt64) : Nat := (bits.toNat >>> 52) % 2048

/-- The fraction. -/
def fraction (bits : UInt64) : Nat := bits.toNat % (1 <<< 52)

/-- The class of a pattern. -/
def classify (bits : UInt64) : Class :=
  if exponent bits = 2047 then if fraction bits = 0 then .infinite else .nan
  else if exponent bits = 0 then if fraction bits = 0 then .zero else .subnormal
  else .normal

/-- Whether the pattern stands for no number. -/
def isNaN (bits : UInt64) : Bool := classify bits == .nan

/-- Whether the pattern is an infinity. -/
def isInfinite (bits : UInt64) : Bool := classify bits == .infinite

/-- Whether the pattern is a finite number. -/
def isFinite (bits : UInt64) : Bool := exponent bits != 2047

/-- A finite number is, up to its sign, its significand times two to the power of its scale. -/
def significand (bits : UInt64) : Nat :=
  if exponent bits = 0 then fraction bits else (1 <<< 52) + fraction bits

/-- The scale of a finite number. -/
def scale (bits : UInt64) : Int :=
  if exponent bits = 0 then -1074 else (exponent bits : Int) - 1075

/-- The bit pattern of the quiet not-a-number. -/
def nan : UInt64 := 0x7ff8000000000000

/-- The same number with the sign bit cleared. -/
def abs (bits : UInt64) : UInt64 := bits &&& 0x7fffffffffffffff

/-- The magnitude of the first number with the sign of the second. -/
def copySign (magnitude sign : UInt64) : UInt64 :=
  abs magnitude ||| (sign &&& 0x8000000000000000)

/-! ## Integers -/

/-- The integer part of the magnitude of a finite number. -/
def wholePart (bits : UInt64) : Nat :=
  match scale bits with
  | .ofNat k => significand bits <<< k
  | .negSucc k => significand bits >>> (k + 1)

/-- A finite number with its fractional part dropped. -/
def truncate (bits : UInt64) : Int :=
  if isNegative bits then -(wholePart bits : Int) else wholePart bits

/-- The integer from `low` to `high` that is closest to the truncated number; zero for a pattern
    that stands for no number. -/
def toIntSaturating (low high : Int) (bits : UInt64) : Int :=
  match classify bits with
  | .nan => 0
  | .infinite => if isNegative bits then low else high
  | _ => max low (min high (truncate bits))

/-- The truncated number as a 32-bit word, saturating. -/
def toWord (bits : UInt64) : UInt32 :=
  (Int32.ofInt (toIntSaturating Int32.minValue.toInt Int32.maxValue.toInt bits)).toUInt32

/-- The truncated number as a 64-bit word, saturating. -/
def toLong (bits : UInt64) : UInt64 :=
  (Int64.ofInt (toIntSaturating Int64.minValue.toInt Int64.maxValue.toInt bits)).toUInt64

/-- The number closest to an integer; of two equally close ones the even one. -/
def ofInt (n : Int) : UInt64 := (Float.ofInt n).toBits

/-! ## Remainders -/

/-- The finite number `±n · 2^k`, which must be representable. -/
def ofScaled (negative : Bool) (n : Nat) (k : Int) : UInt64 :=
  copySign (Float.scaleB (Float.ofNat n) k).toBits (if negative then 0x8000000000000000 else 0)

/-- The exact remainder of a division whose quotient is truncated; it has the sign of the
    dividend. -/
def remainder (x y : UInt64) : UInt64 :=
  match classify x, classify y with
  | .nan, _ | _, .nan | .infinite, _ | _, .zero => nan
  | _, .infinite => x
  | _, _ =>
      let k := min (scale x) (scale y)
      let n := significand x <<< (scale x - k).toNat
      let d := significand y <<< (scale y - k).toNat
      ofScaled (isNegative x) (n % d) k

end WasmHost.Binary64
