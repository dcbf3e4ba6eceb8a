import WasmHost.Libc.Character

set_option autoImplicit false

/-! # Integers

Absolute values, and numbers read from decimal text. All arithmetic wraps around. -/

namespace WasmHost.Libc

/-- The absolute value of a 32-bit integer; the least integer is its own. -/
def absWord (v : UInt32) : UInt32 := if v.toInt32 < 0 then 0 - v else v

/-- The absolute value of a 64-bit integer; the least integer is its own. -/
def absLong (v : UInt64) : UInt64 := if v.toInt64 < 0 then 0 - v else v

/-- The value of a run of decimal digits, in 64 bits. -/
def digitsValue (digits : List UInt8) : UInt64 :=
  digits.foldl (fun n c => n * 10 + (c - 48).toUInt64) 0

/-- A text without its sign, and whether the sign is a minus. -/
def splitSign : List UInt8 → Bool × List UInt8
  | 45 :: rest => (true, rest)
  | 43 :: rest => (false, rest)
  | s => (false, s)

/-- The number at the start of a text: white space, an optional sign, and digits. What follows the
    digits is ignored; without digits the number is zero. -/
def parseInteger (s : List UInt8) : UInt64 :=
  let (negative, rest) := splitSign (s.dropWhile isSpace)
  let n := digitsValue (rest.takeWhile isDigit)
  if negative then 0 - n else n

end WasmHost.Libc
