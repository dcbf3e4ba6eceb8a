import WasmHost.Calling

set_option autoImplicit false

/-! # Character classes

The classes of `ctype.h` in the C locale. A character is the low byte of its argument; no byte from
128 on is in any class. -/

namespace WasmHost.Libc

/-- The classes of characters. -/
inductive CharClass where
  | alnum | alpha | blank | cntrl | digit | graph | lower | print | punct | space | upper | xdigit
deriving DecidableEq

/-- Whether a byte lies in a range, ends included. -/
def within (low high c : UInt8) : Bool := decide (low ≤ c ∧ c ≤ high)

/-- Whether a byte is a decimal digit. -/
def isDigit (c : UInt8) : Bool := within 48 57 c

/-- Whether a byte is a blank, or one of the control characters from tab to carriage return. -/
def isSpace (c : UInt8) : Bool := c == 32 || within 9 13 c

/-- Whether a byte is an upper-case letter. -/
def isUpper (c : UInt8) : Bool := within 65 90 c

/-- Whether a byte is a lower-case letter. -/
def isLower (c : UInt8) : Bool := within 97 122 c

/-- Whether a byte is in a class. -/
def CharClass.has (k : CharClass) (c : UInt8) : Bool :=
  match k with
  | .alnum => isUpper c || isLower c || isDigit c
  | .alpha => isUpper c || isLower c
  | .blank => c == 32 || c == 9
  | .cntrl => c ≤ 31 || c == 127
  | .digit => isDigit c
  | .graph => within 33 126 c
  | .lower => isLower c
  | .print => within 32 126 c
  | .punct => within 33 126 c && !(isUpper c || isLower c || isDigit c)
  | .space => isSpace c
  | .upper => isUpper c
  | .xdigit => isDigit c || within 65 70 c || within 97 102 c

/-- The lower-case form of a character. What is no upper-case letter stays as it was given, with
    all its bits. -/
def toLower (c : UInt32) : UInt32 :=
  if isUpper c.toUInt8 then c.toUInt8.toUInt32 + 32 else c

/-- The upper-case form of a character. What is no lower-case letter stays as it was given, with
    all its bits. -/
def toUpper (c : UInt32) : UInt32 :=
  if isLower c.toUInt8 then c.toUInt8.toUInt32 - 32 else c

end WasmHost.Libc
