import WasmHost.Memory.Word

set_option autoImplicit false

/-! # Bytes and strings

The functions of `string.h` that work on memory alone. Addresses, lengths and characters are 32-bit
words; a character counts modulo 256 and bytes compare without a sign. Every access is checked, and
a string that no zero byte ends before the end of the memory is out of bounds.

Queries do not change the memory. Edits do, and give back an address. -/

namespace WasmHost.Libc

/-! ## Comparing and searching -/

/-- The order of two byte sequences: the first difference decides, and of two sequences of which
    one continues the other the longer is greater. -/
def compareBytes : List UInt8 → List UInt8 → Ordering
  | [], [] => .eq
  | [], _ :: _ => .lt
  | _ :: _, [] => .gt
  | x :: xs, y :: ys => if x < y then .lt else if y < x then .gt else compareBytes xs ys

/-- The word by which a comparison is reported. -/
def orderWord : Ordering → UInt32
  | .lt => 0xffffffff
  | .eq => 0
  | .gt => 1

/-- The word for the address that a search found; zero for none. -/
def addressWord : Option Nat → UInt32
  | some addr => addr.toUInt32
  | none => 0

/-- The string at `addr` with its zero byte. -/
def terminated (m : LinearMemory) (addr : UInt32) : Except MemoryError (List UInt8) := do
  return (← m.string addr) ++ [0]

/-- The questions about memory. -/
inductive MemoryQuery where
  | memcmp | memchr | strlen | strcmp | strncmp | strchr | strrchr
deriving DecidableEq

/-- The answer to a question with the arguments `words`. The zero byte counts as a part of a string
    that is searched or compared. -/
def MemoryQuery.answer (q : MemoryQuery) (words : Nat → UInt32) (m : LinearMemory) :
    Except MemoryError UInt32 := do
  match q with
  | .memcmp =>
      let a ← m.read (words 0) (words 2)
      let b ← m.read (words 1) (words 2)
      return orderWord (compareBytes a b)
  | .memchr =>
      let start := (words 0).toNat
      m.check start (words 2).toNat
      return addressWord (m.findByte? (words 1).toUInt8 start (start + (words 2).toNat))
  | .strlen => return (← m.stringLength (words 0)).toUInt32
  | .strcmp =>
      let a ← terminated m (words 0)
      let b ← terminated m (words 1)
      return orderWord (compareBytes a b)
  | .strncmp =>
      let a ← terminated m (words 0)
      let b ← terminated m (words 1)
      return orderWord (compareBytes (a.take (words 2).toNat) (b.take (words 2).toNat))
  | .strchr =>
      let start := (words 0).toNat
      let len ← m.stringLength (words 0)
      return addressWord (m.findByte? (words 1).toUInt8 start (start + len + 1))
  | .strrchr =>
      let start := (words 0).toNat
      let len ← m.stringLength (words 0)
      return addressWord (m.findLastByte? (words 1).toUInt8 start (start + len + 1))

/-! ## Copying and filling -/

/-- The changes of memory. -/
inductive MemoryEdit where
  | memcpy | mempcpy | memset | strcpy | strncpy | strcat
deriving DecidableEq

open WordFault MemoryAction in
/-- Carry out a change with the arguments `words`; the result is an address. Ranges that are copied
    may overlap. Lengths of strings are cut to 32 bits; sums and differences are checked, except for
    the end of the range that `mempcpy` gives back. -/
def MemoryEdit.perform (e : MemoryEdit) (words : Nat → UInt32) : WordAction UInt32 := do
  let dst := words 0
  let src := words 1
  let n := words 2
  match e with
  | .memcpy =>
      lift (change (·.copyWithin src dst n))
      return dst
  | .mempcpy =>
      lift (change (·.copyWithin src dst n))
      return dst + n
  | .memset =>
      lift (change (·.fill dst (words 1).toUInt8 n))
      return dst
  | .strcpy =>
      let len ← lift (look (·.stringLength src))
      let size ← compute (add len.toUInt32 1)
      lift (change (·.copyWithin src dst size))
      return dst
  | .strncpy =>
      let len ← lift (look (·.stringLength src))
      let count := min len.toUInt32 n
      lift (change (·.copyWithin src dst count))
      let start ← compute (add dst count)
      let rest ← compute (sub n count)
      lift (change (·.zero start rest))
      return dst
  | .strcat =>
      let tail ← lift (look (·.stringLength dst))
      let stop ← compute (add dst tail.toUInt32)
      let len ← lift (look (·.stringLength src))
      let size ← compute (add len.toUInt32 1)
      lift (change (·.copyWithin src stop size))
      return dst

end WasmHost.Libc
