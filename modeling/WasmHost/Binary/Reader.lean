set_option autoImplicit false

/-! # Reading bytes

A reader takes a prefix of a byte sequence, or fails with a text that says what is wrong. Numbers
are read in the variable-length form that has seven bits in each byte, least significant first,
with the top bit set in every byte but the last. -/

namespace WasmHost

/-- Takes a value off the front of a byte sequence. -/
abbrev ByteReader (α : Type) := StateT (List UInt8) (Except String) α

namespace ByteReader

variable {α : Type}

/-- Whether nothing is left. -/
def atEnd : ByteReader Bool := return (← get).isEmpty

/-- The next byte. -/
def byte : ByteReader UInt8 := do
  match ← get with
  | [] => throw "unexpected end"
  | b :: bs =>
      set bs
      return b

/-- Go on only if a condition holds. -/
def ensure (condition : Bool) (otherwise : String) : ByteReader Unit :=
  if condition then return () else throw otherwise

/-- The next byte, which must be `b`. -/
def expect (b : UInt8) (what : String) : ByteReader Unit := do
  ensure ((← byte) == b) ("expected " ++ what)

/-- The next `n` bytes. -/
def take (n : Nat) : ByteReader (List UInt8) := do
  let bs ← get
  ensure (n ≤ bs.length) "unexpected end"
  set (bs.drop n)
  return bs.take n

/-- `n` values, one after the other. -/
def times (d : ByteReader α) : (n : Nat) → ByteReader (List α)
  | 0 => return []
  | n + 1 => do
      let a ← d
      return a :: (← times d n)

/-! ## Numbers -/

/-- The digits of a number to the base 128, least significant first, at most `limit` of them. -/
def digits : (limit : Nat) → ByteReader (List Nat)
  | 0 => throw "number is too long"
  | limit + 1 => do
      let b ← byte
      if b < 128 then return [b.toNat]
      else return (b.toNat - 128) :: (← digits limit)

/-- The number with these digits to the base 128. -/
def ofDigits (ds : List Nat) : Nat := ds.foldr (fun d n => d + 128 * n) 0

/-- An unsigned number of at most 32 bits. -/
def unsigned : ByteReader Nat := do
  let n := ofDigits (← digits 5)
  ensure (n < UInt32.size) "number is too large"
  return n

/-- A signed number of at most `bits` bits: the top bit of the last digit is the sign. -/
def signed (bits : Nat) : ByteReader Int := do
  let ds ← digits ((bits + 6) / 7)
  let n : Int := ofDigits ds
  -- A negative number is written less the power of 128 that its digits stop short of.
  let n := if 64 ≤ ds.getLastD 0 then n - (1 <<< (7 * ds.length) : Nat) else n
  let limit : Int := (1 <<< (bits - 1) : Nat)
  ensure (-limit ≤ n && n < limit) "number is too large"
  return n

/-- A number of `count` bytes, least significant first. -/
def littleEndian (count : Nat) : ByteReader Nat := do
  return (← take count).foldr (fun b n => b.toNat + 256 * n) 0

/-! ## Sequences -/

/-- A sequence of values behind its length. -/
def vector (d : ByteReader α) : ByteReader (List α) := do times d (← unsigned)

/-- A sequence of bytes behind its length. -/
def block : ByteReader (List UInt8) := do take (← unsigned)

/-- A text in UTF-8 behind its length in bytes. -/
def text : ByteReader String := do
  match String.fromUTF8? ⟨(← block).toArray⟩ with
  | some s => return s
  | none => throw "malformed text"

/-- The value that a reader takes from all of `bytes`. -/
def all (d : ByteReader α) (bytes : List UInt8) : Except String α := do
  let (a, rest) ← d.run bytes
  if rest.isEmpty then return a else throw "unexpected bytes at the end"

end ByteReader

end WasmHost
