set_option autoImplicit false

/-! # Decoding UTF-8

Output of programs is shown as text. Bytes that are no UTF-8 are shown as replacement characters:
one for each longest run of bytes that starts a character but does not go on, and one for each byte
that starts none.

The decoder is a machine that reads one byte at a time. Inside a character it knows the range in
which the next byte must lie. The first bytes fix that range so that no character is written longer
than necessary, none is a surrogate, and none is beyond the last character. -/

namespace WasmHost.Utf8

/-- A character of which some bytes have been read. -/
structure Partial where
  /-- The bits read so far. -/
  bits : Nat
  /-- How many bytes follow after the next one. -/
  after : Nat
  /-- The least next byte. -/
  low : UInt8
  /-- The greatest next byte. -/
  high : UInt8

/-- What stands for bytes that are no text. -/
def replacement : Char := '\uFFFD'

/-- The character that a first byte of several starts. -/
def lead? (b : UInt8) : Option Partial :=
  let n := b.toNat
  if 0xc2 ≤ n ∧ n ≤ 0xdf then some ⟨n - 0xc0, 0, 0x80, 0xbf⟩
  else if n = 0xe0 then some ⟨0, 1, 0xa0, 0xbf⟩
  else if n = 0xed then some ⟨0xd, 1, 0x80, 0x9f⟩
  else if 0xe1 ≤ n ∧ n ≤ 0xef then some ⟨n - 0xe0, 1, 0x80, 0xbf⟩
  else if n = 0xf0 then some ⟨0, 2, 0x90, 0xbf⟩
  else if 0xf1 ≤ n ∧ n ≤ 0xf3 then some ⟨n - 0xf0, 2, 0x80, 0xbf⟩
  else if n = 0xf4 then some ⟨4, 2, 0x80, 0x8f⟩
  else none

/-- The characters that a byte completes outside of a character, and the character that it
    starts. -/
def first (b : UInt8) : List Char × Option Partial :=
  if b < 0x80 then ([Char.ofNat b.toNat], none)
  else
    match lead? b with
    | some p => ([], some p)
    | none => ([replacement], none)

/-- The characters that a byte completes, and the character inside of which it leaves the
    decoder. -/
def step (state : Option Partial) (b : UInt8) : List Char × Option Partial :=
  match state with
  | none => first b
  | some p =>
      if p.low ≤ b ∧ b ≤ p.high then
        let bits := p.bits * 64 + b.toNat % 64
        match p.after with
        | 0 => ([Char.ofNat bits], none)
        | after + 1 => ([], some ⟨bits, after, 0x80, 0xbf⟩)
      else
        let (chars, next) := first b
        (replacement :: chars, next)

/-- The characters of a byte sequence that is read from inside a character. -/
def decodeFrom (state : Option Partial) : List UInt8 → List Char
  | [] => if state.isSome then [replacement] else []
  | b :: bs =>
      let (chars, next) := step state b
      chars ++ decodeFrom next bs

/-- The text of a byte sequence. -/
def decodeLossy (bytes : List UInt8) : String := String.ofList (decodeFrom none bytes)

end WasmHost.Utf8
