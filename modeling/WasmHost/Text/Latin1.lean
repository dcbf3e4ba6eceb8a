set_option autoImplicit false

/-! # Bytes as characters

Names that come out of a program's memory are taken byte by byte: each byte is the character with
that number. Nothing is lost, and no sequence of bytes is refused. -/

namespace WasmHost

/-- The text whose characters are the bytes. -/
def latin1 (bytes : List UInt8) : String :=
  String.ofList (bytes.map fun b => Char.ofNat b.toNat)

end WasmHost
