set_option autoImplicit false

/-! # Hexadecimal numbers

Messages show addresses and flag sets in lower-case hexadecimal after `0x`, without leading
zeros. -/

namespace WasmHost

/-- The hexadecimal digits of `n`, lower case, most significant first; `0` for zero. -/
def hexDigits (n : Nat) : String := String.ofList (Nat.toDigits 16 n)

/-- `n` as `0x` and its hexadecimal digits. -/
def hex (n : Nat) : String := "0x" ++ hexDigits n

end WasmHost
