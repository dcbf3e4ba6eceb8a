set_option autoImplicit false

/-! # Flags of dlopen

A set of flags is a 32-bit word. Bits without a name are kept. -/

namespace WasmHost

/-- A set of flags. -/
structure DlFlags where
  bits : UInt32
deriving DecidableEq

namespace DlFlags

/-- No flags: bind locally. -/
def none : DlFlags := ⟨0⟩

/-- Bind when a symbol is first used. -/
def lazy : DlFlags := ⟨1⟩

/-- Bind at once. -/
def now : DlFlags := ⟨2⟩

/-- Do not load, only look. -/
def noload : DlFlags := ⟨4⟩

/-- Offer the symbols of the library to others. -/
def global : DlFlags := ⟨256⟩

/-- Keep the library when it is closed. -/
def nodelete : DlFlags := ⟨4096⟩

/-- All flags of two sets. -/
def union (a b : DlFlags) : DlFlags := ⟨a.bits ||| b.bits⟩

/-- Whether every flag of `b` is in `a`. -/
def contains (a b : DlFlags) : Bool := a.bits &&& b.bits == b.bits

/-- The only supported set is `now` alone. -/
def isSupported (a : DlFlags) : Bool := a == now

/-- The flags with a name, in order. -/
def named : List (String × DlFlags) :=
  [("LAZY", lazy), ("NOW", now), ("NOLOAD", noload), ("GLOBAL", global), ("NODELETE", nodelete)]

/-- The names of the flags in a set, in order. -/
def names (a : DlFlags) : List String :=
  (named.filter fun e => a.contains e.2).map Prod.fst

end DlFlags

end WasmHost
