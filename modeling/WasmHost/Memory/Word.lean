import WasmHost.Memory.Action

set_option autoImplicit false

/-! # Checked arithmetic

Lengths and addresses that are computed from data are 32-bit words. Where a sum or a difference may
not be one, it is checked, and a computation that meets one ends with `WordFault.overflow`. That is
no failure of a memory access: no memory of fewer than 2³² bytes lets it happen. -/

namespace WasmHost

/-- Why a computation with checked arithmetic fails. -/
inductive WordFault where
  | memory (err : MemoryError)
  | overflow
deriving DecidableEq

/-- A computation on a memory with checked arithmetic. -/
abbrev WordAction (α : Type) := ExceptT WordFault (StateM LinearMemory) α

namespace WordFault

/-- The sum of two words. -/
def add (a b : UInt32) : Except WordFault UInt32 :=
  if a.toNat + b.toNat < UInt32.size then .ok (a + b) else .error .overflow

/-- The difference of two words. -/
def sub (a b : UInt32) : Except WordFault UInt32 :=
  if b ≤ a then .ok (a - b) else .error .overflow

variable {σ α : Type}

/-- A computation without arithmetic. -/
def lift (x : ExceptT MemoryError (StateM σ) α) : ExceptT WordFault (StateM σ) α :=
  ExceptT.adapt .memory x

/-- Some arithmetic. -/
def compute (r : Except WordFault α) : ExceptT WordFault (StateM σ) α := fun s => (r, s)

end WordFault

end WasmHost
