import WasmHost.Memory.Linear

set_option autoImplicit false

/-! # Computations on a memory

A `MemoryAction` reads and changes one memory and may fail by an access out of bounds. What it
changed before failing stays changed. -/

namespace WasmHost

/-- A computation on a memory that may fail. -/
abbrev MemoryAction (α : Type) := ExceptT MemoryError (StateM LinearMemory) α

namespace MemoryAction

variable {α : Type}

/-- Read something; the memory stays as it is. -/
def look (f : LinearMemory → Except MemoryError α) : MemoryAction α := fun m => (f m, m)

/-- Change the memory; a change that fails changes nothing. -/
def change (f : LinearMemory → Except MemoryError LinearMemory) : MemoryAction Unit := fun m =>
  match f m with
  | .ok m' => (.ok (), m')
  | .error e => (.error e, m)

/-- Put a string and its zero byte at `addr`. -/
def writeString (addr : UInt32) (s : List UInt8) : MemoryAction Unit := fun m =>
  m.writeString addr s

end MemoryAction

end WasmHost
