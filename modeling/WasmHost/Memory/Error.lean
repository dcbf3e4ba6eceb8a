import WasmHost.Text.Hex

set_option autoImplicit false

/-! # Failures of memory accesses

A memory access can fail because it leaves the memory, because no memory is active, or because it
goes through a handle whose memory has been replaced. -/

namespace WasmHost

/-- Names one installation of a linear memory; later installations have larger numbers. -/
structure MemoryHandle where
  /-- The number of installations up to and including this one. -/
  generation : Nat
deriving DecidableEq

/-- A handle is shown as `mem#` and its number. -/
def MemoryHandle.show (h : MemoryHandle) : String := "mem#" ++ toString h.generation

/-- Why a memory access failed. -/
inductive MemoryError where
  /-- The `len` bytes at `addr` are not all inside a memory of `size` bytes. -/
  | outOfBounds (addr len size : Nat)
  /-- No memory has been installed. -/
  | noActiveMemory
  /-- The memory that the handle names has been replaced. -/
  | staleHandle (handle : MemoryHandle)
deriving DecidableEq

/-- The name of a kind of failure. -/
def MemoryError.name : MemoryError → String
  | .outOfBounds _ _ _ => "OutOfBounds"
  | .noActiveMemory => "NoActiveMemory"
  | .staleHandle _ => "StaleHandle"

/-- The text of a failed memory access. -/
def MemoryError.message : MemoryError → String
  | .outOfBounds addr len size =>
      "memory access out of bounds: " ++ toString len ++ " bytes at " ++ hex addr
        ++ " (memory size " ++ hex size ++ ")"
  | .noActiveMemory => "no linear memory is active"
  | .staleHandle handle => "memory handle " ++ handle.show ++ " is stale"

end WasmHost
