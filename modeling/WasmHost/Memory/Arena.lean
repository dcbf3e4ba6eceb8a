import WasmHost.Memory.Error

set_option autoImplicit false

/-! # The arena of linear memories

At most one memory is active at a time, and loading a module that exports a memory replaces it.
Each installation gets a handle of its own, so that a handle taken before a replacement is found to
be stale instead of naming the new memory. -/

namespace WasmHost

/-- A memory that has been installed, and by whom. -/
structure InstalledMemory (μ : Type) where
  /-- The memory. -/
  memory : μ
  /-- The name of the module that brought it. -/
  owner : String
  /-- The handle of this installation. -/
  handle : MemoryHandle

/-- Holds the active memory, if there is one. -/
structure MemoryArena (μ : Type) where
  /-- The latest installation. -/
  installed : Option (InstalledMemory μ)
  /-- The number of installations so far. -/
  generation : Nat

namespace MemoryArena

variable {μ : Type}

/-- The arena before any installation. -/
def empty : MemoryArena μ := ⟨none, 0⟩

/-- The handle of the installation made next. -/
def nextHandle (a : MemoryArena μ) : MemoryHandle := ⟨a.generation + 1⟩

/-- Make `memory` the active memory in place of any earlier one. -/
def install (a : MemoryArena μ) (memory : μ) (owner : String) : MemoryArena μ :=
  { installed := some ⟨memory, owner, a.nextHandle⟩, generation := a.generation + 1 }

/-- The handle of the active memory. -/
def handle? (a : MemoryArena μ) : Option MemoryHandle := a.installed.map InstalledMemory.handle

/-- The name of the module that brought the active memory. -/
def owner? (a : MemoryArena μ) : Option String := a.installed.map InstalledMemory.owner

/-- The memory that a handle names; it must be the one installed last. -/
def get (a : MemoryArena μ) (handle : MemoryHandle) : Except MemoryError μ :=
  match a.installed with
  | some latest =>
      if latest.handle = handle then .ok latest.memory else .error (.staleHandle handle)
  | none => .error (.staleHandle handle)

/-- The active memory. -/
def active (a : MemoryArena μ) : Except MemoryError μ :=
  match a.installed with
  | some latest => .ok latest.memory
  | none => .error .noActiveMemory

end MemoryArena

end WasmHost
