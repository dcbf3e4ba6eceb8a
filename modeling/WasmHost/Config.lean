import WasmHost.Store.Basic

set_option autoImplicit false

/-! # Configuration

The settings of one run. -/

namespace WasmHost

/-- The settings of one run. -/
structure Config where
  /-- The size of the memory that exists before any module brings its own, in pages. -/
  initialPages : Nat
  /-- The heap hands out no address below this one. -/
  heapBase : UInt32
  /-- The name of the main module's entry point. -/
  entry : String
  /-- Directories in which modules given by a relative name are searched. -/
  searchPaths : List String
deriving DecidableEq

/-- 16 MiB of memory, a heap above the first 16 KiB, and the entry point `main`. -/
def Config.default : Config := ⟨256, 16384, "main", []⟩

/-- The size of the initial memory in bytes. -/
def Config.initialBytes (c : Config) : Nat := c.initialPages * pageSize

end WasmHost
