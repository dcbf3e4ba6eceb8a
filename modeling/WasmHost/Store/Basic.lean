import WasmHost.Memory.Linear
import WasmHost.Symbol

set_option autoImplicit false

/-! # The store

Everything that running code can change lives in the store: memories, tables and globals, by
address. Instances of modules are kept there too and never change; they map the indices that code
uses to functions and addresses. -/

namespace WasmHost

/-- The number of bytes of a page. -/
def pageSize : Nat := 65536

/-- A memory and the number of pages that it may grow to. -/
structure MemoryInstance where
  contents : LinearMemory
  maxPages : Option Nat

namespace MemoryInstance

instance : Inhabited MemoryInstance := ⟨⟨default, none⟩⟩

/-- A memory of zeros with the least size that the limits allow. -/
def new (limits : Limits) : MemoryInstance :=
  ⟨.zeros (limits.min * pageSize), limits.max⟩

/-- The size in pages. -/
def pages (m : MemoryInstance) : Nat := m.contents.size / pageSize

/-- The number of pages that the memory may grow to: its own maximum, or all that has 32-bit
    addresses. -/
def pageLimit (m : MemoryInstance) : Nat := m.maxPages.getD 65536

/-- The memory with `n` more pages of zeros; none if that passes the limit. -/
def grow? (m : MemoryInstance) (n : Nat) : Option MemoryInstance :=
  if m.pages + n ≤ m.pageLimit then
    some { m with contents := m.contents.resize ((m.pages + n) * pageSize) }
  else none

end MemoryInstance

/-- A table of functions and the number of slots that it may grow to. -/
structure TableInstance (ι : Type) where
  slots : Array (Option (Func ι))
  max : Option Nat

namespace TableInstance

variable {ι : Type}

instance : Inhabited (TableInstance ι) := ⟨⟨#[], none⟩⟩

/-- A table of null slots with the least size that the limits allow. -/
def new (limits : Limits) : TableInstance ι := ⟨.replicate limits.min none, limits.max⟩

/-- The table with one more slot at the end; none if that passes the limit. -/
def push? (t : TableInstance ι) (f : Option (Func ι)) : Option (TableInstance ι) :=
  if t.slots.size + 1 ≤ t.max.getD (UInt32.size - 1) then
    some { t with slots := t.slots.push f }
  else none

/-- Put functions into the slots from `offset` on; none if they do not fit. -/
def setRange? (t : TableInstance ι) (offset : Nat) (fs : List (Func ι)) :
    Option (TableInstance ι) :=
  if offset + fs.length ≤ t.slots.size then
    some { t with
      slots := fs.zipIdx.foldl
        (fun slots e => slots.setIfInBounds (offset + e.2) (some e.1)) t.slots }
  else none

end TableInstance

/-- An instantiated module: what its indices stand for, and its exports in order. -/
structure Instance (ι : Type) where
  funcs : List (Func ι)
  globals : List Nat
  tables : List Nat
  memories : List Nat
  exports : List (String × Item ι)

instance {ι : Type} : Inhabited (Instance ι) := ⟨⟨[], [], [], [], []⟩⟩

/-- The item that an index of a kind stands for. -/
def Instance.item? {ι : Type} (inst : Instance ι) (kind : ItemKind) (index : Nat) :
    Option (Item ι) :=
  match kind with
  | .func => inst.funcs[index]?.map .func
  | .global => inst.globals[index]?.map .global
  | .table => inst.tables[index]?.map .table
  | .memory => inst.memories[index]?.map .memory

/-- The state of running code. -/
structure Store (ι : Type) where
  instances : Array (Instance ι)
  memories : Array MemoryInstance
  tables : Array (TableInstance ι)
  globals : Array Value

namespace Store

variable {ι : Type}

/-- The store without contents. -/
def empty : Store ι := ⟨#[], #[], #[], #[]⟩

/-- The instance at an address. -/
def instanceAt (s : Store ι) (addr : Nat) : Instance ι := s.instances.getD addr default

/-- The memory at an address. -/
def memoryAt (s : Store ι) (addr : Nat) : MemoryInstance := s.memories.getD addr default

/-- The table at an address. -/
def tableAt (s : Store ι) (addr : Nat) : TableInstance ι := s.tables.getD addr default

/-- The value of the global at an address. -/
def globalAt (s : Store ι) (addr : Nat) : Value := s.globals.getD addr default

/-- Put a memory at an address in place of the one there. -/
def setMemory (s : Store ι) (addr : Nat) (m : MemoryInstance) : Store ι :=
  { s with memories := s.memories.setIfInBounds addr m }

/-- Put bytes into the memory at an address in place of those there. -/
def setContents (s : Store ι) (addr : Nat) (m : LinearMemory) : Store ι :=
  s.setMemory addr { s.memoryAt addr with contents := m }

/-- Put a table at an address in place of the one there. -/
def setTable (s : Store ι) (addr : Nat) (t : TableInstance ι) : Store ι :=
  { s with tables := s.tables.setIfInBounds addr t }

/-- Give the global at an address a value. -/
def setGlobal (s : Store ι) (addr : Nat) (v : Value) : Store ι :=
  { s with globals := s.globals.setIfInBounds addr v }

/-- Add a memory; its address is the number of memories before. -/
def addMemory (s : Store ι) (m : MemoryInstance) : Store ι :=
  { s with memories := s.memories.push m }

/-! ## What has been put is there -/

theorem memoryAt_setContents (s : Store ι) {addr : Nat} (h : addr < s.memories.size)
    (m : LinearMemory) :
    (s.setContents addr m).memoryAt addr = { s.memoryAt addr with contents := m } := by
  rw [memoryAt, setContents, setMemory, Array.getD_eq_getD_getElem?,
    Array.getElem?_setIfInBounds_self_of_lt h, Option.getD_some]

theorem tableAt_setTable (s : Store ι) {addr : Nat} (h : addr < s.tables.size)
    (t : TableInstance ι) : (s.setTable addr t).tableAt addr = t := by
  rw [tableAt, setTable, Array.getD_eq_getD_getElem?,
    Array.getElem?_setIfInBounds_self_of_lt h, Option.getD_some]

end Store

end WasmHost
