import WasmHost.Machine

set_option autoImplicit false

/-! # Allocation

The functions that hand out and take back blocks of the heap. All share one allocator and work
within the active memory; a request that is refused gives back zero. -/

namespace WasmHost.Libc

variable {ι : Type}

/-- A block of `size` bytes. -/
def malloc (size : UInt32) : Action ι MemoryError UInt32 := Action.allocate size

/-- A block of `count` times `size` bytes, all zero. A product that has no 32 bits is refused. -/
def calloc (count size : UInt32) : Action ι MemoryError UInt32 := do
  if count.toNat * size.toNat < UInt32.size then
    return (← Action.allocateZeroed? (count * size)).getD 0
  else return 0

/-- Take back a block. Addresses that are no block are ignored. -/
def free {ε : Type} (ptr : UInt32) : Action ι ε Unit :=
  Action.modifyHost fun h => { h with heap := h.heap.free ptr }

/-- A block of `size` bytes in place of the one at `ptr`, with the same bytes as far as both reach.
    Without a block at `ptr` nothing is copied. -/
def realloc (ptr size : UInt32) : Action ι MemoryError UInt32 := do
  if ptr = 0 then malloc size
  else
    Action.requireMemory
    if size = 0 then
      free ptr
      return 0
    else
      let old := ((← Action.getHost).heap.sizeOf? ptr).getD 0
      match ← Action.allocate? size with
      | none => return 0
      | some block =>
          Action.onMemory (.change (·.copyWithin ptr block (min old size)))
          free ptr
          return block

/-- A copy of a string in a block of its own. -/
def strdup (ptr : UInt32) : Action ι WordFault UInt32 := do
  Action.allocateString (← WordFault.lift (Action.look (·.string ptr)))

/-- A block of `length` bytes, all zero; -1 if the request is refused. -/
def mapAnonymous (length : UInt32) : Action ι MemoryError UInt32 := do
  return (← Action.allocateZeroed? length).getD 0xffffffff

end WasmHost.Libc
