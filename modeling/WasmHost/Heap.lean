import Std.Data.TreeMap

set_option autoImplicit false

/-! # The heap

`malloc` and its relatives are served by a bump allocator: blocks are handed out at increasing
addresses, aligned to eight bytes, and memory is never used twice. Freeing a block only forgets its
recorded size, which `realloc` needs in order to know how much to copy.

All address arithmetic is on 32-bit words and is checked: a request whose end has no 32-bit address
is refused, like one that does not fit in the memory. -/

namespace WasmHost

/-- The state of the allocator. -/
structure Heap where
  /-- Blocks are handed out from here on. -/
  base : UInt32
  /-- The end of the block handed out last, or `base`. -/
  next : UInt32
  /-- The sizes of the blocks that have not been freed, by address. -/
  sizes : Std.TreeMap UInt32 UInt32

namespace Heap

/-- The alignment of every block. -/
def alignment : Nat := 8

/-- A heap that hands out addresses from `base` on. -/
def new (base : UInt32) : Heap := ⟨base, base, ∅⟩

/-- The least multiple of the alignment at or above `addr`; none if that leaves 32 bits. -/
def alignUp? (addr : UInt32) : Option UInt32 :=
  if addr.toNat + (alignment - 1) < UInt32.size then
    some ((addr + 7) &&& ~~~(7 : UInt32))
  else none

/-- The address of the next block of `size` bytes and the address after it, in a memory of `limit`
    bytes. Requests for nothing and requests that do not fit have none. -/
def place? (h : Heap) (size : UInt32) (limit : Nat) : Option (UInt32 × UInt32) := do
  guard (size ≠ 0)
  let start ← alignUp? h.next
  let stop := start.toNat + size.toNat
  guard (stop < UInt32.size ∧ stop ≤ limit)
  return (start, start + size)

/-- Hand out a block of `size` bytes in a memory of `limit` bytes. -/
def alloc (h : Heap) (size : UInt32) (limit : Nat) : Option (UInt32 × Heap) :=
  (h.place? size limit).map fun (start, stop) =>
    (start, { h with next := stop, sizes := h.sizes.insert start size })

/-- The size of a block that has not been freed. -/
def sizeOf? (h : Heap) (ptr : UInt32) : Option UInt32 := h.sizes[ptr]?

/-- Forget the block at `ptr`, if there is one. -/
def free (h : Heap) (ptr : UInt32) : Heap := { h with sizes := h.sizes.erase ptr }

/-- The number of bytes handed out so far, alignment included. -/
def used (h : Heap) : UInt32 := h.next - h.base

/-! ## Recorded sizes -/

@[simp] theorem sizeOf?_new (base ptr : UInt32) : (new base).sizeOf? ptr = none := by
  simp [new, sizeOf?]

/-- A block that was just handed out has its size; the others keep theirs. -/
theorem sizeOf?_of_alloc {h h' : Heap} {size ptr : UInt32} {limit : Nat}
    (halloc : h.alloc size limit = some (ptr, h')) (q : UInt32) :
    h'.sizeOf? q = if ptr = q then some size else h.sizeOf? q := by
  obtain ⟨placed, _, hplaced⟩ := Option.map_eq_some_iff.1 halloc
  obtain ⟨rfl, rfl⟩ := Prod.mk.inj hplaced
  simp [sizeOf?, Std.TreeMap.getElem?_insert]

/-- A block that was taken back has no size; the others keep theirs. -/
theorem sizeOf?_free (h : Heap) (ptr q : UInt32) :
    (h.free ptr).sizeOf? q = if ptr = q then none else h.sizeOf? q := by
  simp [free, sizeOf?, Std.TreeMap.getElem?_erase]

end Heap

end WasmHost
