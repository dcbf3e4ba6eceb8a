import WasmHost.Memory.Error
import WasmHost.Memory.Scan

set_option autoImplicit false

/-! # Linear memory

A linear memory is a run of at most 2³² bytes, addressed from 0. Addresses and lengths are 32-bit
words; every access first checks that `addr + len ≤ size` as unbounded numbers and changes nothing
when it does not. Strings are read and written in the C form, ended by a zero byte.

The view of a memory is `size` and `byte`. `byte_overlay`, `byte_fillRange` and `byte_copyRange` say
what the three ways of changing a memory do to it. -/

namespace WasmHost

/-- A run of at most 2³² bytes. -/
structure LinearMemory where
  /-- The number of bytes. -/
  size : Nat
  /-- The bytes; those at `size` and beyond are never read. -/
  cells : Cells
  /-- Every address fits in 32 bits. -/
  size_le : size ≤ UInt32.size

namespace LinearMemory

/-- The number of bits of an address. -/
def addressBits : Nat := 32

/-- The byte at address `i`. -/
def byte (m : LinearMemory) (i : Nat) : UInt8 := m.cells.get addressBits i

/-- `size` zero bytes, or as many as a memory can have. -/
def zeros (size : Nat) : LinearMemory :=
  ⟨min size UInt32.size, .all 0, Nat.min_le_right _ _⟩

instance : Inhabited LinearMemory := ⟨zeros 0⟩

/-- The same bytes in a memory of `size` bytes, or as many as a memory can have. -/
def resize (m : LinearMemory) (size : Nat) : LinearMemory :=
  ⟨min size UInt32.size, m.cells, Nat.min_le_right _ _⟩

/-! ## Unchecked changes -/

/-- Replace the bytes from `start` up to `stop` by those of `f`. -/
def overlay (m : LinearMemory) (start stop : Nat) (f : Nat → UInt8) : LinearMemory :=
  { m with cells := m.cells.overlay f start stop addressBits 0 }

/-- Replace the bytes from `start` up to `stop` by `b`. -/
def fillRange (m : LinearMemory) (start stop : Nat) (b : UInt8) : LinearMemory :=
  { m with cells := m.cells.fill b start stop addressBits 0 }

/-- The distance from `dst` to `src`, around the end of the address space if need be. -/
def distance (src dst : Nat) : Nat := (src + (UInt32.size - dst)) % UInt32.size

/-- Replace the `len` bytes from `dst` on by those from `src` on, as they are before. -/
def copyRange (m : LinearMemory) (src dst len : Nat) : LinearMemory :=
  { m with cells :=
      m.cells.copy dst (dst + len) addressBits 0 m.cells m.cells (distance src dst) }

@[simp] theorem size_overlay (m : LinearMemory) (start stop : Nat) (f : Nat → UInt8) :
    (m.overlay start stop f).size = m.size := rfl

@[simp] theorem size_fillRange (m : LinearMemory) (start stop : Nat) (b : UInt8) :
    (m.fillRange start stop b).size = m.size := rfl

@[simp] theorem size_copyRange (m : LinearMemory) (src dst len : Nat) :
    (m.copyRange src dst len).size = m.size := rfl

theorem byte_overlay (m : LinearMemory) (start stop : Nat) (f : Nat → UInt8) (i : Nat)
    (hi : i < UInt32.size) :
    (m.overlay start stop f).byte i = if start ≤ i ∧ i < stop then f i else m.byte i := by
  unfold overlay byte
  rw [Cells.get_overlay f start stop addressBits 0 m.cells i hi, Nat.zero_add]

theorem byte_fillRange (m : LinearMemory) (start stop : Nat) (b : UInt8) (i : Nat)
    (hi : i < UInt32.size) :
    (m.fillRange start stop b).byte i = if start ≤ i ∧ i < stop then b else m.byte i := by
  unfold fillRange byte
  rw [Cells.get_fill b start stop addressBits 0 m.cells i hi, Nat.zero_add]

theorem byte_copyRange (m : LinearMemory) (src dst len i : Nat) (hsrc : src + len ≤ UInt32.size)
    (hdst : dst + len ≤ UInt32.size) (hi : i < UInt32.size) :
    (m.copyRange src dst len).byte i
      = if dst ≤ i ∧ i < dst + len then m.byte (i - dst + src) else m.byte i := by
  have hspan : Cells.span addressBits = UInt32.size := rfl
  unfold copyRange byte
  rw [Cells.get_copy dst (dst + len) addressBits 0 m.cells m.cells m.cells (distance src dst) i
    (Nat.mod_lt _ (by decide)) hi, Nat.zero_add]
  by_cases hin : dst ≤ i ∧ i < dst + len
  · rw [if_pos hin, if_pos hin]
    have hsize : UInt32.size = 4294967296 := rfl
    rw [hsize] at hsrc hdst hi
    rw [Cells.get_split, hspan, distance, hsize]
    split <;> exact congrArg _ (by omega)
  · rw [if_neg hin, if_neg hin]

@[simp] theorem byte_zeros (size i : Nat) : (zeros size).byte i = 0 := by
  simp [zeros, byte]

/-! ## Searches -/

/-- The least address from `start` up to `stop` whose byte is `c`. -/
def findByte? (m : LinearMemory) (c : UInt8) (start stop : Nat) : Option Nat :=
  m.cells.find? (· == c) start stop addressBits 0

/-- The greatest address from `start` up to `stop` whose byte is `c`. -/
def findLastByte? (m : LinearMemory) (c : UInt8) (start stop : Nat) : Option Nat :=
  m.cells.findLast? (· == c) start stop addressBits 0

/-! ## Checked accesses -/

/-- Whether the `len` bytes at `addr` are inside the memory. -/
def InBounds (m : LinearMemory) (addr len : Nat) : Prop := addr + len ≤ m.size

instance (m : LinearMemory) (addr len : Nat) : Decidable (m.InBounds addr len) :=
  inferInstanceAs (Decidable (addr + len ≤ m.size))

/-- Fail unless the `len` bytes at `addr` are inside the memory. -/
def check (m : LinearMemory) (addr len : Nat) : Except MemoryError Unit :=
  if m.InBounds addr len then .ok () else .error (.outOfBounds addr len m.size)

/-- The bytes from `start` on, `len` of them, unchecked. -/
def slice (m : LinearMemory) (start len : Nat) : List UInt8 :=
  m.cells.collect start (start + len) addressBits 0 []

/-- The `len` bytes at `addr`. -/
def read (m : LinearMemory) (addr len : UInt32) : Except MemoryError (List UInt8) := do
  m.check addr.toNat len.toNat
  return m.slice addr.toNat len.toNat

/-- Put `data` at `addr`. Data of 2³² bytes or more has no 32-bit length and never fits. -/
def write (m : LinearMemory) (addr : UInt32) (data : List UInt8) :
    Except MemoryError LinearMemory := do
  let bytes := data.toArray
  if UInt32.size ≤ bytes.size then
    throw (.outOfBounds addr.toNat bytes.size m.size)
  m.check addr.toNat bytes.size
  return m.overlay addr.toNat (addr.toNat + bytes.size) (fun i => bytes.getD (i - addr.toNat) 0)

/-- Set the `len` bytes at `addr` to `value`. -/
def fill (m : LinearMemory) (addr : UInt32) (value : UInt8) (len : UInt32) :
    Except MemoryError LinearMemory := do
  m.check addr.toNat len.toNat
  return m.fillRange addr.toNat (addr.toNat + len.toNat) value

/-- Set the `len` bytes at `addr` to zero. -/
def zero (m : LinearMemory) (addr len : UInt32) : Except MemoryError LinearMemory :=
  m.fill addr 0 len

/-- Copy the `len` bytes at `src` to `dst`; the ranges may overlap. The source is checked first. -/
def copyWithin (m : LinearMemory) (src dst len : UInt32) : Except MemoryError LinearMemory := do
  m.check src.toNat len.toNat
  m.check dst.toNat len.toNat
  return m.copyRange src.toNat dst.toNat len.toNat

/-- The byte at `addr`. -/
def readByte (m : LinearMemory) (addr : UInt32) : Except MemoryError UInt8 := do
  m.check addr.toNat 1
  return m.byte addr.toNat

/-- Put one byte at `addr`. -/
def writeByte (m : LinearMemory) (addr : UInt32) (value : UInt8) :
    Except MemoryError LinearMemory :=
  m.write addr [value]

/-! ## C strings -/

/-- The length of the string at `addr`, up to its zero byte. Without one before the end of the
    memory the string is out of bounds: it needs one byte more than the memory has from `addr`. -/
def stringLength (m : LinearMemory) (addr : UInt32) : Except MemoryError Nat :=
  match m.findByte? 0 addr.toNat m.size with
  | some z => .ok (z - addr.toNat)
  | none => .error (.outOfBounds addr.toNat (m.size - addr.toNat + 1) m.size)

/-- The string at `addr`, without its zero byte. -/
def string (m : LinearMemory) (addr : UInt32) : Except MemoryError (List UInt8) := do
  let len ← m.stringLength addr
  return m.slice addr.toNat len

/-- Put `s` and a zero byte at `addr`. The bytes of `s` are already in place when the zero byte
    turns out not to fit, so the memory is given back also on failure. -/
def writeString (m : LinearMemory) (addr : UInt32) (s : List UInt8) :
    Except MemoryError Unit × LinearMemory :=
  match m.write addr s with
  | .error e => (.error e, m)
  | .ok m' =>
      if addr.toNat + s.length < UInt32.size then
        match m'.writeByte (addr + s.length.toUInt32) 0 with
        | .error e => (.error e, m')
        | .ok m'' => (.ok (), m'')
      else (.error (.outOfBounds addr.toNat (s.length + 1) m.size), m')

/-- The memory that holds exactly `data`, as far as a memory can. -/
def ofBytes (data : List UInt8) : LinearMemory :=
  let bytes := data.toArray
  (zeros bytes.size).overlay 0 bytes.size (fun i => bytes.getD i 0)

/-- All bytes in order. -/
def toBytes (m : LinearMemory) : List UInt8 := m.slice 0 m.size

end LinearMemory

end WasmHost
