import WasmHost.Libc.Bytes
import WasmHost.Machine
import WasmHost.Proofs.Computation

set_option autoImplicit false

/-! # Failed accesses are out of bounds

An operation on a memory fails only if it needs bytes that are not all in the memory, and then the
error says which ones and how large the memory is (`MemoryError.Outside`). No operation changes the
size of the memory. A memory of 2³² bytes is left out: data of that length would fit, but has no
length that the operations could pass on. -/

namespace WasmHost

variable {α β : Type}

/-- The error is about bytes that are not all inside a memory of `size` bytes. -/
def MemoryError.Outside (size : Nat) : MemoryError → Prop
  | .outOfBounds addr len size' => size' = size ∧ size < addr + len
  | _ => False

/-- The computation fails only by an access outside a memory of `size` bytes. -/
def FailsOutside (size : Nat) (x : Except MemoryError α) : Prop :=
  ∀ err, x = .error err → err.Outside size

namespace FailsOutside

variable {size : Nat}

theorem ok (a : α) : FailsOutside size (.ok a) := fun _ h => by cases h

theorem error {err : MemoryError} (h : err.Outside size) :
    FailsOutside size (.error err : Except MemoryError α) := fun _ heq => by
  cases heq
  exact h

theorem bind {x : Except MemoryError α} {f : α → Except MemoryError β} (hx : FailsOutside size x)
    (hf : ∀ a, FailsOutside size (f a)) : FailsOutside size (x >>= f) := by
  rcases x with err | a
  · exact .error (hx err rfl)
  · exact hf a

end FailsOutside

/-! ## Operations on a memory -/

namespace LinearMemory

variable (m : LinearMemory)

theorem check_outside (addr len : Nat) : FailsOutside m.size (m.check addr len) := by
  unfold check
  split
  · exact .ok _
  · rename_i hbounds
    exact .error ⟨rfl, Nat.lt_of_not_le hbounds⟩

theorem read_outside (addr len : UInt32) : FailsOutside m.size (m.read addr len) :=
  (m.check_outside _ _).bind fun _ => .ok _

theorem write_outside (h : m.size < UInt32.size) (addr : UInt32) (data : List UInt8) :
    FailsOutside m.size (m.write addr data) := by
  unfold write
  dsimp only
  split
  · rename_i hlong
    exact .error ⟨rfl, Nat.lt_of_lt_of_le h (Nat.le_trans hlong (Nat.le_add_left _ _))⟩
  · exact (m.check_outside _ _).bind fun _ => .ok _

theorem fill_outside (addr : UInt32) (value : UInt8) (len : UInt32) :
    FailsOutside m.size (m.fill addr value len) :=
  (m.check_outside _ _).bind fun _ => .ok _

theorem copyWithin_outside (src dst len : UInt32) :
    FailsOutside m.size (m.copyWithin src dst len) :=
  (m.check_outside _ _).bind fun _ => (m.check_outside _ _).bind fun _ => .ok _

theorem stringLength_outside (addr : UInt32) : FailsOutside m.size (m.stringLength addr) := by
  unfold stringLength
  split
  · exact .ok _
  · exact .error ⟨rfl, by omega⟩

theorem string_outside (addr : UInt32) : FailsOutside m.size (m.string addr) :=
  (m.stringLength_outside addr).bind fun _ => .ok _

variable {m} {m' : LinearMemory}

theorem size_of_write {addr : UInt32} {data : List UInt8} (h : m.write addr data = .ok m') :
    m'.size = m.size := by
  unfold write at h
  dsimp only at h
  split at h
  · cases h
  · rcases hcheck : m.check addr.toNat data.toArray.size with err | _ <;> rw [hcheck] at h <;> cases h
    rfl

theorem size_of_fill {addr : UInt32} {value : UInt8} {len : UInt32}
    (h : m.fill addr value len = .ok m') : m'.size = m.size := by
  unfold fill at h
  rcases hcheck : m.check addr.toNat len.toNat with err | _ <;> rw [hcheck] at h <;> cases h
  rfl

theorem size_of_copyWithin {src dst len : UInt32} (h : m.copyWithin src dst len = .ok m') :
    m'.size = m.size := by
  unfold copyWithin at h
  rcases hsrc : m.check src.toNat len.toNat with err | _ <;> rw [hsrc] at h
  · cases h
  rcases hdst : m.check dst.toNat len.toNat with err | _ <;> rw [hdst] at h <;> cases h
  rfl

end LinearMemory

namespace Libc

/-- **A query fails only outside the memory.** -/
theorem MemoryQuery.answer_outside (q : MemoryQuery) (words : Nat → UInt32) (m : LinearMemory) :
    FailsOutside m.size (q.answer words m) := by
  have hterminated (addr : UInt32) : FailsOutside m.size (terminated m addr) :=
    (m.string_outside addr).bind fun _ => .ok _
  cases q with
  | memcmp => exact (m.read_outside _ _).bind fun _ => (m.read_outside _ _).bind fun _ => .ok _
  | memchr => exact (m.check_outside _ _).bind fun _ => .ok _
  | strlen | strchr | strrchr => exact (m.stringLength_outside _).bind fun _ => .ok _
  | strcmp | strncmp => exact (hterminated _).bind fun _ => (hterminated _).bind fun _ => .ok _

end Libc

/-! ## Computations on a memory -/

namespace MemoryAction

/-- The computation keeps the size of the memory and fails only outside it. -/
def Confined (x : MemoryAction α) : Prop :=
  ∀ m, m.size < UInt32.size → (x m).2.size = m.size ∧ FailsOutside m.size (x m).1

theorem Confined.change {f : LinearMemory → Except MemoryError LinearMemory}
    (h : ∀ m, m.size < UInt32.size → FailsOutside m.size (f m))
    (hsize : ∀ m m', f m = .ok m' → m'.size = m.size) : Confined (change f) := by
  intro m hm
  unfold MemoryAction.change
  rcases hf : f m with err | m'
  · exact ⟨rfl, .error (h m hm err hf)⟩
  · exact ⟨hsize m m' hf, .ok ()⟩

theorem Confined.copyWithin (src dst len : UInt32) :
    Confined (MemoryAction.change (·.copyWithin src dst len)) :=
  .change (fun m _ => m.copyWithin_outside src dst len) fun _ _ => LinearMemory.size_of_copyWithin

theorem Confined.fill (addr : UInt32) (value : UInt8) (len : UInt32) :
    Confined (MemoryAction.change (·.fill addr value len)) :=
  .change (fun m _ => m.fill_outside addr value len) fun _ _ => LinearMemory.size_of_fill

/-- Also a string that does not fit is out of bounds, even if its bytes are and its zero byte is
    not. -/
theorem Confined.writeString (addr : UInt32) (s : List UInt8) : Confined (writeString addr s) := by
  intro m hm
  unfold MemoryAction.writeString LinearMemory.writeString
  rcases hwrite : m.write addr s with err | m'
  · exact ⟨rfl, .error (m.write_outside hm addr s err hwrite)⟩
  have hsize := LinearMemory.size_of_write hwrite
  dsimp only
  split
  · rcases hzero : m'.writeByte (addr + s.length.toUInt32) 0 with err | m''
    · have houtside := m'.write_outside (by rw [hsize]; exact hm) _ _ err hzero
      rw [hsize] at houtside
      exact ⟨hsize, .error houtside⟩
    · exact ⟨(LinearMemory.size_of_write hzero).trans hsize, .ok ()⟩
  · exact ⟨hsize, .error ⟨rfl, by omega⟩⟩

end MemoryAction

end WasmHost
