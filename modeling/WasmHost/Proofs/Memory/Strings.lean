import WasmHost.Proofs.Action
import WasmHost.Proofs.Memory.Bounds
import WasmHost.Proofs.Memory.Scanning

set_option autoImplicit false

/-! # Strings in memory

A string lies in a memory if its bytes do, followed by a zero byte (`LinearMemory.HoldsString`). Then
it is read back as it is if none of its bytes is zero, and strings that are put into a memory lie
there, also those that are put into a block of the heap. -/

namespace WasmHost

open WasmHost.Action

variable {ι : Type}

namespace LinearMemory

/-- The bytes of the string and a zero byte are at the address. -/
structure HoldsString (m : LinearMemory) (addr : UInt32) (s : List UInt8) : Prop where
  bytes (i : Nat) (h : i < s.length) : m.byte (addr.toNat + i) = s[i]
  terminator : m.byte (addr.toNat + s.length) = 0
  inBounds : addr.toNat + s.length < m.size

variable {m m' : LinearMemory} {addr : UInt32} {s : List UInt8}

/-- **A string without zero bytes is read as it is.** -/
theorem HoldsString.string_eq (h : m.HoldsString addr s) (hs : 0 ∉ s) : m.string addr = .ok s := by
  have hend : m.findByte? 0 addr.toNat m.size = some (addr.toNat + s.length) := by
    rw [findByte?_eq_some_iff m 0 _ _ _ m.size_le]
    refine ⟨Nat.le_add_right _ _, h.inBounds, h.terminator, fun i hi hlt => ?_⟩
    have hbyte := h.bytes (i - addr.toNat) (by omega)
    rw [Nat.add_sub_cancel' hi] at hbyte
    rw [hbyte]
    exact fun hzero => hs (hzero ▸ List.getElem_mem _)
  have hslice : m.slice addr.toNat s.length = s := by
    rw [slice_eq_map m _ _ (Nat.le_trans (Nat.le_of_lt h.inBounds) m.size_le)]
    refine List.ext_getElem (by rw [List.length_map, List.length_range']) fun i hi hi' => ?_
    rw [List.getElem_map, List.getElem_range', Nat.one_mul]
    exact h.bytes i hi'
  have hlength : m.stringLength addr = .ok s.length := by
    rw [stringLength, hend]
    exact congrArg Except.ok (Nat.add_sub_cancel_left _ _)
  rw [string, hlength]
  exact congrArg Except.ok hslice

/-- What is in a memory after data has been put there. -/
theorem byte_of_write {data : List UInt8} (h : m.write addr data = .ok m') :
    addr.toNat + data.length ≤ m.size ∧ m'.size = m.size
      ∧ ∀ i < UInt32.size, m'.byte i
          = if addr.toNat ≤ i ∧ i < addr.toNat + data.length then data[i - addr.toNat]?.getD 0
            else m.byte i := by
  have hsize := size_of_write h
  rw [write] at h
  dsimp only at h
  split at h
  · cases h
  rcases hcheck : m.check addr.toNat data.toArray.size with err | _ <;> rw [hcheck] at h <;> cases h
  rw [check] at hcheck
  split at hcheck <;> cases hcheck
  rename_i hbounds
  refine ⟨hbounds, hsize, fun i hi => ?_⟩
  rw [byte_overlay _ _ _ _ _ hi, List.size_toArray, Array.getD_eq_getD_getElem?,
    List.getElem?_toArray]

/-- **A string that has been put into a memory lies there.** -/
theorem holdsString_writeString (h : m.writeString addr s = (.ok (), m')) :
    m'.HoldsString addr s ∧ m'.size = m.size := by
  rw [writeString] at h
  rcases hwrite : m.write addr s with err | m₁ <;> rw [hwrite] at h
  · cases h
  dsimp only at h
  split at h
  case isFalse => cases h
  rename_i hlt
  rcases hzero : m₁.writeByte (addr + s.length.toUInt32) 0 with err | m₂ <;> rw [hzero] at h <;>
    cases h
  obtain ⟨hbounds, hsize, hbyte⟩ := byte_of_write hwrite
  obtain ⟨hbounds', hsize', hbyte'⟩ := byte_of_write hzero
  have haddr : (addr + s.length.toUInt32).toNat = addr.toNat + s.length := by
    have hlength : s.length.toUInt32.toNat = s.length :=
      UInt32.toNat_ofNat_of_lt' (Nat.lt_of_le_of_lt (Nat.le_add_left _ _) hlt)
    rw [UInt32.toNat_add, hlength, Nat.mod_eq_of_lt hlt]
  rw [haddr] at hbounds' hbyte'
  rw [List.length_singleton] at hbounds' hbyte'
  refine ⟨⟨fun i hi => ?_, ?_, by omega⟩, hsize'.trans hsize⟩
  · rw [hbyte' _ (by omega), if_neg (by omega), hbyte _ (by omega), if_pos (by omega),
      Nat.add_sub_cancel_left, List.getElem?_eq_getElem hi, Option.getD_some]
  · rw [hbyte' _ hlt, if_pos (by omega), Nat.sub_self]
    rfl

end LinearMemory

/-! ## The active memory -/

/-- The string lies in the active memory. -/
def Machine.HoldsString (m : Machine ι) (addr : UInt32) (s : List UInt8) : Prop :=
  ∃ active, m.activeMemory = .ok active ∧ active.2.HoldsString addr s

/-- A string that has been put into the active memory lies there. -/
theorem Machine.holdsString_onMemory {m m' : Machine ι} {addr : UInt32} {s : List UInt8}
    (h : onMemory (.writeString addr s) m = (.ok (), m')) : m'.HoldsString addr s := by
  rcases hactive : m.host.arena.active with err | memory
  · rw [onMemory, onContents, activeMemory, hactive] at h
    cases h
  rw [onMemory_of_active hactive] at h
  obtain ⟨hresult, rfl⟩ := Prod.mk.inj h
  obtain ⟨hheld, hsize⟩ := LinearMemory.holdsString_writeString (Prod.ext hresult rfl)
  -- something could be written, so the active memory is in the store
  have hmemory : memory < m.store.memories.size := by
    refine Nat.lt_of_not_le fun hge => ?_
    have hempty : (m.store.memoryAt memory).contents.size = 0 := by
      rw [Store.memoryAt, Array.getD_eq_getD_getElem?, Array.getElem?_eq_none hge]
      rfl
    have hlt := hheld.inBounds
    omega
  refine ⟨_, activeMemory_of_active hactive, ?_⟩
  dsimp only
  rw [m.store.memoryAt_setContents hmemory]
  exact hheld

/-- **A string that has been copied into a block of the heap lies there.** -/
theorem Machine.holdsString_allocateString {m m' : Machine ι} {ptr : UInt32} {s : List UInt8}
    (h : allocateString s m = (.ok ptr, m')) (hptr : ptr ≠ 0) : m'.HoldsString ptr s := by
  obtain ⟨size, -, h⟩ := allocateString_eq_ok h
  rw [storeString, bind_apply] at h
  rcases hblock : allocate? size m with ⟨err | _ | block, m₁⟩ <;> rw [hblock] at h
  · cases h
  · cases h
    exact absurd rfl hptr
  · dsimp only at h
    rw [bind_pure_apply] at h
    rcases hwrite : (onMemory (.writeString block s) : Action ι MemoryError Unit) m₁
      with ⟨err | _, m₂⟩ <;> rw [hwrite] at h <;> cases h
    exact holdsString_onMemory hwrite

end WasmHost
