import WasmHost.Proofs.Memory.Access
import WasmHost.Proofs.Memory.Strings

set_option autoImplicit false

/-! # Bytes that are overwritten

A change of a memory puts bytes in place of those from an address on and leaves all others alone
(`LinearMemory.Overwritten`). The bytes may be given (`overwritten_write`, `overwritten_fillRange`)
or be those that another range has before the change (`overwritten_copyWithin`); it does not matter
how the two ranges overlap.

A string that is terminated in a memory is a list of bytes (`LinearMemory.StringAt`), so that what
copying strings puts into a memory is an expression on lists. -/

namespace WasmHost

namespace LinearMemory

variable {m m' m'' : LinearMemory} {addr src dst len : UInt32} {start count : Nat}
variable {data s : List UInt8}

/-! ## Ranges of bytes -/

theorem length_slice (h : start + count ≤ UInt32.size) : (m.slice start count).length = count := by
  rw [m.slice_eq_map _ _ h, List.length_map, List.length_range']

theorem getElem_slice (h : start + count ≤ UInt32.size) {i : Nat}
    (hi : i < (m.slice start count).length) : (m.slice start count)[i] = m.byte (start + i) := by
  simp only [m.slice_eq_map _ _ h, List.getElem_map, List.getElem_range', Nat.one_mul]

/-- A list is a range of bytes if it has the bytes one by one. -/
theorem slice_eq_of_bytes (h : start + data.length ≤ UInt32.size)
    (hbytes : ∀ (i : Nat) (hi : i < data.length), m.byte (start + i) = data[i]) :
    m.slice start data.length = data := by
  refine List.ext_getElem (length_slice h) fun i hi hi' => ?_
  rw [getElem_slice h]
  exact hbytes i hi'

/-- The bytes `data` have been put at `start`. All other bytes are as they were; those after the end
    of the memory count too, since growing the memory brings them in. -/
structure Overwritten (before after : LinearMemory) (start : Nat) (data : List UInt8) : Prop where
  inBounds : before.InBounds start data.length
  size_eq : after.size = before.size
  inside (i : Nat) (hi : i < data.length) : after.byte (start + i) = data[i]
  outside (i : Nat) (hi : i < UInt32.size) (hout : i < start ∨ start + data.length ≤ i) :
    after.byte i = before.byte i

namespace Overwritten

theorem stop_le (h : m.Overwritten m' start data) : start + data.length ≤ UInt32.size :=
  Nat.le_trans h.inBounds m.size_le

/-- No bytes at all, anywhere in the memory. -/
theorem nothing (h : start ≤ m.size) : m.Overwritten m start [] where
  inBounds := h
  size_eq := rfl
  inside _ hi := absurd hi (Nat.not_lt_zero _)
  outside _ _ _ := rfl

/-- From one equation for all bytes. -/
theorem of_byte (hbounds : m.InBounds start data.length) (hsize : m'.size = m.size)
    (hbyte : ∀ i < UInt32.size, m'.byte i
      = if start ≤ i ∧ i < start + data.length then data[i - start]?.getD 0 else m.byte i) :
    m.Overwritten m' start data where
  inBounds := hbounds
  size_eq := hsize
  inside i hi := by
    have hstop : start + data.length ≤ UInt32.size := Nat.le_trans hbounds m.size_le
    rw [hbyte _ (by omega), if_pos (by omega), Nat.add_sub_cancel_left,
      List.getElem?_eq_getElem hi, Option.getD_some]
  outside i hi hout := by rw [hbyte i hi, if_neg (by omega)]

/-- Bytes after bytes. -/
theorem append {more : List UInt8} (h : m.Overwritten m' start data)
    (h' : m'.Overwritten m'' (start + data.length) more) :
    m.Overwritten m'' start (data ++ more) where
  inBounds := by
    have hstop : start + data.length + more.length ≤ m'.size := h'.inBounds
    rw [InBounds, List.length_append, ← Nat.add_assoc]
    rwa [h.size_eq] at hstop
  size_eq := h'.size_eq.trans h.size_eq
  inside i hi := by
    have hstop := h'.stop_le
    rw [List.length_append] at hi
    by_cases hfirst : i < data.length
    · rw [List.getElem_append_left hfirst, h'.outside _ (by omega) (.inl (by omega)),
        h.inside i hfirst]
    · rw [List.getElem_append_right (Nat.le_of_not_lt hfirst),
        ← h'.inside (i - data.length) (by omega)]
      congr 1
      omega
  outside i hi hout := by
    rw [List.length_append] at hout
    rw [h'.outside i hi (by omega), h.outside i hi (by omega)]

end Overwritten

/-! ## Changes -/

theorem overwritten_write (h : m.write addr data = .ok m') :
    m.Overwritten m' addr.toNat data := by
  obtain ⟨hbounds, hsize, hbyte⟩ := byte_of_write h
  exact .of_byte hbounds hsize hbyte

theorem overwritten_fillRange (value : UInt8) (h : m.InBounds start count) :
    m.Overwritten (m.fillRange start (start + count) value) start
      (List.replicate count value) := by
  refine .of_byte ?_ rfl fun i hi => ?_
  · rwa [List.length_replicate]
  · rw [m.byte_fillRange _ _ _ i hi, List.length_replicate]
    split
    · rename_i hin
      rw [List.getElem?_replicate_of_lt (by omega), Option.getD_some]
    · rfl

/-- **Copied bytes** are those that the source has before, however the ranges overlap. -/
theorem overwritten_copyRange (hsrc : m.InBounds src.toNat count) (hdst : m.InBounds start count) :
    m.Overwritten (m.copyRange src.toNat start count) start (m.slice src.toNat count) := by
  have hstop : src.toNat + count ≤ UInt32.size := Nat.le_trans hsrc m.size_le
  refine .of_byte ?_ rfl fun i hi => ?_
  · rwa [length_slice hstop]
  · rw [m.byte_copyRange _ _ _ i hstop (Nat.le_trans hdst m.size_le) hi, length_slice hstop]
    split
    · rename_i hin
      have hi' : i - start < (m.slice src.toNat count).length := by
        rw [length_slice hstop]
        omega
      rw [List.getElem?_eq_getElem hi', Option.getD_some, getElem_slice hstop, Nat.add_comm]
    · rfl

theorem overwritten_copyWithin (h : m.copyWithin src dst len = .ok m') :
    m.Overwritten m' dst.toNat (m.slice src.toNat len.toNat) := by
  obtain ⟨hsrc, hdst, rfl⟩ := copyWithin_eq_ok_iff.1 h
  exact overwritten_copyRange hsrc hdst

theorem overwritten_zero (h : m.zero addr len = .ok m') :
    m.Overwritten m' addr.toNat (List.replicate len.toNat 0) := by
  obtain ⟨hbounds, rfl⟩ := zero_eq_ok_iff.1 h
  exact overwritten_fillRange 0 hbounds

/-! ## Strings -/

/-- The address of the zero byte of a string is a word. -/
theorem StringOf.toNat_end (h : m.StringOf addr.toNat count) :
    (addr + count.toUInt32).toNat = addr.toNat + count := by
  have hinside := h.inside
  have hsize := m.size_le
  rw [UInt32.toNat_add, h.toNat]
  exact Nat.mod_eq_of_lt (show addr.toNat + count < UInt32.size by omega)

/-- So is the size of a string with its zero byte, in a memory of less than 2³² bytes. -/
theorem StringOf.toNat_size (h : m.StringOf start count) (hsize : m.size < UInt32.size) :
    (count.toUInt32 + 1).toNat = count + 1 := by
  have hinside := h.inside
  rw [UInt32.toNat_add, h.toNat]
  exact Nat.mod_eq_of_lt (show count + 1 < UInt32.size by omega)

/-- The string at the address: its bytes, of which none is zero, and a zero byte after them. -/
structure StringAt (m : LinearMemory) (addr : UInt32) (s : List UInt8) : Prop
    extends m.HoldsString addr s where
  nonzero : 0 ∉ s

namespace StringAt

theorem stringOf (h : m.StringAt addr s) : m.StringOf addr.toNat s.length where
  inside := h.inBounds
  terminator := h.terminator
  nonzero i hi := by
    rw [h.bytes i hi]
    exact fun hzero => h.nonzero (hzero ▸ List.getElem_mem hi)

theorem of_stringOf (h : m.StringOf addr.toNat count) :
    m.StringAt addr (m.slice addr.toNat count) := by
  have hinside := h.inside
  have hsize := m.size_le
  have hstop : addr.toNat + count ≤ UInt32.size := by omega
  have hlength : (m.slice addr.toNat count).length = count := length_slice hstop
  refine ⟨⟨fun i hi => (getElem_slice hstop hi).symm, ?_, ?_⟩, fun hmem => ?_⟩
  · rw [hlength]
    exact h.terminator
  · rw [hlength]
    exact hinside
  · obtain ⟨i, hi, hzero⟩ := List.getElem_of_mem hmem
    rw [getElem_slice hstop] at hzero
    exact h.nonzero i (hlength ▸ hi) hzero

theorem stringLength_eq (h : m.StringAt addr s) : m.stringLength addr = .ok s.length :=
  stringLength_eq_ok_iff.2 h.stringOf

theorem string_eq (h : m.StringAt addr s) : m.string addr = .ok s :=
  h.toHoldsString.string_eq h.nonzero

theorem of_string_eq (h : m.string addr = .ok s) : m.StringAt addr s := by
  rcases hlength : m.stringLength addr with err | count <;> rw [LinearMemory.string, hlength] at h
  · cases h
  · obtain rfl : m.slice addr.toNat count = s := Except.ok.inj h
    exact of_stringOf (stringLength_eq_ok_iff.1 hlength)

instance (m : LinearMemory) (addr : UInt32) (s : List UInt8) : Decidable (m.StringAt addr s) :=
  decidable_of_iff (m.string addr = .ok s) ⟨of_string_eq, string_eq⟩

/-- There is one string at an address. -/
theorem unique {t : List UInt8} (h : m.StringAt addr s) (h' : m.StringAt addr t) : s = t :=
  Except.ok.inj (h.string_eq.symm.trans h'.string_eq)

/-- The bytes from the address on are those of the string, up to its zero byte. -/
theorem slice_eq (h : m.StringAt addr s) (hcount : count ≤ s.length + 1) :
    m.slice addr.toNat count = (s ++ [0]).take count := by
  have hinside := h.inBounds
  have hsize := m.size_le
  have hlength : ((s ++ [0]).take count).length = count := by
    rw [List.length_take, List.length_append, List.length_singleton]
    omega
  have hbytes (i : Nat) (hi : i < ((s ++ [0]).take count).length) :
      m.byte (addr.toNat + i) = ((s ++ [0]).take count)[i] := by
    rw [List.getElem_take]
    by_cases hlt : i < s.length
    · rw [List.getElem_append_left hlt]
      exact h.bytes i hlt
    · obtain rfl : i = s.length := by omega
      rw [List.getElem_append_right (Nat.le_refl _), List.getElem_singleton]
      exact h.terminator
  have hslice := slice_eq_of_bytes (by omega) hbytes
  rwa [hlength] at hslice

end StringAt

theorem terminated_iff_stringAt : m.Terminated addr ↔ ∃ s, m.StringAt addr s := by
  rw [terminated_iff]
  constructor
  · rintro ⟨count, h⟩
    exact ⟨_, StringAt.of_stringOf h⟩
  · rintro ⟨s, h⟩
    exact ⟨_, h.stringOf⟩

/-- Without a string at the address its length is out of bounds. -/
theorem stringLength_eq_error (h : ¬ m.Terminated addr) :
    ∃ err, m.stringLength addr = .error err ∧ err.Outside m.size := by
  rcases hlength : m.stringLength addr with err | count
  · exact ⟨err, rfl, m.stringLength_outside addr err hlength⟩
  · exact absurd (terminated_of_length hlength) h

/-- A string that is put at the zero byte of another one continues it. -/
theorem Overwritten.stringAt_append {d : List UInt8} (h : m.StringAt addr d) (hs : 0 ∉ s)
    (hput : m.Overwritten m' (addr.toNat + d.length) (s ++ [0])) : m'.StringAt addr (d ++ s) := by
  have hstop : addr.toNat + d.length + (s.length + 1) ≤ m.size := by
    have hbounds := hput.inBounds
    rwa [InBounds, List.length_append, List.length_singleton] at hbounds
  have hsize := m.size_le
  refine ⟨⟨fun i hi => ?_, ?_, ?_⟩, ?_⟩
  · rw [List.length_append] at hi
    by_cases hfirst : i < d.length
    · rw [List.getElem_append_left hfirst, hput.outside _ (by omega) (.inl (by omega)),
        h.bytes i hfirst]
    · rw [List.getElem_append_right (Nat.le_of_not_lt hfirst)]
      have hbyte := hput.inside (i - d.length) (by
        rw [List.length_append, List.length_singleton]
        omega)
      rw [List.getElem_append_left (by omega)] at hbyte
      rw [← hbyte]
      congr 1
      omega
  · have hbyte := hput.inside s.length (by
      rw [List.length_append, List.length_singleton]
      omega)
    rw [List.getElem_append_right (Nat.le_refl _), List.getElem_singleton] at hbyte
    rwa [List.length_append, ← Nat.add_assoc]
  · rw [hput.size_eq, List.length_append]
    omega
  · rw [List.mem_append, not_or]
    exact ⟨h.nonzero, hs⟩

end LinearMemory

end WasmHost
