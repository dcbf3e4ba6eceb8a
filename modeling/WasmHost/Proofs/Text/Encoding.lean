import Mathlib.Data.List.Basic
import WasmHost.Text.Latin1

set_option autoImplicit false

/-! # The bytes of a text as characters

Texts leave the host as UTF-8, and names come in byte by byte. A name that goes out and comes in
again is the same just if all of its characters are ASCII (`latin1_encode_eq_iff`): any other
character has several bytes, and each of them becomes a character of its own. -/

namespace WasmHost

/-- The bytes of a text in UTF-8. -/
def Utf8.encode (text : String) : List UInt8 := text.toUTF8.data.toList

/-- All characters of the text are below U+0080. -/
def Utf8.IsAscii (text : String) : Prop := ∀ c ∈ text.toList, c.val ≤ 127

instance (text : String) : Decidable (Utf8.IsAscii text) :=
  inferInstanceAs (Decidable (∀ c ∈ text.toList, c.val ≤ 127))

namespace Utf8

theorem encode_eq (text : String) : encode text = text.toList.flatMap String.utf8EncodeChar := by
  rw [encode, String.toUTF8, ← String.utf8Encode_toList, List.utf8Encode,
    List.toList_data_toByteArray]

/-- The zero byte occurs in the zero character only. -/
theorem zero_notMem_encodeChar {c : Char} (h : c ≠ '\x00') : 0 ∉ String.utf8EncodeChar c := by
  have hc : c.val.toNat ≠ 0 := fun h0 => h (Char.ext (UInt32.toNat_inj.1 h0))
  have hbyte {n : Nat} (hn : n % 256 ≠ 0) : (0 : UInt8) ≠ UInt8.ofNat n := by
    intro h0
    rw [← UInt8.toNat_inj, UInt8.toNat_ofNat'] at h0
    exact hn h0.symm
  rw [String.utf8EncodeChar]
  split
  · rw [List.mem_singleton]
    exact hbyte (by omega)
  split
  · simp only [List.mem_cons, List.not_mem_nil, or_false, not_or]
    exact ⟨hbyte (by omega), hbyte (by omega)⟩
  split
  · simp only [List.mem_cons, List.not_mem_nil, or_false, not_or]
    exact ⟨hbyte (by omega), hbyte (by omega), hbyte (by omega)⟩
  · simp only [List.mem_cons, List.not_mem_nil, or_false, not_or]
    exact ⟨hbyte (by omega), hbyte (by omega), hbyte (by omega), hbyte (by omega)⟩

/-- A text without the zero character has no zero byte. -/
theorem zero_notMem_encode {text : String} (h : '\x00' ∉ text.toList) : 0 ∉ encode text := by
  rw [encode_eq, List.mem_flatMap]
  rintro ⟨c, hc, hzero⟩
  exact zero_notMem_encodeChar (fun h0 => h (h0 ▸ hc)) hzero

theorem length_le_length_encode (cs : List Char) :
    cs.length ≤ (cs.flatMap String.utf8EncodeChar).length := by
  induction cs with
  | nil => exact Nat.le_refl _
  | cons c cs ih =>
      have hpos := c.utf8Size_pos
      rw [List.flatMap_cons, List.length_append, String.length_utf8EncodeChar, List.length_cons]
      omega

/-- There are more bytes than characters unless the text is ASCII. -/
theorem isAscii_of_length_encode {text : String}
    (h : (encode text).length = text.toList.length) : IsAscii text := by
  rw [encode_eq] at h
  rw [IsAscii]
  generalize text.toList = cs at h ⊢
  induction cs with
  | nil => exact fun _ hc => absurd hc List.not_mem_nil
  | cons c cs ih =>
      have hpos := c.utf8Size_pos
      have hrest := length_le_length_encode cs
      rw [List.flatMap_cons, List.length_append, String.length_utf8EncodeChar,
        List.length_cons] at h
      exact List.forall_mem_cons.2 ⟨Char.utf8Size_eq_one_iff.1 (by omega), ih (by omega)⟩

/-- An ASCII text has one byte for each character. -/
theorem encode_of_isAscii {text : String} (h : IsAscii text) :
    encode text = text.toList.map (·.val.toUInt8) := by
  rw [IsAscii] at h
  rw [encode_eq]
  generalize text.toList = cs at h ⊢
  induction cs with
  | nil => rfl
  | cons c cs ih =>
      obtain ⟨hc, hcs⟩ := List.forall_mem_cons.1 h
      rw [List.flatMap_cons, String.utf8EncodeChar_eq_singleton (Char.utf8Size_eq_one_iff.2 hc),
        ih hcs, List.singleton_append, List.map_cons]

end Utf8

/-- A character of one byte is that byte. -/
theorem latin1_encodeChar {c : Char} (h : c.val ≤ 127) :
    (String.utf8EncodeChar c).map (fun b => Char.ofNat b.toNat) = [c] := by
  have hc : c.val.toUInt8.toNat = c.toNat := by
    rw [UInt32.toNat_toUInt8]
    exact Nat.mod_eq_of_lt (Nat.lt_of_le_of_lt (UInt32.le_iff_toNat_le.1 h) (by decide))
  rw [String.utf8EncodeChar_eq_singleton (Char.utf8Size_eq_one_iff.2 h), List.map_singleton, hc,
    Char.ofNat_toNat]

/-- **A text is read back from its bytes** just if it is ASCII. -/
theorem latin1_encode_eq_iff (text : String) :
    latin1 (Utf8.encode text) = text ↔ Utf8.IsAscii text := by
  constructor
  · intro h
    apply Utf8.isAscii_of_length_encode
    have hlength := congrArg (fun text => text.toList.length) h
    rwa [latin1, String.toList_ofList, List.length_map] at hlength
  · intro h
    rw [← String.toList_inj, latin1, String.toList_ofList, Utf8.encode_eq, List.map_flatMap]
    rw [Utf8.IsAscii] at h
    generalize text.toList = cs at h ⊢
    induction cs with
    | nil => rfl
    | cons c cs ih =>
        obtain ⟨hc, hcs⟩ := List.forall_mem_cons.1 h
        rw [List.flatMap_cons, latin1_encodeChar hc, ih hcs, List.singleton_append]

end WasmHost
