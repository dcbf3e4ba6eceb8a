import Mathlib.Data.List.TakeWhile
import WasmHost.Proofs.Memory.Overwriting

set_option autoImplicit false

/-! # Writing strings

A string is written in two accesses that are checked one after the other, first its text and then
its zero byte. So there are three outcomes (`LinearMemory.StringWrite`): both are written, or
neither is since not even the text is inside the memory, or the text is written and then the zero
byte turns out not to fit. The last one happens just if the text ends where the memory ends.

The main result is `LinearMemory.writeString_exact`; a memory that is left with half of a string is
in `LinearMemory.writeString_leaves_text`. -/

namespace WasmHost.LinearMemory

variable {m m' : LinearMemory} {addr : UInt32} {data s t rest : List UInt8}

/-! ## Single writes -/

/-- Data that has a 32-bit length is written if it is inside. -/
theorem write_of_inBounds (hlength : data.length < UInt32.size)
    (h : m.InBounds addr.toNat data.length) :
    ∃ m', m.write addr data = .ok m' ∧ m.Overwritten m' addr.toNat data := by
  obtain ⟨m', hwrite⟩ : ∃ m', m.write addr data = .ok m' := by
    have hlong : ¬ UInt32.size ≤ data.toArray.size := Nat.not_le_of_lt hlength
    refine ⟨m.overlay addr.toNat (addr.toNat + data.toArray.size)
      (fun i => data.toArray.getD (i - addr.toNat) 0), ?_⟩
    rw [write]
    dsimp only
    rw [if_neg hlong, List.size_toArray, check_of_inBounds h]
    rfl
  exact ⟨m', hwrite, overwritten_write hwrite⟩

/-- Otherwise the whole range is reported. -/
theorem write_of_not_inBounds
    (h : ¬ (data.length < UInt32.size ∧ m.InBounds addr.toNat data.length)) :
    m.write addr data = .error (.outOfBounds addr.toNat data.length m.size) := by
  rw [write]
  dsimp only
  rw [List.size_toArray]
  by_cases hlong : UInt32.size ≤ data.length
  · rw [if_pos hlong]
    rfl
  · have hbounds : ¬ m.InBounds addr.toNat data.length :=
      fun hbounds => h ⟨Nat.lt_of_not_le hlong, hbounds⟩
    rw [if_neg hlong, check_of_not_inBounds hbounds]
    rfl

/-! ## Text and zero byte -/

/-- The text ends where the memory ends, so that there is no room for a zero byte. A text of 2³²
    bytes has no 32-bit length, and does not count. -/
def EndsWith (m : LinearMemory) (addr : UInt32) (s : List UInt8) : Prop :=
  addr.toNat + s.length = m.size ∧ s.length < UInt32.size

instance (m : LinearMemory) (addr : UInt32) (s : List UInt8) : Decidable (m.EndsWith addr s) :=
  inferInstanceAs (Decidable (_ ∧ _))

/-- The error of a zero byte that does not fit: it is the byte at the end of the memory that is
    reported, if that has an address, and else the whole string. -/
def unfinished (m : LinearMemory) (addr : UInt32) (s : List UInt8) : MemoryError :=
  if m.size < UInt32.size then .outOfBounds m.size 1 m.size
  else .outOfBounds addr.toNat (s.length + 1) m.size

/-- What can become of a string that is written, and of the memory. -/
inductive StringWrite (m : LinearMemory) (addr : UInt32) (s : List UInt8) :
    Except MemoryError Unit × LinearMemory → Prop where
  | complete {m' : LinearMemory} (hput : m.Overwritten m' addr.toNat (s ++ [0])) :
      StringWrite m addr s (.ok (), m')
  | textOnly {m' : LinearMemory} (hend : m.EndsWith addr s)
      (hput : m.Overwritten m' addr.toNat s) :
      StringWrite m addr s (.error (m.unfinished addr s), m')
  | refused (houtside : ¬ (s.length < UInt32.size ∧ m.InBounds addr.toNat s.length)) :
      StringWrite m addr s (.error (.outOfBounds addr.toNat s.length m.size), m)

/-- **A string** is written in one of the three ways. -/
theorem stringWrite (m : LinearMemory) (addr : UInt32) (s : List UInt8) :
    m.StringWrite addr s (m.writeString addr s) := by
  rw [writeString]
  by_cases htext : s.length < UInt32.size ∧ m.InBounds addr.toNat s.length
  case neg =>
    rw [write_of_not_inBounds htext]
    exact .refused htext
  obtain ⟨hlength, hbounds⟩ := htext
  obtain ⟨m₁, hwrite, hput⟩ := write_of_inBounds hlength hbounds
  have hsize := m.size_le
  have hstop : addr.toNat + s.length ≤ m.size := hbounds
  rw [hwrite]
  dsimp only
  by_cases hlt : addr.toNat + s.length < UInt32.size
  case neg =>
    -- the memory has 2³² bytes, and the zero byte no address
    have herror : MemoryError.outOfBounds addr.toNat (s.length + 1) m.size = m.unfinished addr s :=
      (if_neg (by omega)).symm
    rw [if_neg hlt, herror]
    exact .textOnly ⟨by omega, hlength⟩ hput
  have haddr : (addr + s.length.toUInt32).toNat = addr.toNat + s.length := by
    have hword : s.length.toUInt32.toNat = s.length := UInt32.toNat_ofNat_of_lt' hlength
    rw [UInt32.toNat_add, hword]
    exact Nat.mod_eq_of_lt hlt
  rw [if_pos hlt, writeByte]
  by_cases hroom : addr.toNat + s.length < m.size
  · obtain ⟨m₂, hzero, hput'⟩ : ∃ m₂, m₁.write (addr + s.length.toUInt32) [0] = .ok m₂
        ∧ m₁.Overwritten m₂ (addr + s.length.toUInt32).toNat [0] := by
      refine write_of_inBounds (by decide) ?_
      rw [haddr, InBounds, hput.size_eq]
      exact hroom
    rw [haddr] at hput'
    rw [hzero]
    exact .complete (hput.append hput')
  · have hzero : m₁.write (addr + s.length.toUInt32) [0] = .error (m.unfinished addr s) := by
      have hend : addr.toNat + s.length = m.size := by omega
      rw [write_of_not_inBounds, haddr, hput.size_eq, unfinished, if_pos (by omega), hend]
      · rfl
      · rw [haddr, InBounds, hput.size_eq, List.length_singleton]
        omega
    rw [hzero]
    exact .textOnly ⟨by omega, hlength⟩ hput

/-- A string for which there is room is written in full. -/
theorem writeString_of_inBounds (h : m.InBounds addr.toNat (s.length + 1)) :
    ∃ m', m.writeString addr s = (.ok (), m') ∧ m.Overwritten m' addr.toNat (s ++ [0]) := by
  have hstop : addr.toNat + (s.length + 1) ≤ m.size := h
  have hsize := m.size_le
  have hcases := m.stringWrite addr s
  generalize m.writeString addr s = run at hcases ⊢
  cases hcases with
  | complete hput => exact ⟨_, rfl, hput⟩
  | textOnly hend =>
      obtain ⟨hend, -⟩ := hend
      omega
  | refused houtside => exact absurd ⟨by omega, show _ ≤ m.size by omega⟩ houtside

/-! ## Reading back -/

/-- The first zero byte that is written ends the string. -/
theorem Overwritten.stringAt (h : m.Overwritten m' addr.toNat (t ++ 0 :: rest)) (ht : 0 ∉ t) :
    m'.StringAt addr t := by
  have hlength : (t ++ 0 :: rest).length = t.length + (rest.length + 1) := by
    rw [List.length_append, List.length_cons]
  have hbounds : addr.toNat + (t ++ 0 :: rest).length ≤ m.size := h.inBounds
  refine ⟨⟨fun i hi => ?_, ?_, ?_⟩, ht⟩
  · rw [h.inside i (by omega), List.getElem_append_left hi]
  · rw [h.inside t.length (by omega), List.getElem_append_right (Nat.le_refl _)]
    simp only [Nat.sub_self, List.getElem_cons_zero]
  · rw [h.size_eq]
    omega

/-- A zero byte after a list makes a zero byte after its part before the first zero. -/
theorem append_zero_eq (s : List UInt8) :
    ∃ rest, s ++ [0] = s.takeWhile (· ≠ 0) ++ 0 :: rest := by
  induction s with
  | nil => exact ⟨[], rfl⟩
  | cons b s ih =>
      obtain ⟨rest, hrest⟩ := ih
      by_cases hb : b = 0
      · exact ⟨s ++ [0], by simp [hb]⟩
      · refine ⟨rest, ?_⟩
        rw [List.takeWhile_cons_of_pos (by simpa using hb), List.cons_append, List.cons_append,
          hrest]

theorem zero_notMem_takeWhile (s : List UInt8) : 0 ∉ s.takeWhile (· ≠ 0) := fun hmem => by
  simpa using List.mem_takeWhile_imp hmem

/-- **Written strings are exact.** A string is written just if it is inside the memory with its zero
    byte; then its part before the first zero is read back, and no byte outside the string and its
    zero byte has changed. Otherwise the memory is as it was, unless the text ends where the memory
    ends: then the text has been written, without an end. -/
theorem writeString_exact (m : LinearMemory) (addr : UInt32) (s : List UInt8) :
    ((∃ m', m.writeString addr s = (.ok (), m')) ↔ m.InBounds addr.toNat (s.length + 1))
      ∧ (∀ m', m.writeString addr s = (.ok (), m') →
          m'.string addr = .ok (s.takeWhile (· ≠ 0)) ∧ m.Overwritten m' addr.toNat (s ++ [0]))
      ∧ ∀ err m', m.writeString addr s = (.error err, m') →
          if m.EndsWith addr s then
            m.Overwritten m' addr.toNat s ∧ err = m.unfinished addr s
          else m' = m ∧ err = .outOfBounds addr.toNat s.length m.size := by
  have hput {m' : LinearMemory} (h : m.writeString addr s = (.ok (), m')) :
      m.Overwritten m' addr.toNat (s ++ [0]) := by
    have hcases := m.stringWrite addr s
    rw [h] at hcases
    cases hcases with
    | complete hput => exact hput
  refine ⟨⟨fun ⟨m', h⟩ => ?_, fun h => ?_⟩, fun m' h => ⟨?_, hput h⟩, fun err m' h => ?_⟩
  · have hbounds := (hput h).inBounds
    rwa [List.length_append, List.length_singleton] at hbounds
  · obtain ⟨m', h, -⟩ := writeString_of_inBounds h
    exact ⟨m', h⟩
  · obtain ⟨rest, hrest⟩ := append_zero_eq s
    have hfirst := hput h
    rw [hrest] at hfirst
    exact (hfirst.stringAt (zero_notMem_takeWhile s)).string_eq
  · have hcases := m.stringWrite addr s
    rw [h] at hcases
    cases hcases with
    | textOnly hend hput =>
        rw [if_pos hend]
        exact ⟨hput, rfl⟩
    | refused houtside =>
        have hend : ¬ m.EndsWith addr s := fun ⟨hend, hlength⟩ =>
          houtside ⟨hlength, Nat.le_of_eq hend⟩
        rw [if_neg hend]
        exact ⟨rfl, rfl⟩

/-- In eight zero bytes: a string that has a zero inside is read back up to there, a string whose
    text ends at the end is left without an end, and one that is longer is not written at all. -/
theorem writeString_exact_at_end :
    let m := zeros 8
    (∃ m', m.writeString 3 [97, 0, 98, 99] = (.ok (), m') ∧ m'.string 3 = .ok [97]
        ∧ m.Overwritten m' 3 [97, 0, 98, 99, 0])
      ∧ (∃ m', m.writeString 4 [97, 98, 99, 100] = (.error (.outOfBounds 8 1 8), m')
        ∧ m.Overwritten m' 4 [97, 98, 99, 100])
      ∧ m.writeString 5 [97, 98, 99, 100] = (.error (.outOfBounds 5 4 8), m) := by
  intro m
  refine ⟨?_, ?_, ?_⟩
  · obtain ⟨hsucceeds, hdoes, -⟩ := writeString_exact m 3 [97, 0, 98, 99]
    obtain ⟨m', h⟩ := hsucceeds.2 (by decide)
    exact ⟨m', h, hdoes m' h⟩
  · obtain ⟨hsucceeds, -, hfails⟩ := writeString_exact m 4 [97, 98, 99, 100]
    rcases h : m.writeString 4 [97, 98, 99, 100] with ⟨err | _, m'⟩
    · have hleft := hfails err m' h
      rw [if_pos (by decide)] at hleft
      obtain ⟨hput, rfl⟩ := hleft
      exact ⟨m', rfl, hput⟩
    · exact absurd (hsucceeds.1 ⟨m', h⟩) (by decide)
  · obtain ⟨hsucceeds, -, hfails⟩ := writeString_exact m 5 [97, 98, 99, 100]
    rcases h : m.writeString 5 [97, 98, 99, 100] with ⟨err | _, m'⟩
    · have hleft := hfails err m' h
      rw [if_neg (by decide)] at hleft
      obtain ⟨rfl, rfl⟩ := hleft
      rfl
    · exact absurd (hsucceeds.1 ⟨m', h⟩) (by decide)

/-- The text is written although the whole does not fit, and stays when the write fails. -/
theorem writeString_leaves_text :
    let m := zeros 4
    (m.writeString 2 [97, 98]).1 = .error (.outOfBounds 4 1 4) ∧ m.byte 2 = 0
      ∧ (m.writeString 2 [97, 98]).2.byte 2 = 97 := by
  decide +kernel

end WasmHost.LinearMemory
