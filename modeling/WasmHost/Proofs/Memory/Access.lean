import Mathlib.Data.Nat.Find
import Mathlib.Data.UInt
import WasmHost.Libc.Bytes
import WasmHost.Proofs.Memory.Bounds
import WasmHost.Proofs.Memory.Scanning

set_option autoImplicit false

/-! # What accesses do

When an access to a memory is inside it, what it does to every byte, and where a string ends
(`LinearMemory.StringOf`). The functions that copy strings do their accesses one after the other;
`Libc.MemoryEdit.strcpy_apply`, `strncpy_apply` and `strcat_apply` write them out. -/

namespace WasmHost

namespace LinearMemory

variable {m m' : LinearMemory} {src dst addr len : UInt32}

/-! ## Ranges -/

theorem check_of_inBounds {start count : Nat} (h : m.InBounds start count) :
    m.check start count = .ok () := if_pos h

theorem check_of_not_inBounds {start count : Nat} (h : ¬ m.InBounds start count) :
    m.check start count = .error (.outOfBounds start count m.size) := if_neg h

theorem copyWithin_of_inBounds (hsrc : m.InBounds src.toNat len.toNat)
    (hdst : m.InBounds dst.toNat len.toNat) :
    m.copyWithin src dst len = .ok (m.copyRange src.toNat dst.toNat len.toNat) := by
  rw [copyWithin, check_of_inBounds hsrc, check_of_inBounds hdst]
  rfl

theorem copyWithin_eq_ok_iff :
    m.copyWithin src dst len = .ok m' ↔ m.InBounds src.toNat len.toNat
      ∧ m.InBounds dst.toNat len.toNat ∧ m' = m.copyRange src.toNat dst.toNat len.toNat := by
  constructor
  · intro h
    by_cases hsrc : m.InBounds src.toNat len.toNat
    · by_cases hdst : m.InBounds dst.toNat len.toNat
      · rw [copyWithin_of_inBounds hsrc hdst] at h
        cases h
        exact ⟨hsrc, hdst, rfl⟩
      · rw [copyWithin, check_of_inBounds hsrc, check_of_not_inBounds hdst] at h
        cases h
    · rw [copyWithin, check_of_not_inBounds hsrc] at h
      cases h
  · rintro ⟨hsrc, hdst, rfl⟩
    exact copyWithin_of_inBounds hsrc hdst

/-- Every byte of a memory in which a range has been copied. -/
theorem byte_of_copyWithin (h : m.copyWithin src dst len = .ok m') {i : Nat}
    (hi : i < UInt32.size) :
    m'.byte i = if dst.toNat ≤ i ∧ i < dst.toNat + len.toNat
      then m.byte (i - dst.toNat + src.toNat) else m.byte i := by
  obtain ⟨hsrc, hdst, rfl⟩ := copyWithin_eq_ok_iff.1 h
  exact m.byte_copyRange _ _ _ i (Nat.le_trans hsrc m.size_le) (Nat.le_trans hdst m.size_le) hi

theorem zero_of_inBounds (h : m.InBounds addr.toNat len.toNat) :
    m.zero addr len = .ok (m.fillRange addr.toNat (addr.toNat + len.toNat) 0) := by
  rw [zero, fill, check_of_inBounds h]
  rfl

theorem zero_eq_ok_iff :
    m.zero addr len = .ok m' ↔ m.InBounds addr.toNat len.toNat
      ∧ m' = m.fillRange addr.toNat (addr.toNat + len.toNat) 0 := by
  constructor
  · intro h
    by_cases hbounds : m.InBounds addr.toNat len.toNat
    · rw [zero_of_inBounds hbounds] at h
      cases h
      exact ⟨hbounds, rfl⟩
    · rw [zero, fill, check_of_not_inBounds hbounds] at h
      cases h
  · rintro ⟨hbounds, rfl⟩
    exact zero_of_inBounds hbounds

/-! ## Strings -/

/-- The string at `start` has `count` bytes: the first zero byte from there on comes after them,
    inside the memory. -/
structure StringOf (m : LinearMemory) (start count : Nat) : Prop where
  inside : start + count < m.size
  terminator : m.byte (start + count) = 0
  nonzero (i : Nat) (hi : i < count) : m.byte (start + i) ≠ 0

/-- A zero byte comes before the end of the memory. -/
def Terminated (m : LinearMemory) (addr : UInt32) : Prop :=
  ∃ i, addr.toNat + i < m.size ∧ m.byte (addr.toNat + i) = 0

theorem stringLength_eq_ok_iff {count : Nat} :
    m.stringLength addr = .ok count ↔ m.StringOf addr.toNat count := by
  constructor
  · intro h
    rw [stringLength] at h
    split at h
    · rename_i z hz
      cases h
      obtain ⟨hle, hlt, hzero, hmin⟩ := (m.findByte?_eq_some_iff 0 _ _ z m.size_le).1 hz
      have hend : addr.toNat + (z - addr.toNat) = z := Nat.add_sub_cancel' hle
      refine ⟨by omega, by rwa [hend], fun i hi => hmin _ (by omega) (by omega)⟩
    · cases h
  · rintro ⟨hinside, hzero, hnonzero⟩
    have hz : m.findByte? 0 addr.toNat m.size = some (addr.toNat + count) := by
      rw [m.findByte?_eq_some_iff 0 _ _ _ m.size_le]
      refine ⟨by omega, hinside, hzero, fun i hle hlt => ?_⟩
      have hbyte := hnonzero (i - addr.toNat) (by omega)
      rwa [Nat.add_sub_cancel' hle] at hbyte
    rw [stringLength, hz]
    simp only [Nat.add_sub_cancel_left]

/-- Where no length is found there is no string. -/
theorem not_stringOf {err : MemoryError} (h : m.stringLength addr = .error err) (count : Nat) :
    ¬ m.StringOf addr.toNat count := by
  intro hs
  cases h.symm.trans (stringLength_eq_ok_iff.2 hs)

/-- A string has a length just if it is terminated. -/
theorem terminated_iff : m.Terminated addr ↔ ∃ count, m.StringOf addr.toNat count := by
  constructor
  · intro h
    classical
    obtain ⟨hinside, hzero⟩ := Nat.find_spec h
    refine ⟨Nat.find h, hinside, hzero, fun i hi hbyte => ?_⟩
    exact Nat.find_min h hi ⟨by omega, hbyte⟩
  · rintro ⟨count, hstring⟩
    exact ⟨count, hstring.inside, hstring.terminator⟩

theorem terminated_of_length {count : Nat} (h : m.stringLength addr = .ok count) :
    m.Terminated addr :=
  terminated_iff.2 ⟨count, stringLength_eq_ok_iff.1 h⟩

/-- A string has one length. -/
theorem StringOf.unique {start count count' : Nat} (h : m.StringOf start count)
    (h' : m.StringOf start count') : count = count' := by
  rcases Nat.lt_trichotomy count count' with hlt | heq | hlt
  · exact absurd h.terminator (h'.nonzero count hlt)
  · exact heq
  · exact absurd h'.terminator (h.nonzero count' hlt)

theorem StringOf.toNat {start count : Nat} (h : m.StringOf start count) :
    count.toUInt32.toNat = count := by
  have hinside := h.inside
  have hsize := m.size_le
  exact UInt32.toNat_ofNat_of_lt' (by omega)

/-- The number of bytes that a bound leaves of a string. -/
theorem StringOf.toNat_min {start count : Nat} (h : m.StringOf start count) (n : UInt32) :
    (min count.toUInt32 n).toNat = min count n.toNat := by
  rw [UInt32.toNat_min, h.toNat]

/-- Those bytes are inside the memory. -/
theorem StringOf.inBounds_min {start count : Nat} (h : m.StringOf start count) (n : UInt32) :
    m.InBounds start (min count.toUInt32 n).toNat := by
  have hinside := h.inside
  rw [h.toNat_min, InBounds]
  omega

end LinearMemory

/-! ## Computations on a memory -/

namespace MemoryAction

variable {m m' : LinearMemory}

theorem change_of_ok {f : LinearMemory → Except MemoryError LinearMemory} (h : f m = .ok m') :
    change f m = (.ok (), m') := by
  rw [change, h]

end MemoryAction

namespace Libc.MemoryEdit

open MemoryAction WordFault

variable (words : Nat → UInt32) (m : LinearMemory)

/-- The memory after a change, or the error of one that fails; the result is an address. -/
def finish (result : UInt32) (m : LinearMemory) :
    Except MemoryError LinearMemory → Except WordFault UInt32 × LinearMemory
  | .ok m' => (.ok result, m')
  | .error err => (.error (.memory err), m)

/-- The last steps of copying a string of `len` bytes: its size with the zero byte is computed, and
    the bytes are copied. -/
def copySized (src dst result : UInt32) (len : Nat) (m : LinearMemory) :
    Except WordFault UInt32 × LinearMemory :=
  match add len.toUInt32 1 with
  | .error fault => (.error fault, m)
  | .ok size => finish result m (m.copyWithin src dst size)

/-- The last steps of copying at most `n` bytes, after `count` of them: the address behind those is
    computed, and the rest is set to zero. -/
def padFrom (dst count n : UInt32) (m : LinearMemory) : Except WordFault UInt32 × LinearMemory :=
  match add dst count with
  | .error fault => (.error fault, m)
  | .ok start => finish dst m (m.zero start (n - count))

theorem change_apply (f : LinearMemory → Except MemoryError LinearMemory) (result : UInt32)
    (m : LinearMemory) :
    (do lift (change f); return result : WordAction UInt32) m = finish result m (f m) := by
  rw [bind_apply, lift_apply, change]
  rcases f m with err | m' <;> rfl

theorem memcpy_apply :
    perform .memcpy words m = finish (words 0) m (m.copyWithin (words 1) (words 0) (words 2)) :=
  change_apply _ _ m

theorem mempcpy_apply :
    perform .mempcpy words m
      = finish (words 0 + words 2) m (m.copyWithin (words 1) (words 0) (words 2)) :=
  change_apply _ _ m

theorem memset_apply :
    perform .memset words m = finish (words 0) m (m.fill (words 0) (words 1).toUInt8 (words 2)) :=
  change_apply _ _ m

theorem copySized_apply (src dst result : UInt32) (len : Nat) :
    (do
      let size ← compute (add len.toUInt32 1)
      lift (change (·.copyWithin src dst size))
      return result : WordAction UInt32) m = copySized src dst result len m := by
  rw [bind_apply, compute_apply, copySized]
  rcases add len.toUInt32 1 with fault | size
  · rfl
  · exact change_apply _ result m

theorem strcpy_apply :
    perform .strcpy words m
      = match m.stringLength (words 1) with
        | .error err => (.error (.memory err), m)
        | .ok len => copySized (words 1) (words 0) (words 0) len m := by
  unfold perform
  dsimp only
  rw [bind_apply, lift_apply, look]
  rcases m.stringLength (words 1) with err | len
  · rfl
  · exact copySized_apply m (words 1) (words 0) (words 0) len

theorem strncpy_apply :
    perform .strncpy words m
      = match m.stringLength (words 1) with
        | .error err => (.error (.memory err), m)
        | .ok len =>
            let count := min len.toUInt32 (words 2)
            match m.copyWithin (words 1) (words 0) count with
            | .error err => (.error (.memory err), m)
            | .ok m' => padFrom (words 0) count (words 2) m' := by
  unfold perform
  dsimp only
  rw [bind_apply, lift_apply, look]
  rcases m.stringLength (words 1) with err | len
  · rfl
  dsimp only [Except.mapError]
  have hle : min len.toUInt32 (words 2) ≤ words 2 := by
    rw [UInt32.le_iff_toNat_le, UInt32.toNat_min]
    exact Nat.min_le_right _ _
  generalize min len.toUInt32 (words 2) = count at hle ⊢
  rw [bind_apply, lift_apply, change]
  rcases m.copyWithin (words 1) (words 0) count with err | m'
  · rfl
  dsimp only [Except.mapError]
  rw [bind_apply, compute_apply, padFrom]
  rcases add (words 0) count with fault | start
  · rfl
  dsimp only
  rw [bind_apply, compute_apply, sub_of_le hle]
  exact change_apply _ (words 0) m'

/-- The end of the first string always has an address. -/
theorem strcat_apply :
    perform .strcat words m
      = match m.stringLength (words 0) with
        | .error err => (.error (.memory err), m)
        | .ok tail =>
            match m.stringLength (words 1) with
            | .error err => (.error (.memory err), m)
            | .ok len =>
                copySized (words 1) (words 0 + tail.toUInt32) (words 0) len m := by
  unfold perform
  dsimp only
  rw [bind_apply, lift_apply, look]
  rcases htail : m.stringLength (words 0) with err | tail
  · rfl
  dsimp only [Except.mapError]
  have hs := LinearMemory.stringLength_eq_ok_iff.1 htail
  have hend : (words 0).toNat + tail.toUInt32.toNat < UInt32.size := by
    rw [hs.toNat]
    exact Nat.lt_of_lt_of_le hs.inside m.size_le
  rw [bind_apply, compute_apply, add_of_lt hend]
  dsimp only
  rw [bind_apply, lift_apply, look]
  rcases m.stringLength (words 1) with err | len
  · rfl
  · exact copySized_apply m (words 1) (words 0 + tail.toUInt32) (words 0) len

/-! ### Overflows -/

section

variable {m} {len : Nat} {src dst result count n : UInt32}

theorem copySized_of_lt (h : len + 1 < UInt32.size) :
    copySized src dst result len m
      = finish result m (m.copyWithin src dst (len.toUInt32 + 1)) := by
  rw [copySized, add_one_of_lt h]

theorem copySized_of_eq (h : len + 1 = UInt32.size) :
    copySized src dst result len m = (.error .overflow, m) := by
  rw [copySized, add_one_of_eq h]

theorem padFrom_of_lt (h : dst.toNat + count.toNat < UInt32.size) :
    padFrom dst count n m = finish dst m (m.zero (dst + count) (n - count)) := by
  rw [padFrom, add_of_lt h]

theorem padFrom_of_le (h : UInt32.size ≤ dst.toNat + count.toNat) :
    padFrom dst count n m = (.error .overflow, m) := by
  rw [padFrom, add_of_le h]

end

/-! ### Small memories -/

variable {m} {size : Nat}

/-- What is left after the last step of an edit that stays inside a memory of `size` bytes. -/
def EndsInside (size : Nat) (run : Except WordFault UInt32 × LinearMemory) : Prop :=
  run.2.size = size ∧ ∀ fault, run.1 = .error fault → fault.IsAccess (MemoryError.Outside size)

theorem endsInside_error {err : MemoryError} (hm : m.size = size) (h : err.Outside size) :
    EndsInside size (.error (.memory err), m) := by
  refine ⟨hm, fun fault heq => ?_⟩
  cases heq
  exact h

theorem endsInside_finish (result : UInt32) {r : Except MemoryError LinearMemory}
    (hm : m.size = size) (hok : ∀ m', r = .ok m' → m'.size = m.size)
    (hr : FailsOutside m.size r) : EndsInside size (finish result m r) := by
  subst hm
  rcases r with err | m'
  · exact endsInside_error rfl (hr err rfl)
  · exact ⟨hok m' rfl, fun fault heq => by cases heq⟩

/-- **An edit fails only outside the memory**, if that has fewer than 2³² bytes; then nothing
    overflows. -/
theorem perform_endsInside (e : MemoryEdit) (words : Nat → UInt32) (hm : m.size < UInt32.size) :
    EndsInside m.size (e.perform words m) := by
  have hcopied (result : UInt32) :
      EndsInside m.size (finish result m (m.copyWithin (words 1) (words 0) (words 2))) :=
    endsInside_finish result rfl (fun _ => LinearMemory.size_of_copyWithin)
      (m.copyWithin_outside _ _ _)
  have hsized (src dst : UInt32) {start len : Nat} (hs : m.StringOf start len) :
      EndsInside m.size (copySized src dst (words 0) len m) := by
    have hinside := hs.inside
    rw [copySized_of_lt (by omega)]
    exact endsInside_finish _ rfl (fun _ => LinearMemory.size_of_copyWithin)
      (m.copyWithin_outside _ _ _)
  cases e with
  | memcpy =>
      rw [memcpy_apply]
      exact hcopied (words 0)
  | mempcpy =>
      rw [mempcpy_apply]
      exact hcopied (words 0 + words 2)
  | memset =>
      rw [memset_apply]
      exact endsInside_finish _ rfl (fun _ => LinearMemory.size_of_fill) (m.fill_outside _ _ _)
  | strcpy =>
      rw [strcpy_apply]
      rcases hlen : m.stringLength (words 1) with err | len
      · exact endsInside_error rfl (m.stringLength_outside _ err hlen)
      · exact hsized _ _ (LinearMemory.stringLength_eq_ok_iff.1 hlen)
  | strcat =>
      rw [strcat_apply]
      rcases htail : m.stringLength (words 0) with err | tail
      · exact endsInside_error rfl (m.stringLength_outside _ err htail)
      dsimp only
      rcases hlen : m.stringLength (words 1) with err | len
      · exact endsInside_error rfl (m.stringLength_outside _ err hlen)
      · exact hsized _ _ (LinearMemory.stringLength_eq_ok_iff.1 hlen)
  | strncpy =>
      rw [strncpy_apply]
      rcases hlen : m.stringLength (words 1) with err | len
      · exact endsInside_error rfl (m.stringLength_outside _ err hlen)
      dsimp only
      rcases hcopy : m.copyWithin (words 1) (words 0) (min len.toUInt32 (words 2)) with err | m'
      · exact endsInside_error rfl (m.copyWithin_outside _ _ _ err hcopy)
      -- the bytes that have been copied end inside the memory, so the address behind them is a word
      obtain ⟨-, hdst, -⟩ := LinearMemory.copyWithin_eq_ok_iff.1 hcopy
      have hsize := LinearMemory.size_of_copyWithin hcopy
      dsimp only
      rw [padFrom_of_lt (Nat.lt_of_le_of_lt hdst hm)]
      refine endsInside_finish _ hsize (fun _ => LinearMemory.size_of_fill) ?_
      exact m'.fill_outside _ _ _

end Libc.MemoryEdit

end WasmHost
