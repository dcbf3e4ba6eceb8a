import WasmHost.Proofs.Libc.BoundedStrings
import WasmHost.Proofs.Libc.MemoryCalls

set_option autoImplicit false

/-! # Copying strings

`strcpy`, `strncpy` and `strcat` measure the strings before they write, so that what they write is
given by the strings that are there before, also where the source overlaps the destination. In a
memory of less than 2³² bytes the sizes are exact, and each of the functions writes just the range
that it should: `Libc.string_copies_exact`. -/

namespace WasmHost

namespace LinearMemory

variable {m : LinearMemory} {src dst : UInt32} {s : List UInt8}

/-- A string and its zero byte are copied if there is room for both. -/
theorem copyWithin_string (hs : m.StringAt src s) (hsize : m.size < UInt32.size)
    (hdst : m.InBounds dst.toNat (s.length + 1)) :
    ∃ after, m.copyWithin src dst (s.length.toUInt32 + 1) = .ok after
      ∧ m.Overwritten after dst.toNat (s ++ [0]) := by
  have hlength := hs.stringOf.toNat_size hsize
  have hsrc : m.InBounds src.toNat (s.length.toUInt32 + 1).toNat := by
    rw [hlength]
    exact hs.inBounds
  rw [← hlength] at hdst
  obtain ⟨after, hcopy⟩ : ∃ c, m.copyWithin src dst (s.length.toUInt32 + 1) = .ok c :=
    ⟨_, copyWithin_of_inBounds hsrc hdst⟩
  refine ⟨after, hcopy, ?_⟩
  have hput := overwritten_copyWithin hcopy
  rwa [hlength, hs.slice_eq (Nat.le_refl _), List.take_of_length_le (by simp)] at hput

theorem copyWithin_string_eq_error (hs : m.StringAt src s) (hsize : m.size < UInt32.size)
    (hdst : ¬ m.InBounds dst.toNat (s.length + 1)) :
    ∃ err, m.copyWithin src dst (s.length.toUInt32 + 1) = .error err ∧ err.Outside m.size := by
  rcases hcopy : m.copyWithin src dst (s.length.toUInt32 + 1) with err | after
  · exact ⟨err, rfl, m.copyWithin_outside _ _ _ err hcopy⟩
  · obtain ⟨-, hbounds, -⟩ := copyWithin_eq_ok_iff.1 hcopy
    rw [hs.stringOf.toNat_size hsize] at hbounds
    exact absurd hbounds hdst

end LinearMemory

namespace Libc

open MemoryEdit

variable {m : LinearMemory} {words : Nat → UInt32}

/-! ## Whole strings -/

/-- Copy the string at `src` to `dst`, with its zero byte, and give back `result`. -/
def copyString (m : LinearMemory) (src dst result : UInt32) :
    Except WordFault UInt32 × LinearMemory :=
  match m.stringLength src with
  | .error err => (.error (.memory err), m)
  | .ok len => copySized src dst result len m

/-- **Copying a string** does all or nothing. -/
theorem copyString_atomic (src dst result : UInt32) (hsize : m.size < UInt32.size) :
    Atomic m (copyString m src dst result)
      (∃ s, m.StringAt src s ∧ m.InBounds dst.toNat (s.length + 1))
      (fun result' after => result' = result ∧ ∀ s, m.StringAt src s →
        m.Overwritten after dst.toNat (s ++ [0]))
      (WordFault.IsAccess (MemoryError.Outside m.size)) := by
  unfold copyString
  by_cases hsrc : m.Terminated src
  case neg =>
    obtain ⟨err, hlength, houtside⟩ := LinearMemory.stringLength_eq_error hsrc
    rw [hlength]
    refine .of_cases (fun ⟨s, hs, _⟩ => ?_) fun _ => ⟨.memory err, rfl, houtside⟩
    exact absurd (LinearMemory.terminated_iff_stringAt.2 ⟨s, hs⟩) hsrc
  obtain ⟨s, hs⟩ := LinearMemory.terminated_iff_stringAt.1 hsrc
  rw [hs.stringLength_eq]
  dsimp only
  rw [copySized_of_lt (Nat.lt_of_le_of_lt (Nat.le_trans (Nat.le_add_left _ _) hs.inBounds) hsize)]
  refine .of_cases (fun ⟨t, ht, hdst⟩ => ?_) fun hnot => ?_
  · obtain rfl := ht.unique hs
    obtain ⟨after, hcopy, hput⟩ := LinearMemory.copyWithin_string hs hsize hdst
    rw [hcopy]
    refine ⟨result, after, rfl, rfl, fun t' ht' => ?_⟩
    rwa [ht'.unique hs]
  · obtain ⟨err, hcopy, houtside⟩ := LinearMemory.copyWithin_string_eq_error hs hsize
      fun hdst => hnot ⟨s, hs, hdst⟩
    rw [hcopy]
    exact ⟨.memory err, rfl, houtside⟩

theorem strcpy_eq_copyString :
    perform .strcpy words m = copyString m (words 1) (words 0) (words 0) :=
  strcpy_apply words m

/-- Appending a string copies it to the zero byte of the other one. -/
theorem strcat_eq_copyString {d : List UInt8} (hd : m.StringAt (words 0) d) :
    perform .strcat words m
      = copyString m (words 1) (words 0 + d.length.toUInt32) (words 0) := by
  rw [strcat_apply, hd.stringLength_eq]
  rfl

/-- Appending a string does all or nothing. -/
theorem strcat_atomic (words : Nat → UInt32) (hsize : m.size < UInt32.size) :
    Atomic m (perform .strcat words m)
      (∃ d s, m.StringAt (words 0) d ∧ m.StringAt (words 1) s
        ∧ m.InBounds ((words 0).toNat + d.length) (s.length + 1))
      (fun result after => result = words 0 ∧ ∀ d s, m.StringAt (words 0) d →
        m.StringAt (words 1) s → m.Overwritten after ((words 0).toNat + d.length) (s ++ [0]))
      (WordFault.IsAccess (MemoryError.Outside m.size)) := by
  by_cases hdst : m.Terminated (words 0)
  case neg =>
    refine .of_cases (fun ⟨d, _, hd, _⟩ => ?_) fun _ => ?_
    · exact absurd (LinearMemory.terminated_iff_stringAt.2 ⟨d, hd⟩) hdst
    · obtain ⟨err, hlength, houtside⟩ := LinearMemory.stringLength_eq_error hdst
      rw [strcat_apply, hlength]
      exact ⟨.memory err, rfl, houtside⟩
  obtain ⟨d, hd⟩ := LinearMemory.terminated_iff_stringAt.1 hdst
  have hcopy := copyString_atomic (words 1) (words 0 + d.length.toUInt32) (words 0) hsize
  rw [← strcat_eq_copyString hd, hd.stringOf.toNat_end] at hcopy
  refine (hcopy.congr ⟨fun ⟨s, hs, hroom⟩ => ⟨d, s, hd, hs, hroom⟩, ?_⟩).mono ?_ fun _ h => h
  · rintro ⟨d', s, hd', hs, hroom⟩
    rw [hd'.unique hd] at hroom
    exact ⟨s, hs, hroom⟩
  · rintro result after ⟨hresult, hput⟩
    refine ⟨hresult, fun d' s hd' hs => ?_⟩
    rw [hd'.unique hd]
    exact hput s hs

/-! ## Bounded strings -/

/-- What a bounded copy of a string writes: at most `n` bytes of it, and zeros up to `n`. -/
def padded (s : List UInt8) (n : Nat) : List UInt8 := s.take n ++ List.replicate (n - s.length) 0

theorem length_padded (s : List UInt8) (n : Nat) : (padded s n).length = n := by
  rw [padded, List.length_append, List.length_take, List.length_replicate]
  omega

/-- **A bounded copy that succeeds** writes the padded string. -/
theorem strncpy_eq_ok {s : List UInt8} (hs : m.StringAt (words 1) s) (hsize : m.size < UInt32.size)
    {result : UInt32} {after : LinearMemory} (h : perform .strncpy words m = (.ok result, after)) :
    result = words 0
      ∧ m.Overwritten after (words 0).toNat (padded s (words 2).toNat) := by
  have hcount := hs.stringOf.toNat_min (words 2)
  have hread : m.slice (words 1).toNat (min s.length.toUInt32 (words 2)).toNat
      = s.take (words 2).toNat := by
    rw [hcount, hs.slice_eq (by omega), List.take_append_of_le_length (Nat.min_le_left _ _),
      List.take_eq_take_iff]
    omega
  have hrest : (words 2 - min s.length.toUInt32 (words 2)).toNat
      = (words 2).toNat - s.length := by
    rw [UInt32.toNat_sub_of_le _ _ (UInt32.le_iff_toNat_le.2 (by omega)), hcount]
    omega
  rw [strncpy_apply, hs.stringLength_eq] at h
  dsimp only at h
  rcases hcopy : m.copyWithin (words 1) (words 0) (min s.length.toUInt32 (words 2))
    with err | m₁ <;> rw [hcopy] at h
  · cases h
  -- the bytes that are copied end inside the memory, so the padding starts at a word
  obtain ⟨-, hdst, -⟩ := LinearMemory.copyWithin_eq_ok_iff.1 hcopy
  have hlt := Nat.lt_of_le_of_lt hdst hsize
  dsimp only at h
  rw [padFrom_of_lt hlt] at h
  rcases hzero : m₁.zero (words 0 + min s.length.toUInt32 (words 2))
      (words 2 - min s.length.toUInt32 (words 2)) with err | m₂ <;> rw [hzero] at h <;> cases h
  have hput := LinearMemory.overwritten_copyWithin hcopy
  have hpad := LinearMemory.overwritten_zero hzero
  rw [hread] at hput
  have hstart : (words 0 + min s.length.toUInt32 (words 2)).toNat
      = (words 0).toNat + (s.take (words 2).toNat).length := by
    rw [UInt32.toNat_add, Nat.mod_eq_of_lt hlt, hcount, List.length_take, Nat.min_comm]
  rw [hrest, hstart] at hpad
  exact ⟨rfl, hput.append hpad⟩

theorem strncpy_succeeds_iff (words : Nat → UInt32) (hsize : m.size < UInt32.size) :
    (∃ result, (perform .strncpy words m).1 = .ok result)
      ↔ m.Terminated (words 1) ∧ m.InBounds (words 0).toNat (words 2).toNat := by
  constructor
  · rintro ⟨result, h⟩
    by_cases hsrc : m.Terminated (words 1)
    · obtain ⟨s, hs⟩ := LinearMemory.terminated_iff_stringAt.1 hsrc
      have hbounds := (strncpy_eq_ok hs hsize (Prod.ext h rfl)).2.inBounds
      rw [length_padded] at hbounds
      exact ⟨hsrc, hbounds⟩
    · obtain ⟨err, hrun⟩ := strncpy_of_not_terminated hsrc
      rw [hrun] at h
      cases h
  · rintro ⟨hsrc, hdst⟩
    obtain ⟨s, hs⟩ := LinearMemory.terminated_iff_stringAt.1 hsrc
    obtain ⟨after, hrun, -⟩ := strncpy_of_string hs.stringOf hdst
    have hbounds : (words 0).toNat + (words 2).toNat ≤ m.size := hdst
    rw [if_pos (by omega)] at hrun
    exact ⟨words 0, congrArg Prod.fst hrun⟩

/-! ## Calls -/

/-- **String copies are exact.** In a memory of less than 2³² bytes `strcpy` and `strcat` succeed
    just if the strings are terminated and there is room for the copy and its zero byte; then they
    write just that, and otherwise nothing. `strncpy` writes the padded string, if it succeeds. All
    give back the destination, and it does not matter how the ranges overlap: the strings are those
    before the call. -/
theorem string_copies_exact [Budget] {m : Machine Function} {addr : Nat} {contents : LinearMemory}
    (hactive : m.activeMemory = .ok (addr, contents)) (hsize : contents.size < UInt32.size)
    (caller : Caller Function) (args : List Value) :
    let dst := Args.word args 0
    let src := Args.word args 1
    let n := Args.word args 2
    let call (e : MemoryEdit) := engine.stubs (.word (.edit e)) caller args m
    Atomic m (call .strcpy)
        (∃ s, contents.StringAt src s ∧ contents.InBounds dst.toNat (s.length + 1))
        (fun reply m' => reply = .i32 dst ∧ ∀ s, contents.StringAt src s →
          m.Overwritten m' dst.toNat (s ++ [0]))
        (FailedOutside contents.size)
      ∧ Atomic m (call .strcat)
        (∃ d s, contents.StringAt dst d ∧ contents.StringAt src s
          ∧ contents.InBounds (dst.toNat + d.length) (s.length + 1))
        (fun reply m' => reply = .i32 dst ∧ ∀ d s, contents.StringAt dst d →
          contents.StringAt src s → m.Overwritten m' (dst.toNat + d.length) (s ++ [0])
            ∧ m'.stringAt dst = .ok (d ++ s))
        (FailedOutside contents.size)
      ∧ ((∃ reply, (call .strncpy).1 = .ok reply)
          ↔ contents.Terminated src ∧ contents.InBounds dst.toNat n.toNat)
      ∧ ∀ reply s, (call .strncpy).1 = .ok reply → contents.StringAt src s →
        reply = .i32 dst ∧ m.Overwritten (call .strncpy).2 dst.toNat (padded s n.toNat) := by
  intro dst src n call
  refine ⟨?_, ?_, ?_, fun reply s hreply hs => ?_⟩
  · have hcopy := copyString_atomic (m := contents) src dst dst hsize
    rw [← strcpy_eq_copyString] at hcopy
    refine (atomic_stub hactive hcopy).mono ?_ fun _ h => h
    rintro reply m' ⟨result, after, rfl, rfl, rfl, hput⟩
    exact ⟨rfl, fun s hs => m.overwritten_withContents hactive (hput s hs)⟩
  · refine (atomic_stub hactive (strcat_atomic (Args.word args) hsize)).mono ?_ fun _ h => h
    rintro reply m' ⟨result, after, rfl, rfl, rfl, hput⟩
    refine ⟨rfl, fun d s hd hs => ⟨m.overwritten_withContents hactive (hput d s hd hs), ?_⟩⟩
    have hpos : 0 < contents.size := Nat.zero_lt_of_lt hd.inBounds
    have hjoined := LinearMemory.Overwritten.stringAt_append hd hs.nonzero (hput d s hd hs)
    exact Machine.stringAt_of_active (Machine.activeMemory_withContents hactive hpos after) hjoined
  · exact (stub_succeeds_iff hactive).trans (strncpy_succeeds_iff _ hsize)
  · obtain ⟨result, after, hrun, rfl, hafter⟩ := stub_eq_ok hactive hreply
    obtain ⟨rfl, hput⟩ := strncpy_eq_ok hs hsize hrun
    rw [hafter]
    exact ⟨rfl, m.overwritten_withContents hactive hput⟩

/-- The string `aaa` is put in front of itself with an overlap, and appended to itself; it does not
    fit at the end of the memory, and is padded to five bytes elsewhere. -/
theorem string_copies_aaa :
    let contents := (LinearMemory.zeros 65536).fillRange 100 103 97
    let m := holding contents
    let call (e : MemoryEdit) (args : List Value) :=
      engine.stubs (.word (.edit e)) plainCaller args m
    (∃ m', call .strcpy [.i32 98, .i32 100] = (.ok (.i32 98), m')
        ∧ m.Overwritten m' 98 [97, 97, 97, 0])
      ∧ (∃ m', call .strcat [.i32 100, .i32 100] = (.ok (.i32 100), m')
        ∧ m.Overwritten m' 103 [97, 97, 97, 0]
        ∧ m'.stringAt 100 = .ok [97, 97, 97, 97, 97, 97])
      ∧ (∃ failure, call .strcpy [.i32 65533, .i32 100] = (.error failure, m))
      ∧ ∃ m', call .strncpy [.i32 200, .i32 100, .i32 5] = (.ok (.i32 200), m')
        ∧ m.Overwritten m' 200 [97, 97, 97, 0, 0] := by
  intro contents m call
  have hs : contents.StringAt 100 [97, 97, 97] := by decide +kernel
  have hexact (args : List Value) := string_copies_exact (activeMemory_holding contents)
    (by decide +kernel) plainCaller args
  refine ⟨?_, ?_, ?_, ?_⟩
  · obtain ⟨reply, m', hrun, rfl, hput⟩ :=
      (hexact [.i32 98, .i32 100]).1.eq_ok ⟨_, hs, by decide +kernel⟩
    exact ⟨m', hrun, hput _ hs⟩
  · obtain ⟨reply, m', hrun, rfl, hput⟩ :=
      (hexact [.i32 100, .i32 100]).2.1.eq_ok ⟨_, _, hs, hs, by decide +kernel⟩
    exact ⟨m', hrun, hput _ _ hs hs⟩
  · obtain ⟨failure, hrun, -⟩ :=
      (hexact [.i32 65533, .i32 100]).1.eq_error fun ⟨s, hs', hroom⟩ => by
        rw [hs'.unique hs] at hroom
        exact absurd hroom (by decide +kernel)
    exact ⟨failure, hrun⟩
  · obtain ⟨-, -, hsucceeds, hdoes⟩ := hexact [.i32 200, .i32 100, .i32 5]
    obtain ⟨reply, hreply⟩ :=
      hsucceeds.2 ⟨LinearMemory.terminated_iff_stringAt.2 ⟨_, hs⟩, by decide +kernel⟩
    obtain ⟨rfl, hput⟩ := hdoes reply _ hreply hs
    exact ⟨_, Prod.ext hreply rfl, hput⟩

end Libc

end WasmHost
