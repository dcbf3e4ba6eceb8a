import WasmHost.Proofs.Memory.Access

set_option autoImplicit false

/-! # Bounded comparing and copying of strings

`strncmp` and `strncpy` use at most `n` bytes of a string, and none after its zero byte: memories
that hold the same bytes up to there (`LinearMemory.SamePrefix`) give the same result. Both look for
the zero byte before they use the bound, though, and so they fail on a string that no zero byte ends
before the end of the memory, also where its `n` bytes are all inside. At the very end of a memory of
2³² bytes `strncpy` also overflows: there is no word for the address behind the bytes that it has
copied, and it computes that address even if there is nothing to pad.

The main result is `Libc.bounded_strings_succeed_iff`; `Libc.strncmp_fails_at_end` is a call that
fails although it needs no byte outside. -/

namespace WasmHost

namespace LinearMemory

variable {m m' : LinearMemory} {start start' n : Nat}

/-! ## Prefixes -/

/-- The memories hold the same bytes from the two addresses on, up to the `n`-th byte or the first
    zero byte. -/
def SamePrefix (m m' : LinearMemory) (start start' n : Nat) : Prop :=
  ∀ i < n, (∀ j < i, m.byte (start + j) ≠ 0) → m.byte (start + i) = m'.byte (start' + i)

instance (m m' : LinearMemory) (start start' n : Nat) :
    Decidable (m.SamePrefix m' start start' n) :=
  inferInstanceAs (Decidable (∀ i < n, (∀ j < i, m.byte (start + j) ≠ 0) →
    m.byte (start + i) = m'.byte (start' + i)))

/-- What a bounded copy puts at place `i`: the byte of the string, or zero after its end. -/
def paddedByte (m : LinearMemory) (start i : Nat) : UInt8 :=
  if ∀ j < i, m.byte (start + j) ≠ 0 then m.byte (start + i) else 0

theorem SamePrefix.nonzero_iff (h : m.SamePrefix m' start start' n) {i : Nat} (hi : i ≤ n) :
    (∀ j < i, m.byte (start + j) ≠ 0) ↔ ∀ j < i, m'.byte (start' + j) ≠ 0 := by
  constructor
  · intro hnonzero j hj
    rw [← h j (by omega) fun k hk => hnonzero k (by omega)]
    exact hnonzero j hj
  · intro hnonzero j
    -- up to the first zero byte of the first memory the second one has no zero byte either
    induction j using Nat.strong_induction_on with
    | _ j ih =>
        intro hj
        rw [h j (by omega) fun k hk => ih k hk (by omega)]
        exact hnonzero j hj

/-- The padded bytes are the same, too. -/
theorem SamePrefix.paddedByte_eq (h : m.SamePrefix m' start start' n) {i : Nat} (hi : i < n) :
    m.paddedByte start i = m'.paddedByte start' i := by
  have hiff := h.nonzero_iff (Nat.le_of_lt hi)
  by_cases hnonzero : ∀ j < i, m.byte (start + j) ≠ 0
  · rw [paddedByte, if_pos hnonzero, paddedByte, if_pos (hiff.1 hnonzero)]
    exact h i hi hnonzero
  · rw [paddedByte, if_neg hnonzero, paddedByte, if_neg fun h => hnonzero (hiff.2 h)]

theorem StringOf.paddedByte_eq {len : Nat} (h : m.StringOf start len) (i : Nat) :
    m.paddedByte start i = if i < len then m.byte (start + i) else 0 := by
  rw [paddedByte]
  by_cases hi : i < len
  · rw [if_pos fun j hj => h.nonzero j (by omega), if_pos hi]
  · rw [if_neg hi]
    split
    · rename_i hnonzero
      rcases Nat.lt_or_eq_of_le (Nat.le_of_not_lt hi) with hlt | rfl
      · exact absurd h.terminator (hnonzero len hlt)
      · exact h.terminator
    · rfl

/-- The first `n` bytes of a string, with its zero byte if that is among them. -/
def cut (m : LinearMemory) (start len n : Nat) : List UInt8 :=
  (List.range (min n (len + 1))).map fun i => m.byte (start + i)

/-- **The same prefixes** have the same first `n` bytes, whatever the lengths of the strings. -/
theorem SamePrefix.cut_eq (h : m.SamePrefix m' start start' n) {len len' : Nat}
    (hs : m.StringOf start len) (hs' : m'.StringOf start' len') :
    m.cut start len n = m'.cut start' len' n := by
  have hbyte (i : Nat) (hi : i < n) (hlen : i ≤ len) : m.byte (start + i) = m'.byte (start' + i) :=
    h i hi fun j hj => hs.nonzero j (by omega)
  -- a string that ends within the first `n` bytes ends at the same place in both
  have hmin : min n (len + 1) = min n (len' + 1) := by
    rcases Nat.lt_trichotomy len len' with hlt | rfl | hgt
    · have hn : n ≤ len := by
        refine Nat.le_of_not_lt fun hn => ?_
        exact hs'.nonzero len hlt ((hbyte len hn (Nat.le_refl _)).symm.trans hs.terminator)
      omega
    · rfl
    · have hn : n ≤ len' := by
        refine Nat.le_of_not_lt fun hn => ?_
        exact hs.nonzero len' hgt ((hbyte len' hn (by omega)).trans hs'.terminator)
      omega
  rw [cut, cut, ← hmin]
  refine List.map_congr_left fun i hi => ?_
  rw [List.mem_range] at hi
  exact hbyte i (by omega) (by omega)

end LinearMemory

namespace Libc

variable {m : LinearMemory} {words : Nat → UInt32}

/-! ## Comparing -/

theorem terminated_of_string {addr : UInt32} {len : Nat} (h : m.StringOf addr.toNat len) (n : Nat) :
    ∃ s, terminated m addr = .ok s ∧ s.take n = m.cut addr.toNat len n := by
  have hinside := h.inside
  have hsize := m.size_le
  refine ⟨m.slice addr.toNat len ++ [0], ?_, ?_⟩
  · rw [terminated, LinearMemory.string, LinearMemory.stringLength_eq_ok_iff.2 h]
    rfl
  · have hwhole : m.slice addr.toNat len ++ [0]
        = (List.range (len + 1)).map fun i => m.byte (addr.toNat + i) := by
      rw [m.slice_eq_map _ _ (by omega), List.range'_eq_map_range, List.map_map, List.range_succ,
        List.map_append, List.map_singleton, h.terminator]
      rfl
    rw [hwhole, ← List.map_take, List.take_range, LinearMemory.cut]

theorem terminated_eq_error {addr : UInt32} (h : ¬ m.Terminated addr) :
    ∃ err, terminated m addr = .error err := by
  rcases hlength : m.stringLength addr with err | len
  · refine ⟨err, ?_⟩
    rw [terminated, LinearMemory.string, hlength]
    rfl
  · exact absurd (LinearMemory.terminated_of_length hlength) h

/-- Two strings are compared by their first bytes. -/
theorem strncmp_of_strings {len len' : Nat} (ha : m.StringOf (words 0).toNat len)
    (hb : m.StringOf (words 1).toNat len') :
    MemoryQuery.strncmp.answer words m
      = .ok (orderWord (compareBytes (m.cut (words 0).toNat len (words 2).toNat)
          (m.cut (words 1).toNat len' (words 2).toNat))) := by
  obtain ⟨a, ha, hcut⟩ := terminated_of_string ha (words 2).toNat
  obtain ⟨b, hb, hcut'⟩ := terminated_of_string hb (words 2).toNat
  rw [MemoryQuery.answer, ha, hb, ← hcut, ← hcut']
  rfl

theorem strncmp_of_not_terminated (h : ¬ (m.Terminated (words 0) ∧ m.Terminated (words 1))) :
    ∃ err, MemoryQuery.strncmp.answer words m = .error err := by
  rw [MemoryQuery.answer]
  rcases ha : terminated m (words 0) with err | a
  · exact ⟨err, rfl⟩
  · by_cases hterminated : m.Terminated (words 0)
    · obtain ⟨err, hb⟩ := terminated_eq_error fun hb => h ⟨hterminated, hb⟩
      rw [hb]
      exact ⟨err, rfl⟩
    · obtain ⟨err, herr⟩ := terminated_eq_error hterminated
      cases herr.symm.trans ha

theorem strncmp_succeeds_iff :
    (∃ word, MemoryQuery.strncmp.answer words m = .ok word)
      ↔ m.Terminated (words 0) ∧ m.Terminated (words 1) := by
  constructor
  · rintro ⟨word, hword⟩
    by_contra hnot
    obtain ⟨err, herr⟩ := strncmp_of_not_terminated hnot
    cases hword.symm.trans herr
  · rintro ⟨ha, hb⟩
    obtain ⟨len, hlen⟩ := LinearMemory.terminated_iff.1 ha
    obtain ⟨len', hlen'⟩ := LinearMemory.terminated_iff.1 hb
    exact ⟨_, strncmp_of_strings hlen hlen'⟩

/-- Comparing sees nothing but the prefixes. -/
theorem strncmp_eq_of_samePrefix {m' : LinearMemory} {words' : Nat → UInt32} {word word' : UInt32}
    (hbound : words' 2 = words 2)
    (ha : m.SamePrefix m' (words 0).toNat (words' 0).toNat (words 2).toNat)
    (hb : m.SamePrefix m' (words 1).toNat (words' 1).toNat (words 2).toNat)
    (h : MemoryQuery.strncmp.answer words m = .ok word)
    (h' : MemoryQuery.strncmp.answer words' m' = .ok word') : word = word' := by
  have lengths {m : LinearMemory} {words : Nat → UInt32} {word : UInt32}
      (h : MemoryQuery.strncmp.answer words m = .ok word) :
      ∃ len len', m.StringOf (words 0).toNat len ∧ m.StringOf (words 1).toNat len' := by
    obtain ⟨ha, hb⟩ := strncmp_succeeds_iff.1 ⟨word, h⟩
    obtain ⟨len, hlen⟩ := LinearMemory.terminated_iff.1 ha
    obtain ⟨len', hlen'⟩ := LinearMemory.terminated_iff.1 hb
    exact ⟨len, len', hlen, hlen'⟩
  obtain ⟨la, lb, hla, hlb⟩ := lengths h
  obtain ⟨la', lb', hla', hlb'⟩ := lengths h'
  rw [strncmp_of_strings hla hlb] at h
  rw [strncmp_of_strings hla' hlb', hbound, ← ha.cut_eq hla hla', ← hb.cut_eq hlb hlb'] at h'
  exact Except.ok.inj (h.symm.trans h')

/-! ## Copying -/

/-- What a bounded copy does to a memory: the bytes of the string and zeros after them are put at
    `dst`, `n` of them, and nothing else changes. -/
structure CopiedPadded (before after : LinearMemory) (dst src n : Nat) : Prop where
  inside (i : Nat) (hi : i < n) : after.byte (dst + i) = before.paddedByte src i
  outside (i : Nat) (hi : i < before.size) (hout : ¬ (dst ≤ i ∧ i < dst + n)) :
    after.byte i = before.byte i
  size_eq : after.size = before.size

/-- The padding starts where the copied bytes end, if there is a word for that address. -/
theorem zero_after_copy {len : Nat} {dst n : UInt32} (hdst : m.InBounds dst.toNat n.toNat)
    (hcount : (min len.toUInt32 n).toNat = min len n.toNat)
    (hlt : dst.toNat + min len n.toNat < UInt32.size) :
    ∃ m', m.zero (dst + min len.toUInt32 n) (n - min len.toUInt32 n) = .ok m' ∧ m'.size = m.size
      ∧ ∀ i < UInt32.size, m'.byte i
          = if dst.toNat + min len n.toNat ≤ i ∧ i < dst.toNat + n.toNat then 0 else m.byte i := by
  have hrest : (n - min len.toUInt32 n).toNat = n.toNat - min len n.toNat := by
    rw [UInt32.toNat_sub_of_le _ _ (UInt32.le_iff_toNat_le.2 (by omega)), hcount]
  have hstart : (dst + min len.toUInt32 n).toNat = dst.toNat + min len n.toNat := by
    rw [UInt32.toNat_add, hcount]
    exact Nat.mod_eq_of_lt hlt
  have hstop : dst.toNat + min len n.toNat + (n.toNat - min len n.toNat) = dst.toNat + n.toNat := by
    omega
  have hinside : m.InBounds (dst + min len.toUInt32 n).toNat (n - min len.toUInt32 n).toNat := by
    rw [hstart, hrest, LinearMemory.InBounds, hstop]
    exact hdst
  refine ⟨_, LinearMemory.zero_of_inBounds hinside, rfl, fun i hi => ?_⟩
  rw [m.byte_fillRange _ _ _ i hi, hstart, hrest, hstop]

/-- **A string is copied** and padded. If the bytes that are copied end at 2³², all is done, and yet
    the call overflows. -/
theorem strncpy_of_string {len : Nat} (hs : m.StringOf (words 1).toNat len)
    (hdst : m.InBounds (words 0).toNat (words 2).toNat) :
    ∃ m', MemoryEdit.strncpy.perform words m
        = (if (words 0).toNat + min len (words 2).toNat < UInt32.size then .ok (words 0)
            else .error .overflow, m')
      ∧ CopiedPadded m m' (words 0).toNat (words 1).toNat (words 2).toNat := by
  have hsize := m.size_le
  have hbounds : (words 0).toNat + (words 2).toNat ≤ m.size := hdst
  have hcount := hs.toNat_min (words 2)
  have hto : m.InBounds (words 0).toNat (min len.toUInt32 (words 2)).toNat := by
    rw [hcount]
    show (words 0).toNat + min len (words 2).toNat ≤ m.size
    omega
  obtain ⟨m₁, hcopy⟩ : ∃ c, m.copyWithin (words 1) (words 0) (min len.toUInt32 (words 2)) = .ok c :=
    ⟨_, LinearMemory.copyWithin_of_inBounds (hs.inBounds_min (words 2)) hto⟩
  have hsize₁ := LinearMemory.size_of_copyWithin hcopy
  have hbyte₁ {i : Nat} (hi : i < UInt32.size) := LinearMemory.byte_of_copyWithin hcopy hi
  rw [hcount] at hbyte₁
  rw [MemoryEdit.strncpy_apply, LinearMemory.stringLength_eq_ok_iff.2 hs]
  dsimp only
  rw [hcopy]
  dsimp only
  by_cases hlt : (words 0).toNat + min len (words 2).toNat < UInt32.size
  · have hdst₁ : m₁.InBounds (words 0).toNat (words 2).toNat := by
      rw [LinearMemory.InBounds, hsize₁]
      exact hdst
    obtain ⟨m₂, hzero, hsize₂, hbyte₂⟩ := zero_after_copy hdst₁ hcount hlt
    rw [if_pos hlt, MemoryEdit.padFrom_of_lt (by rw [hcount]; exact hlt), hzero]
    refine ⟨m₂, rfl, fun i hi => ?_, fun i hi hout => ?_, hsize₂.trans hsize₁⟩
    · rw [hbyte₂ _ (by omega), hs.paddedByte_eq]
      by_cases hlen : i < len
      · rw [if_neg (by omega), hbyte₁ (by omega), if_pos (by omega), if_pos hlen,
          Nat.add_sub_cancel_left, Nat.add_comm]
      · rw [if_pos (by omega), if_neg hlen]
    · rw [hbyte₂ _ (by omega), if_neg (by omega), hbyte₁ (by omega), if_neg (by omega)]
  · -- the destination ends at 2³² or before, so there is nothing to pad
    have hle := Nat.le_of_not_lt hlt
    rw [if_neg hlt, MemoryEdit.padFrom_of_le (by rw [hcount]; exact hle)]
    refine ⟨m₁, rfl, fun i hi => ?_, fun i hi hout => ?_, hsize₁⟩
    · rw [hbyte₁ (by omega), if_pos (by omega), hs.paddedByte_eq, if_pos (by omega),
        Nat.add_sub_cancel_left, Nat.add_comm]
    · rw [hbyte₁ (by omega), if_neg (by omega)]

theorem strncpy_of_not_terminated (h : ¬ m.Terminated (words 1)) :
    ∃ err, MemoryEdit.strncpy.perform words m = (.error (.memory err), m) := by
  rw [MemoryEdit.strncpy_apply]
  rcases hlength : m.stringLength (words 1) with err | len
  · exact ⟨err, rfl⟩
  · exact absurd (LinearMemory.terminated_of_length hlength) h

/-! ## Both -/

/-- **Bounded strings.** Comparing succeeds just if both strings are terminated before the end of
    the memory. Copying to `n` bytes inside the memory fails and changes nothing if the source is
    not; otherwise it puts the padded string there, and succeeds unless the bytes of the string that
    it has copied end at 2³². Only the first `n` bytes up to the first zero byte matter to calls that
    do not fail: the result of comparing and the `n` bytes that copying writes are the same in every
    memory that agrees on those, whatever comes after them. -/
theorem bounded_strings_succeed_iff (m : LinearMemory) (words : Nat → UInt32) :
    ((∃ word, MemoryQuery.strncmp.answer words m = .ok word)
        ↔ m.Terminated (words 0) ∧ m.Terminated (words 1))
      ∧ (m.InBounds (words 0).toNat (words 2).toNat →
          (∀ len, m.StringOf (words 1).toNat len →
            ∃ after, MemoryEdit.strncpy.perform words m
                = (if (words 0).toNat + min len (words 2).toNat < UInt32.size then .ok (words 0)
                    else .error .overflow, after)
              ∧ CopiedPadded m after (words 0).toNat (words 1).toNat (words 2).toNat)
          ∧ (¬ m.Terminated (words 1) →
            ∃ err, MemoryEdit.strncpy.perform words m = (.error (.memory err), m)))
      ∧ ∀ (m' : LinearMemory) (words' : Nat → UInt32), words' 2 = words 2 →
          m.SamePrefix m' (words 1).toNat (words' 1).toNat (words 2).toNat →
          (m.SamePrefix m' (words 0).toNat (words' 0).toNat (words 2).toNat →
            ∀ word word', MemoryQuery.strncmp.answer words m = .ok word →
              MemoryQuery.strncmp.answer words' m' = .ok word' → word = word')
          ∧ (m.InBounds (words 0).toNat (words 2).toNat → m.Terminated (words 1) →
            m'.InBounds (words' 0).toNat (words 2).toNat → m'.Terminated (words' 1) →
            ∀ i < (words 2).toNat,
              (MemoryEdit.strncpy.perform words m).2.byte ((words 0).toNat + i)
                = (MemoryEdit.strncpy.perform words' m').2.byte ((words' 0).toNat + i)) := by
  have copies {m : LinearMemory} {words : Nat → UInt32}
      (hdst : m.InBounds (words 0).toNat (words 2).toNat) (hsrc : m.Terminated (words 1)) :
      CopiedPadded m (MemoryEdit.strncpy.perform words m).2 (words 0).toNat (words 1).toNat
        (words 2).toNat := by
    obtain ⟨len, hlen⟩ := LinearMemory.terminated_iff.1 hsrc
    obtain ⟨after, hrun, hcopied⟩ := strncpy_of_string hlen hdst
    rwa [hrun]
  refine ⟨strncmp_succeeds_iff,
    fun hdst => ⟨fun len hlen => strncpy_of_string hlen hdst, strncpy_of_not_terminated⟩,
    fun m' words' hbound hsource => ⟨fun hother word word' => ?_, fun hdst hsrc hdst' hsrc' => ?_⟩⟩
  · exact strncmp_eq_of_samePrefix hbound hother hsource
  · intro i hi
    rw [← hbound] at hdst'
    rw [(copies hdst hsrc).inside i hi, (copies hdst' hsrc').inside i (hbound ▸ hi)]
    exact hsource.paddedByte_eq hi

/-- Two memories hold the strings `aaaa` and `aaa`, with other bytes after them. Comparing at most
    five bytes gives the same word in both, and so does copying five bytes of `aaa`. -/
theorem bounded_strings_five :
    let m := ((LinearMemory.zeros 65536).fillRange 100 103 97).fillRange 200 204 97
    let m' := ((LinearMemory.zeros 65536).fillRange 400 405 97).fillRange 403 404 0
      |>.fillRange 500 504 97
    let words : Nat → UInt32 := fun i => [200, 100, 5].getD i 0
    let words' : Nat → UInt32 := fun i => [500, 400, 5].getD i 0
    (∃ after, MemoryEdit.strncpy.perform words m = (.ok 200, after)
        ∧ CopiedPadded m after 200 100 5)
      ∧ (∃ word, MemoryQuery.strncmp.answer words m = .ok word
        ∧ MemoryQuery.strncmp.answer words' m' = .ok word)
      ∧ ∀ i < 5, (MemoryEdit.strncpy.perform words m).2.byte (200 + i)
        = (MemoryEdit.strncpy.perform words' m').2.byte (500 + i) := by
  intro m m' words words'
  have hsource : m.SamePrefix m' 100 400 5 := by decide +kernel
  have hother : m.SamePrefix m' 200 500 5 := by decide +kernel
  have hfirst : m.Terminated 100 := ⟨3, by decide +kernel, by decide +kernel⟩
  have hsecond : m.Terminated 200 := ⟨4, by decide +kernel, by decide +kernel⟩
  have hfirst' : m'.Terminated 400 := ⟨3, by decide +kernel, by decide +kernel⟩
  have hsecond' : m'.Terminated 500 := ⟨4, by decide +kernel, by decide +kernel⟩
  have hdst : m.InBounds 200 5 := by decide +kernel
  have hdst' : m'.InBounds 500 5 := by decide +kernel
  have hstring : m.StringOf 100 3 := ⟨by decide +kernel, by decide +kernel, by decide +kernel⟩
  obtain ⟨hcompares, hcopies, hsame⟩ := bounded_strings_succeed_iff m words
  obtain ⟨word, hword⟩ := hcompares.2 ⟨hsecond, hfirst⟩
  obtain ⟨word', hword'⟩ := (bounded_strings_succeed_iff m' words').1.2 ⟨hsecond', hfirst'⟩
  obtain ⟨hcomparing, hcopying⟩ := hsame m' words' rfl hsource
  rw [← hcomparing hother word word' hword hword'] at hword'
  exact ⟨(hcopies hdst).1 3 hstring, ⟨word, hword, hword'⟩, hcopying hdst hfirst hdst' hfirst'⟩

/-- One byte at the end of the memory cannot be compared with itself, nor copied, although it is
    inside. Where a zero byte follows, both succeed. -/
theorem strncmp_fails_at_end :
    let m := (LinearMemory.zeros 65536).fillRange 65535 65536 97
    let m' := (LinearMemory.zeros 65536).fillRange 0 1 97
    let words : Nat → UInt32 := fun i => [65535, 65535, 1].getD i 0
    let words' : Nat → UInt32 := fun i => [0, 0, 1].getD i 0
    m.InBounds 65535 1 ∧ m.SamePrefix m' 65535 0 1
      ∧ MemoryQuery.strncmp.answer words m = .error (.outOfBounds 65535 2 65536)
      ∧ MemoryQuery.strncmp.answer words' m' = .ok 0
      ∧ (MemoryEdit.strncpy.perform words m).1 = .error (.memory (.outOfBounds 65535 2 65536))
      ∧ (MemoryEdit.strncpy.perform words' m').1 = .ok 0 := by
  intro m m' words words'
  refine ⟨by decide +kernel, ?_, by decide +kernel, by decide +kernel, by decide +kernel,
    by decide +kernel⟩
  intro i hi _
  obtain rfl : i = 0 := by omega
  decide +kernel

end Libc

end WasmHost
