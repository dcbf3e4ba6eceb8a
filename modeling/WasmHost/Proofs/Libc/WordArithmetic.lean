import WasmHost.Proofs.Libc.Dynamic
import WasmHost.Proofs.Libc.MemoryCalls

set_option autoImplicit false

/-! # Lengths and addresses as words

The functions on strings compute lengths and addresses in 32 bits. Sums and differences are checked,
and one that is no 32-bit number makes the host panic; lengths are cut to 32 bits without a check.
Here the functions are written once more with lengths that are checked, too (`WordFault.narrow`),
and on strings in a memory these exact forms do the same.

`Libc.string_arithmetic` says when a sum overflows. Searching never does, and nothing does in a
memory of less than 2³² bytes. In a memory of 2³² bytes the end of a range can be 2³² itself, and
`strncpy` computes it even if there is nothing to pad (`Libc.strncpy_overflows_at_end`). A program
makes the host panic just if one of its calls meets such a sum (`Libc.runProgram_panics_iff`). -/

namespace WasmHost

open WasmHost.Action

variable {ι : Type}

/-! ## Exact lengths -/

namespace WordFault

/-- A number as a word. -/
def narrow (n : Nat) : Except WordFault UInt32 :=
  if n < UInt32.size then .ok n.toUInt32 else .error .overflow

variable {n : Nat}

theorem narrow_of_lt (h : n < UInt32.size) : narrow n = .ok n.toUInt32 := if_pos h

theorem narrow_of_le (h : UInt32.size ≤ n) : narrow n = .error .overflow :=
  if_neg (Nat.not_lt_of_le h)

/-- **Checked lengths are exact.** -/
theorem toNat_of_narrow {c : UInt32} (h : narrow n = .ok c) : c.toNat = n := by
  unfold narrow at h
  split at h <;> cases h
  rename_i hlt
  exact UInt32.toNat_ofNat_of_lt' hlt

/-- The address of something that has been found from `base` on; zero for none. -/
def located (base : UInt32) : Option Nat → Except WordFault UInt32
  | some z => do add base (← narrow (z - base.toNat))
  | none => .ok 0

theorem located_eq {base : UInt32} {found : Option Nat}
    (h : ∀ z, found = some z → base.toNat ≤ z ∧ z < UInt32.size) :
    located base found = .ok (Libc.addressWord found) := by
  rcases found with _ | z
  · rfl
  obtain ⟨hle, hlt⟩ := h z rfl
  have hnarrow := narrow_of_lt (n := z - base.toNat) (by omega)
  have hvalue := toNat_of_narrow hnarrow
  have hadd := add_of_lt (a := base) (b := (z - base.toNat).toUInt32) (by omega)
  rw [located, hnarrow]
  refine hadd.trans (congrArg _ (UInt32.toNat_inj.1 ?_))
  rw [toNat_of_add hadd, hvalue, Nat.add_sub_cancel' hle]
  exact (UInt32.toNat_ofNat_of_lt' hlt).symm

section

variable {σ α : Type} {s : σ}

/-- A computation goes on with the length itself if that is a word. -/
theorem compute_narrow_bind (h : n < UInt32.size)
    (f : UInt32 → ExceptT WordFault (StateM σ) α) :
    (compute (narrow n) >>= f) s = f n.toUInt32 s := by
  rw [narrow_of_lt h]
  exact bind_apply_of_ok rfl

end

end WordFault

/-! ## The functions -/

namespace Libc

open WordFault

/-- `MemoryQuery.answer` with exact lengths. -/
def MemoryQuery.answerExact (q : MemoryQuery) (words : Nat → UInt32) (m : LinearMemory) :
    Except WordFault UInt32 := do
  match q with
  | .memchr =>
      let start := (words 0).toNat
      (m.check start (words 2).toNat).mapError .memory
      located (words 0) (m.findByte? (words 1).toUInt8 start (start + (words 2).toNat))
  | .strlen => narrow (← (m.stringLength (words 0)).mapError .memory)
  | .strchr =>
      let start := (words 0).toNat
      let len ← (m.stringLength (words 0)).mapError .memory
      located (words 0) (m.findByte? (words 1).toUInt8 start (start + len + 1))
  | .strrchr =>
      let start := (words 0).toNat
      let len ← (m.stringLength (words 0)).mapError .memory
      located (words 0) (m.findLastByte? (words 1).toUInt8 start (start + len + 1))
  | .memcmp | .strcmp | .strncmp => (q.answer words m).mapError .memory

/-- `MemoryEdit.perform` with exact lengths. -/
def MemoryEdit.performExact (e : MemoryEdit) (words : Nat → UInt32) : WordAction UInt32 := do
  let dst := words 0
  let src := words 1
  let n := words 2
  match e with
  | .strcpy =>
      let len ← lift (MemoryAction.look (·.stringLength src))
      let word ← compute (narrow len)
      let size ← compute (add word 1)
      lift (MemoryAction.change (·.copyWithin src dst size))
      return dst
  | .strncpy =>
      let len ← lift (MemoryAction.look (·.stringLength src))
      let word ← compute (narrow len)
      let count := min word n
      lift (MemoryAction.change (·.copyWithin src dst count))
      let start ← compute (add dst count)
      let rest ← compute (sub n count)
      lift (MemoryAction.change (·.zero start rest))
      return dst
  | .strcat =>
      let tail ← lift (MemoryAction.look (·.stringLength dst))
      let word ← compute (narrow tail)
      let stop ← compute (add dst word)
      let len ← lift (MemoryAction.look (·.stringLength src))
      let word ← compute (narrow len)
      let size ← compute (add word 1)
      lift (MemoryAction.change (·.copyWithin src stop size))
      return dst
  | .memcpy | .mempcpy | .memset => e.perform words

/-- `Action.allocateString` with exact lengths. -/
def allocateStringExact (s : List UInt8) : Action ι WordFault UInt32 := do
  lift requireMemory
  let word ← compute (narrow s.length)
  let size ← compute (add word 1)
  lift (storeString size s)

/-- `strdup` with exact lengths. -/
def strdupExact (ptr : UInt32) : Action ι WordFault UInt32 := do
  allocateStringExact (← lift (look (·.string ptr)))

/-! ## Searching -/

section

variable {m : LinearMemory} {c : UInt8} {base : UInt32} {stop : Nat}

/-- What a search finds in a memory has an address. -/
theorem located_findByte? (h : stop ≤ m.size) :
    located base (m.findByte? c base.toNat stop)
      = .ok (addressWord (m.findByte? c base.toNat stop)) := by
  have hstop : stop ≤ UInt32.size := Nat.le_trans h m.size_le
  refine located_eq fun z hz => ?_
  obtain ⟨hle, hlt, -⟩ := (m.findByte?_eq_some_iff _ _ _ z hstop).1 hz
  exact ⟨hle, Nat.lt_of_lt_of_le hlt hstop⟩

theorem located_findLastByte? (h : stop ≤ m.size) :
    located base (m.findLastByte? c base.toNat stop)
      = .ok (addressWord (m.findLastByte? c base.toNat stop)) := by
  have hstop : stop ≤ UInt32.size := Nat.le_trans h m.size_le
  refine located_eq fun z hz => ?_
  obtain ⟨hle, hlt, -⟩ := (m.findLastByte?_eq_some_iff _ _ _ z hstop).1 hz
  exact ⟨hle, Nat.lt_of_lt_of_le hlt hstop⟩

end

/-- **Questions never overflow.** -/
theorem MemoryQuery.answerExact_eq (q : MemoryQuery) (words : Nat → UInt32) (m : LinearMemory) :
    q.answerExact words m = (q.answer words m).mapError .memory := by
  have hsize := m.size_le
  cases q with
  | memcmp | strcmp | strncmp => rfl
  | memchr =>
      unfold answerExact answer
      dsimp only
      by_cases hbounds : m.InBounds (words 0).toNat (words 2).toNat
      · have hstop : (words 0).toNat + (words 2).toNat ≤ m.size := hbounds
        rw [LinearMemory.check_of_inBounds hbounds]
        exact located_findByte? hstop
      · rw [LinearMemory.check_of_not_inBounds hbounds]
        rfl
  | strlen =>
      unfold answerExact answer
      dsimp only
      rcases hlength : m.stringLength (words 0) with err | len
      · rfl
      · have hinside := (LinearMemory.stringLength_eq_ok_iff.1 hlength).inside
        exact narrow_of_lt (n := len) (by omega)
  | strchr =>
      unfold answerExact answer
      dsimp only
      rcases hlength : m.stringLength (words 0) with err | len
      · rfl
      · exact located_findByte? (LinearMemory.stringLength_eq_ok_iff.1 hlength).inside
  | strrchr =>
      unfold answerExact answer
      dsimp only
      rcases hlength : m.stringLength (words 0) with err | len
      · rfl
      · exact located_findLastByte? (LinearMemory.stringLength_eq_ok_iff.1 hlength).inside

/-! ## Copying -/

/-- When a copy overflows: a string of 2³² - 1 bytes has no size with its zero byte, and a copy that
    ends at 2³² has no address after it. -/
def MemoryEdit.Overflows (e : MemoryEdit) (words : Nat → UInt32) (m : LinearMemory) : Prop :=
  match e with
  | .strcpy => m.StringOf (words 1).toNat (UInt32.size - 1)
  | .strncpy => ∃ len, m.StringOf (words 1).toNat len
      ∧ (words 0).toNat + min len (words 2).toNat = UInt32.size
      ∧ m.InBounds (words 0).toNat (min len (words 2).toNat)
  | .strcat => m.StringOf (words 1).toNat (UInt32.size - 1)
      ∧ ∃ tail, m.StringOf (words 0).toNat tail
  | _ => False

/-- Then the memory has all of its 2³² bytes. -/
theorem MemoryEdit.Overflows.size_eq {e : MemoryEdit} {words : Nat → UInt32} {m : LinearMemory}
    (h : e.Overflows words m) : m.size = UInt32.size := by
  have hsize := m.size_le
  have hlong (hs : m.StringOf (words 1).toNat (UInt32.size - 1)) : m.size = UInt32.size := by
    have hinside := hs.inside
    omega
  cases e with
  | strcpy => exact hlong h
  | strcat => exact hlong h.1
  | strncpy =>
      obtain ⟨len, -, hstop, hbounds⟩ := h
      have hbounds : (words 0).toNat + min len (words 2).toNat ≤ m.size := hbounds
      omega
  | memcpy | mempcpy | memset => cases h

namespace MemoryEdit

variable (words : Nat → UInt32) (m : LinearMemory)

/-- The length of a string in a memory is a word. -/
theorem look_narrow_bind {α : Type} (addr : UInt32) {f g : Nat → WordAction α}
    (h : ∀ len, m.StringOf addr.toNat len → f len m = g len m) :
    (lift (MemoryAction.look (·.stringLength addr)) >>= f) m
      = (lift (MemoryAction.look (·.stringLength addr)) >>= g) m := by
  rw [bind_apply, bind_apply, lift_apply, MemoryAction.look]
  rcases hlen : m.stringLength addr with err | len
  · rfl
  · exact h len (LinearMemory.stringLength_eq_ok_iff.1 hlen)

/-- **Lengths of strings in a memory are exact.** -/
theorem performExact_eq (e : MemoryEdit) : e.performExact words m = e.perform words m := by
  have hlt {addr : UInt32} {len : Nat} (hs : m.StringOf addr.toNat len) : len < UInt32.size :=
    Nat.lt_of_le_of_lt (Nat.le_add_left ..) (Nat.lt_of_lt_of_le hs.inside m.size_le)
  cases e with
  | memcpy | mempcpy | memset => rfl
  | strcpy => exact look_narrow_bind m _ fun len hs => compute_narrow_bind (hlt hs) _
  | strncpy => exact look_narrow_bind m _ fun len hs => compute_narrow_bind (hlt hs) _
  | strcat =>
      refine look_narrow_bind m _ fun tail htail => ?_
      rw [compute_narrow_bind (hlt htail), bind_apply, bind_apply, compute_apply]
      rcases add (words 0) tail.toUInt32 with fault | stop
      · rfl
      · exact look_narrow_bind m _ fun len hs => compute_narrow_bind (hlt hs) _

variable {words m} {len : Nat}

theorem finish_ne_overflow (result : UInt32) (m : LinearMemory)
    (r : Except MemoryError LinearMemory) : (finish result m r).1 ≠ .error .overflow := by
  rcases r with err | m' <;> exact fun h => by cases h

theorem copySized_overflow_iff {start : Nat} (hs : m.StringOf start len) (src dst result : UInt32) :
    (copySized src dst result len m).1 = .error .overflow ↔ m.StringOf start (UInt32.size - 1) := by
  have hinside := hs.inside
  have hsize := m.size_le
  by_cases hlt : len + 1 < UInt32.size
  · rw [copySized_of_lt hlt]
    refine ⟨fun h => absurd h (finish_ne_overflow _ _ _), fun h => ?_⟩
    have hlen := hs.unique h
    omega
  · have hlen : len = UInt32.size - 1 := by omega
    rw [copySized_of_eq (by omega)]
    exact ⟨fun _ => hlen ▸ hs, fun _ => rfl⟩

theorem strcpy_overflow_iff :
    (perform .strcpy words m).1 = .error .overflow ↔ Overflows .strcpy words m := by
  rw [strcpy_apply, Overflows]
  rcases hlen : m.stringLength (words 1) with err | len
  · exact ⟨fun h => (by cases h), fun h => absurd h (LinearMemory.not_stringOf hlen _)⟩
  · exact copySized_overflow_iff (LinearMemory.stringLength_eq_ok_iff.1 hlen) _ _ _

theorem strcat_overflow_iff :
    (perform .strcat words m).1 = .error .overflow ↔ Overflows .strcat words m := by
  rw [strcat_apply, Overflows]
  rcases htail : m.stringLength (words 0) with err | tail
  · refine ⟨fun h => (by cases h), ?_⟩
    rintro ⟨-, tail, h⟩
    exact absurd h (LinearMemory.not_stringOf htail tail)
  dsimp only
  rcases hlen : m.stringLength (words 1) with err | len
  · exact ⟨fun h => (by cases h), fun h => absurd h.1 (LinearMemory.not_stringOf hlen _)⟩
  · have htail := LinearMemory.stringLength_eq_ok_iff.1 htail
    rw [copySized_overflow_iff (LinearMemory.stringLength_eq_ok_iff.1 hlen)]
    exact ⟨fun h => ⟨h, tail, htail⟩, And.left⟩

theorem strncpy_overflow_iff :
    (perform .strncpy words m).1 = .error .overflow ↔ Overflows .strncpy words m := by
  have hsize := m.size_le
  rw [strncpy_apply, Overflows]
  rcases hlen : m.stringLength (words 1) with err | len
  · refine ⟨fun h => (by cases h), ?_⟩
    rintro ⟨len, h, -⟩
    exact absurd h (LinearMemory.not_stringOf hlen len)
  have hs := LinearMemory.stringLength_eq_ok_iff.1 hlen
  have hcount := hs.toNat_min (words 2)
  dsimp only
  rcases hcopy : m.copyWithin (words 1) (words 0) (min len.toUInt32 (words 2)) with err | m'
  · -- the source is always inside, so the destination is not
    refine ⟨fun h => (by cases h), fun ⟨len', hs', _, hdst⟩ => ?_⟩
    rw [← hs.unique hs', ← hcount] at hdst
    cases hcopy.symm.trans (LinearMemory.copyWithin_of_inBounds (hs.inBounds_min (words 2)) hdst)
  obtain ⟨-, hdst, -⟩ := LinearMemory.copyWithin_eq_ok_iff.1 hcopy
  rw [hcount] at hdst
  have hstop : (words 0).toNat + min len (words 2).toNat ≤ m.size := hdst
  dsimp only
  by_cases hlt : (words 0).toNat + min len (words 2).toNat < UInt32.size
  · rw [padFrom_of_lt (by rw [hcount]; exact hlt)]
    refine ⟨fun h => absurd h (finish_ne_overflow _ _ _), fun ⟨len', hs', hend, _⟩ => ?_⟩
    rw [← hs.unique hs'] at hend
    exact absurd hend (Nat.ne_of_lt hlt)
  · rw [padFrom_of_le (by rw [hcount]; exact Nat.le_of_not_lt hlt)]
    exact ⟨fun _ => ⟨len, hs, by omega, hdst⟩, fun _ => rfl⟩

/-- **Changes overflow** only as `MemoryEdit.Overflows` says. -/
theorem overflow_iff (e : MemoryEdit) :
    (e.perform words m).1 = .error .overflow ↔ e.Overflows words m := by
  have hchange {result : UInt32} {r : Except MemoryError LinearMemory} :
      (finish result m r).1 = .error .overflow ↔ False :=
    iff_false_intro (finish_ne_overflow _ _ _)
  cases e with
  | strcpy => exact strcpy_overflow_iff
  | strncpy => exact strncpy_overflow_iff
  | strcat => exact strcat_overflow_iff
  | memcpy => rw [memcpy_apply]; exact hchange
  | mempcpy => rw [mempcpy_apply]; exact hchange
  | memset => rw [memset_apply]; exact hchange

end MemoryEdit

/-! ## Copies in blocks of the heap -/

/-- When the size of the block for a string overflows: a memory is active, and the length of the
    string is the greatest word, or is cut to it. -/
def Overlong (m : Machine ι) (s : List UInt8) : Prop :=
  (∃ active, m.activeMemory = .ok active) ∧ s.length % UInt32.size = UInt32.size - 1

/-- The message that is kept for `dlerror` is such a string. -/
def KeepsOverlong (m : Machine ι) : Prop :=
  ∃ message, m.pendingError = some message ∧ Overlong m message.toUTF8.data.toList

section

variable {m : Machine ι} {s : List UInt8} {ptr : UInt32}

theorem allocateString_overflow_iff :
    (allocateString s m).1 = .error .overflow ↔ Overlong m s := by
  rcases hactive : m.activeMemory with err | active
  · rw [allocateString_of_error hactive, Overlong, hactive]
    exact ⟨fun h => (by cases h), fun ⟨⟨_, h⟩, _⟩ => (by cases h)⟩
  rw [allocateString_of_active hactive, Overlong, ← add_one_eq_overflow_iff]
  have hsome : ∃ active, m.activeMemory = .ok active := ⟨active, hactive⟩
  rcases add s.length.toUInt32 1 with fault | size
  · exact ⟨fun h => ⟨hsome, h⟩, And.right⟩
  · exact ⟨fun h => absurd h (lift_ne_overflow _ m), fun h => (by cases h.2)⟩

/-- The length of a string of less than 2³² bytes is a word. -/
theorem allocateStringExact_eq (h : s.length < UInt32.size) :
    allocateStringExact s m = allocateString s m := by
  unfold allocateStringExact allocateString
  rw [bind_apply, bind_apply]
  rcases lift requireMemory m with ⟨fault | _, m'⟩
  · rfl
  · exact compute_narrow_bind h _

theorem allocateStringExact_overflow_iff :
    (allocateStringExact s m).1 = .error .overflow
      ↔ (∃ active, m.activeMemory = .ok active) ∧ UInt32.size ≤ s.length + 1 := by
  by_cases hlt : s.length < UInt32.size
  · rw [allocateStringExact_eq hlt, allocateString_overflow_iff, Overlong, Nat.mod_eq_of_lt hlt]
    exact and_congr_right fun _ => by omega
  rcases hactive : m.activeMemory with err | active
  · rw [allocateStringExact, bind_apply_of_error (lift_of_error (requireMemory_of_error hactive))]
    exact ⟨fun h => (by cases h), fun ⟨⟨_, h⟩, _⟩ => (by cases h)⟩
  · rw [allocateStringExact, bind_apply_of_ok (lift_of_ok (requireMemory_of_active hactive)),
      bind_apply, compute_apply, narrow_of_le (Nat.le_of_not_lt hlt)]
    exact ⟨fun _ => ⟨⟨active, rfl⟩, by omega⟩, fun _ => rfl⟩

/-- A string that is read from a memory is shorter than the memory. -/
theorem length_of_stringAt (hs : m.stringAt ptr = .ok s) :
    ∃ addr contents, m.activeMemory = .ok (addr, contents) ∧ s.length < contents.size := by
  obtain ⟨addr, contents, hactive, hstring⟩ := Machine.active_of_stringAt hs
  exact ⟨addr, contents, hactive, Nat.lt_of_le_of_lt (Nat.le_add_left ..) hstring.inBounds⟩

/-- **Lengths of strings that are copied into blocks are exact.** -/
theorem strdupExact_eq (ptr : UInt32) (m : Machine ι) : strdupExact ptr m = strdup ptr m := by
  have hlook : (lift (look (·.string ptr)) : Action ι WordFault (List UInt8)) m
      = ((m.stringAt ptr).mapError .memory, m) := rfl
  rw [strdupExact, strdup, bind_apply, bind_apply, hlook]
  rcases hs : m.stringAt ptr with err | s
  · rfl
  · obtain ⟨addr, contents, -, hlt⟩ := length_of_stringAt hs
    exact allocateStringExact_eq (Nat.lt_of_lt_of_le hlt contents.size_le)

theorem strdup_overflow_iff :
    (strdup ptr m).1 = .error .overflow
      ↔ ∃ s, m.stringAt ptr = .ok s ∧ s.length = UInt32.size - 1 := by
  have hlook : (lift (look (·.string ptr)) : Action ι WordFault (List UInt8)) m
      = ((m.stringAt ptr).mapError .memory, m) := rfl
  rw [strdup, bind_apply, hlook]
  rcases hs : m.stringAt ptr with err | s
  · exact ⟨fun h => (by cases h), fun ⟨_, h, _⟩ => (by cases h)⟩
  obtain ⟨addr, contents, hactive, hlt⟩ := length_of_stringAt hs
  have hlength : s.length % UInt32.size = s.length :=
    Nat.mod_eq_of_lt (Nat.lt_of_lt_of_le hlt contents.size_le)
  refine allocateString_overflow_iff.trans ?_
  rw [Overlong, hlength]
  constructor
  · exact fun h => ⟨s, rfl, h.2⟩
  · rintro ⟨s', hs', hlong⟩
    cases hs'
    exact ⟨⟨_, hactive⟩, hlong⟩

end

/-! ## Panics -/

namespace WordFunction

/-- When a sum overflows in a call with the arguments `words`. -/
def Overflows (words : Nat → UInt32) (m : Machine ι) : WordFunction → Prop
  | .edit e => ∃ addr contents, m.activeMemory = .ok (addr, contents) ∧ e.Overflows words contents
  | .strdup => ∃ s, m.stringAt (words 0) = .ok s ∧ s.length = UInt32.size - 1
  | .dlerror => KeepsOverlong m
  | _ => False

variable {words : Nat → UInt32} {m : Machine ι}

theorem orPanic_panicked {α : Type} {x : Action ι WordFault α} (hx : Keeps Machine.Composed x)
    (m : Machine ι) :
    (x.orPanic m).2.panicked = true ↔ m.panicked = true ∨ (x m).1 = .error .overflow := by
  have hpanicked : (x m).2.panicked = m.panicked := hx m
  rw [orPanic_apply, Machine.panicIf_panicked, hpanicked]

theorem replyChecked_panicked {x : Action ι WordFault UInt32} (hx : Keeps Machine.Composed x)
    (m : Machine ι) :
    (replyChecked x m).2.panicked = true ↔ m.panicked = true ∨ (x m).1 = .error .overflow := by
  rw [replyChecked_apply]
  exact orPanic_panicked hx m

theorem edit_overflow_iff (e : MemoryEdit) :
    (onContents .memory (e.perform words) m).1 = .error .overflow
      ↔ Overflows words m (.edit e) := by
  rw [onContents, Overflows]
  rcases hactive : m.activeMemory with err | ⟨addr, contents⟩
  · refine ⟨fun h => (by cases h), ?_⟩
    rintro ⟨_, _, h, _⟩
    cases h
  · refine MemoryEdit.overflow_iff e |>.trans ⟨fun h => ⟨addr, contents, rfl, h⟩, ?_⟩
    rintro ⟨_, _, h, hover⟩
    cases h
    exact hover

theorem dlerror_panicked :
    (Libc.dlerror m).2.panicked = true ↔ m.panicked = true ∨ KeepsOverlong m := by
  rw [KeepsOverlong]
  rcases hpending : m.pendingError with _ | message
  · rw [dlerror_of_none hpending]
    exact ⟨.inl, fun h => h.resolve_right fun ⟨_, h, _⟩ => (by cases h)⟩
  · rw [dlerror_of_some hpending,
      orPanic_panicked (allocateString_keeps Machine.Composed.heapLenient _),
      allocateString_overflow_iff]
    refine or_congr_right ⟨fun h => ⟨message, rfl, h⟩, ?_⟩
    rintro ⟨_, h, hlong⟩
    cases h
    exact hlong

/-- **A call** that loads nothing makes the host panic just if a sum overflows. -/
theorem call_panicked {f : WordFunction}
    (hload : f = .dlopen → loadedByOpen? (words 0) (words 1) m = none) (caller : Caller ι) :
    (f.call caller words m).2.panicked = true ↔ m.panicked = true ∨ f.Overflows words m := by
  have hheap := Machine.Composed.heapLenient (ι := ι)
  by_cases hmay : f.mayPanic = true
  · cases f with
    | edit e =>
        rw [← edit_overflow_iff]
        exact replyChecked_panicked (onContents_keeps hheap.contents _ _) m
    | strdup =>
        rw [Overflows, ← strdup_overflow_iff]
        exact replyChecked_panicked
          ((look_keeps _).lift.bind fun _ => allocateString_keeps hheap _) m
    | dlerror =>
        rw [call, bind_pure_apply]
        exact dlerror_panicked
    | _ => cases hmay
  · have hnever : ¬ f.Overflows words m := by
      cases f <;> first | exact id | exact absurd rfl hmay
    have hcomposed : Machine.Composed m (f.call caller words m).2 := by
      by_cases hsilent : f.isSilent = true
      · exact call_keeps hsilent hheap.contents (fun _ => hheap) (fun h => absurd h hmay)
          (fun _ => Machine.Composed.descriptorLenient) (fun _ => Machine.Composed.loaderLenient)
          caller words m
      by_cases hopen : f = .dlopen
      · subst hopen
        rw [call, bind_pure_apply]
        exact dlopen_of_not_loads Machine.Composed.loaderLenient (hload rfl)
      · exact call_keeps_of_emit (Bool.eq_false_iff.2 hsilent) hopen
          (fun _ => .modifyHost fun _ => rfl) caller words m
    rw [hcomposed]
    exact ⟨.inl, fun h => h.resolve_right hnever⟩

end WordFunction

/-- Whether a sum overflows in the call of a stub. -/
def Overflows (c : StubCall Function) : Prop :=
  match c.stub with
  | .implemented (.word f) => f.Overflows (Args.word c.args) c.before
  | _ => False

section

variable [Budget]

theorem run_panicked {c : StubCall Function}
    (h : c.stub.loaded? loads c.args c.before = none) :
    (c.run engine).2.panicked = true ↔ c.before.panicked = true ∨ Overflows c := by
  have hnever (m : Machine Function) : m.panicked = true ↔ m.panicked = true ∨ False :=
    iff_of_eq (or_false _).symm
  obtain ⟨name, stub, type, exports, depth, args, m, inner⟩ := c
  rcases stub with (f | _ | f) | _
  · exact hnever m
  · exact hnever m
  · rw [StubCall.run, callStub_machine]
    refine WordFunction.call_panicked (fun hopen => ?_) _
    subst hopen
    exact h
  · exact hnever m

/-- The host panics just if a sum overflows in one of the calls. -/
def PanicTrace : Trace Function (StubCall Function) := fun m cs _ m' =>
  m'.panicked = true ↔ m.panicked = true ∨ ∃ c ∈ flattenAll cs, Overflows c

omit [Budget] in
theorem PanicTrace.steady : PanicTrace.Steady where
  calm _ h := by
    rw [PanicTrace, h.panicked]
    exact ⟨.inl, fun h => h.resolve_right fun ⟨_, hc, _⟩ => (by cases hc)⟩
  append h h' := by
    rw [PanicTrace] at h h' ⊢
    rw [h', h, flattenAll_append, or_assoc]
    simp only [List.mem_append, or_and_right, exists_or]

theorem PanicTrace.stubs : engine.TracesStubs loads PanicTrace := by
  refine tracesStubs_of_calls PanicTrace.steady (fun c _ hflatten hname => ?_) ?_
  · rw [PanicTrace, hflatten, run_panicked hname]
    simp only [List.mem_singleton, exists_eq_left]
  · intro c _ _ m t hstub htrace
    have hnever : ¬ Overflows c := by
      rw [Overflows, hstub]
      exact id
    show m.panicked = true ↔ _
    rw [PanicTrace] at htrace
    simp only [htrace, flattenAll_singleton, List.mem_append, List.mem_singleton, or_and_right,
      exists_or, exists_eq_left, hnever, or_false]

/-- **A program makes the host panic** just if a sum overflows in one of its calls, wherever it is
    made. -/
theorem runProgram_panics_iff {config : Config} (hpages : config.initialPages ≤ maxPages)
    (source : ModuleSource ModuleObject) (sink : Sink) (libs : List (StubLibrary Function))
    (main : String) (extra : List String) :
    (runProgram engine config source sink libs main extra).result = none
      ↔ ∃ c ∈ flattenAll (engine.recordProgram loads libs main extra
          (.initial config source sink)), Overflows c := by
  obtain ⟨_, htrace⟩ := Engine.program_trace_of_reporting PanicTrace.steady PanicTrace.stubs
    (fun _ h => h) libs main extra (.initial config source sink)
  have hstart : (Machine.initial config source sink : Machine Function).panicked = false := rfl
  rw [PanicTrace, hstart] at htrace
  rw [runProgram_eq, if_pos hpages]
  rcases hrun : engine.program libs main extra (.initial config source sink) with ⟨result, m⟩
  rw [hrun] at htrace
  dsimp only at htrace ⊢
  rw [← false_or (∃ c ∈ _, _), ← Bool.false_eq_true, ← htrace, Completed.of]
  split
  case isTrue h => exact ⟨fun _ => h, fun _ => rfl⟩
  case isFalse h => exact ⟨fun hnone => (by cases hnone), fun hpanicked => absurd hpanicked h⟩

end

/-! ## All functions -/

/-- **Arithmetic of the functions on strings.** Sums, differences and lengths that are computed have
    their mathematical values. Searching never overflows. The lengths of strings in a memory are
    words, so that the exact forms do the same, and a sum overflows just in these cases, and only in
    a memory of 2³² bytes: a string of 2³² - 1 bytes, which has no size with its zero byte, and
    copying at most `n` bytes to the very end of the memory, which has no address after it. The size
    of the block for a string of the host is exact up to 2³² - 2 bytes. Where a sum overflows, the
    host panics, and it does so nowhere else. -/
theorem string_arithmetic [Budget] :
    (∀ (a b c : UInt32) (n : Nat),
        (add a b = .ok c → c.toNat = a.toNat + b.toNat)
          ∧ (sub a b = .ok c → c.toNat + b.toNat = a.toNat) ∧ (narrow n = .ok c → c.toNat = n))
      ∧ (∀ (q : MemoryQuery) (words : Nat → UInt32) (m : LinearMemory),
        q.answerExact words m = (q.answer words m).mapError .memory)
      ∧ (∀ (e : MemoryEdit) (words : Nat → UInt32) (m : LinearMemory),
        e.performExact words m = e.perform words m
          ∧ ((e.perform words m).1 = .error .overflow ↔ e.Overflows words m)
          ∧ (e.Overflows words m → m.size = UInt32.size))
      ∧ (∀ (s : List UInt8) (m : Machine ι),
        (s.length < UInt32.size → allocateStringExact s m = allocateString s m)
          ∧ ((allocateStringExact s m).1 = .error .overflow
            ↔ (∃ active, m.activeMemory = .ok active) ∧ UInt32.size ≤ s.length + 1)
          ∧ ((allocateString s m).1 = .error .overflow ↔ Overlong m s))
      ∧ (∀ (ptr : UInt32) (m : Machine ι),
        strdupExact ptr m = strdup ptr m
          ∧ ((strdup ptr m).1 = .error .overflow
            ↔ ∃ s, m.stringAt ptr = .ok s ∧ s.length = UInt32.size - 1)
          ∧ ∀ s, m.stringAt ptr = .ok s →
            ∃ addr contents, m.activeMemory = .ok (addr, contents) ∧ s.length < contents.size)
      ∧ (∀ c : StubCall Function, c.stub.loaded? loads c.args c.before = none →
        ((c.run engine).2.panicked = true ↔ c.before.panicked = true ∨ Overflows c))
      ∧ ∀ config : Config, config.initialPages ≤ maxPages →
        ∀ (source : ModuleSource ModuleObject) (sink : Sink) (libs : List (StubLibrary Function))
          (main : String) (extra : List String),
        (runProgram engine config source sink libs main extra).result = none
          ↔ ∃ c ∈ flattenAll (engine.recordProgram loads libs main extra
              (.initial config source sink)), Overflows c :=
  ⟨fun _ _ _ _ => ⟨toNat_of_add, toNat_of_sub, toNat_of_narrow⟩,
    fun q words m => q.answerExact_eq words m,
    fun e words m => ⟨e.performExact_eq words m, e.overflow_iff, fun h => h.size_eq⟩,
    fun _ _ =>
      ⟨allocateStringExact_eq, allocateStringExact_overflow_iff, allocateString_overflow_iff⟩,
    fun ptr m => ⟨strdupExact_eq ptr m, strdup_overflow_iff, fun _ => length_of_stringAt⟩,
    fun _ => run_panicked, fun _ => runProgram_panics_iff⟩

/-- A main module that copies at most `n` bytes of a string of one byte to the last address of a
    memory of 2³² bytes. -/
def endingProgram (n : UInt32) : WasmModule :=
  { WasmModule.empty with
    imports :=
      [⟨"env", "memory", .memory ⟨1, none⟩⟩,
        ⟨"env", "strncpy", .func ⟨[.i32, .i32, .i32], [.i32]⟩⟩]
    data := [⟨1024, [97, 0]⟩]
    funcs :=
      [⟨⟨[], [.i32]⟩, [], [.const (.i32 0xffffffff), .const (.i32 1024), .const (.i32 n), .call 0]⟩]
    exports := [⟨"main", .func, 1⟩] }

/-- The run of the program on a host with 2³² bytes of memory. -/
def endingRun (n : UInt32) : Completed :=
  runProgram engine ⟨65536, 16384, "main", []⟩ (fun _ => .ok (.parsed (endingProgram n))) .accepting
    [⟨"sample", [("strncpy", .implemented (.word (.edit .strncpy)))]⟩] "main" []

/-- At the end of one page nothing overflows. With 2³² bytes the end of a copy has no address, and
    a string that leaves out only the last byte has no size. Copying no bytes is possible even
    there. -/
theorem string_arithmetic_at_end :
    let page := (LinearMemory.zeros 65536).fillRange 100 103 97
    let full := (LinearMemory.zeros UInt32.size).fillRange 1024 1025 97
    let long := (LinearMemory.zeros UInt32.size).fillRange 0 (UInt32.size - 1) 97
    let inPage : Nat → UInt32 := fun i => [65534, 100, 2].getD i 0
    let atEnd : Nat → UInt32 := fun i => [0xffffffff, 1024, 2].getD i 0
    let whole : Nat → UInt32 := fun i => [16, 0].getD i 0
    (MemoryEdit.strncpy.perform inPage page).1 ≠ .error .overflow
      ∧ (MemoryEdit.strncpy.performExact atEnd full).1 = .error .overflow
      ∧ (MemoryEdit.strcpy.perform whole long).1 = .error .overflow
      ∧ ¬ ∃ c ∈ flattenAll (engine.recordProgram loads
          [⟨"sample", [("strncpy", .implemented (.word (.edit .strncpy)))]⟩] "main" []
          (.initial ⟨65536, 16384, "main", []⟩ (fun _ => .ok (.parsed (endingProgram 0)))
            .accepting)), Overflows c := by
  intro page full long inPage atEnd whole
  obtain ⟨-, -, hedits, -, -, -, hprograms⟩ := @string_arithmetic Unit _
  have hone : full.StringOf 1024 1 :=
    ⟨by decide +kernel, by decide +kernel, by decide +kernel⟩
  have hall : long.StringOf 0 (UInt32.size - 1) := by
    refine ⟨by decide, by decide +kernel, fun i hi => ?_⟩
    have hlt : i < UInt32.size := Nat.lt_of_lt_of_le hi (Nat.sub_le _ _)
    rw [Nat.zero_add, LinearMemory.byte_fillRange _ _ _ _ _ hlt, if_pos ⟨Nat.zero_le i, hi⟩]
    decide
  refine ⟨fun hover => ?_, ?_, ?_, fun hover => ?_⟩
  · obtain ⟨-, hiff, hfull⟩ := hedits .strncpy inPage page
    exact absurd (hfull (hiff.1 hover)) (by decide +kernel)
  · obtain ⟨hsame, hiff, -⟩ := hedits .strncpy atEnd full
    rw [hsame]
    exact hiff.2 ⟨1, hone, by decide, by decide +kernel⟩
  · exact (hedits .strcpy whole long).2.1.2 hall
  · have hnone : (endingRun 0).result = none := (hprograms _ (by decide) _ _ _ _ _).2 hover
    have hsome : (endingRun 0).result.isSome = true := by decide +kernel
    rw [hnone] at hsome
    cases hsome

/-- A string of one byte is copied to the last address, which is inside the memory, with and without
    a byte of padding. The end of the copy overflows, and a program that does so makes the host
    panic. -/
theorem strncpy_overflows_at_end :
    let m := ((LinearMemory.zeros UInt32.size).fillRange 0 1 7).fillRange 1024 1025 97
    let words (n : UInt32) : Nat → UInt32 := fun i => [0xffffffff, 1024, n].getD i 0
    m.size = UInt32.size ∧ m.InBounds 0xffffffff 1
      ∧ (MemoryEdit.strncpy.perform (words 1) m).1 = .error .overflow
      ∧ (MemoryEdit.strncpy.perform (words 2) m).1 = .error .overflow
      ∧ (endingRun 1).result = none ∧ (endingRun 2).result = none := by
  intro m words
  have hresults : (endingRun 1).result.isNone = true ∧ (endingRun 2).result.isNone = true := by
    decide +kernel
  exact ⟨by decide +kernel, by decide +kernel, by decide +kernel, by decide +kernel,
    Option.isNone_iff_eq_none.1 hresults.1, Option.isNone_iff_eq_none.1 hresults.2⟩

end Libc

end WasmHost
