import WasmHost.Libc.Tables
import WasmHost.Proofs.Libc.MemoryCalls

set_option autoImplicit false

/-! # Exact bounds

An access to some ranges of a memory succeeds just if all of them are inside, with ends that are
added up as unbounded numbers; otherwise it fails with the first range that is not inside, and
changes nothing (`Exact`). This is so for every access to a memory and for the functions of the
library that are one access: `Libc.accesses_exact`. -/

namespace WasmHost

open MemoryAction

/-- The computation accesses the ranges, given by address and length, in a memory of `size` bytes.
    Errors are passed on through `fault`. -/
def Exact {σ ε α : Type} (size : Nat) (ranges : List (UInt32 × Nat)) (fault : MemoryError → ε)
    (before : σ) (run : Except ε α × σ) (effect : α → σ → Prop) : Prop :=
  Atomic before run (∀ r ∈ ranges, r.1.toNat + r.2 ≤ size) effect fun err =>
    ∃ r, ranges.find? (fun r => size < r.1.toNat + r.2) = some r
      ∧ err = fault (.outOfBounds r.1.toNat r.2 size)

namespace Exact

variable {σ ε α : Type} {size : Nat} {ranges : List (UInt32 × Nat)} {fault : MemoryError → ε}
variable {before : σ} {run : Except ε α × σ} {effect : α → σ → Prop}

/-- From what happens when all ranges are inside, and when one is the first that is not. -/
theorem of_ranges
    (hok : (∀ r ∈ ranges, r.1.toNat + r.2 ≤ size) →
      ∃ a after, run = (.ok a, after) ∧ effect a after)
    (herror : ∀ r, ranges.find? (fun r => size < r.1.toNat + r.2) = some r →
      run = (.error (fault (.outOfBounds r.1.toNat r.2 size)), before)) :
    Exact size ranges fault before run effect := by
  refine Atomic.of_cases hok fun hnot => ?_
  rcases hfind : ranges.find? (fun r => size < r.1.toNat + r.2) with _ | r
  · refine absurd (fun r hr => ?_) hnot
    have hinside := List.find?_eq_none.1 hfind r hr
    rwa [decide_eq_true_eq, Nat.not_lt] at hinside
  · exact ⟨_, herror r hfind, r, hfind, rfl⟩

/-- Either the first range is the one that is not inside, or it is one of the others. -/
theorem find?_cons_cases {addr : UInt32} {count : Nat} {r : UInt32 × Nat}
    (h : ((addr, count) :: ranges).find? (fun r => size < r.1.toNat + r.2) = some r) :
    size < addr.toNat + count ∧ r = (addr, count)
      ∨ addr.toNat + count ≤ size ∧ ranges.find? (fun r => size < r.1.toNat + r.2) = some r := by
  by_cases hlt : size < addr.toNat + count
  · rw [List.find?_cons_of_pos (by simpa using hlt)] at h
    exact .inl ⟨hlt, (Option.some.inj h).symm⟩
  · rw [List.find?_cons_of_neg (by simpa using hlt)] at h
    exact .inr ⟨Nat.le_of_not_lt hlt, h⟩

end Exact

/-! ## Accesses to a memory -/

namespace LinearMemory

variable {m after : LinearMemory} {addr src dst len : UInt32} {count : Nat} {α : Type}

/-- One range that is checked before something is read. -/
theorem exact_look {f : LinearMemory → Except MemoryError α} {a b : α}
    (h : f m = (m.check addr.toNat count).map fun _ => a)
    (hread : m.InBounds addr.toNat count → a = b) :
    Exact m.size [(addr, count)] id m (look f m) fun b' m' => b' = b ∧ m' = m := by
  refine .of_ranges (fun hinside => ⟨a, m, ?_, ?_, rfl⟩) fun r hr => ?_
  · have hbounds : m.InBounds addr.toNat count := hinside _ List.mem_cons_self
    rw [look, h, check_of_inBounds hbounds]
    rfl
  · exact hread (hinside _ List.mem_cons_self)
  · obtain ⟨houtside, rfl⟩ | ⟨-, hr⟩ := Exact.find?_cons_cases hr
    case inr => cases hr
    rw [look, h, check_of_not_inBounds (Nat.not_le_of_lt houtside)]
    rfl

/-- One range that is checked before something is put there. -/
theorem exact_change {f : LinearMemory → Except MemoryError LinearMemory} {data : List UInt8}
    (h : f m = (m.check addr.toNat count).map fun _ => after)
    (hput : m.InBounds addr.toNat count → m.Overwritten after addr.toNat data) :
    Exact m.size [(addr, count)] id m (change f m) fun _ m' =>
      m.Overwritten m' addr.toNat data := by
  refine .of_ranges (fun hinside => ?_) fun r hr => ?_
  · have hbounds : m.InBounds addr.toNat count := hinside _ List.mem_cons_self
    rw [check_of_inBounds hbounds] at h
    exact ⟨(), after, change_of_ok h, hput hbounds⟩
  · obtain ⟨houtside, rfl⟩ | ⟨-, hr⟩ := Exact.find?_cons_cases hr
    case inr => cases hr
    rw [change, h, check_of_not_inBounds (Nat.not_le_of_lt houtside)]
    rfl

theorem exact_write {data : List UInt8} (hdata : data.length < UInt32.size) :
    Exact m.size [(addr, data.length)] id m (change (·.write addr data) m) fun _ m' =>
      m.Overwritten m' addr.toNat data := by
  have hwrite : m.write addr data = (m.check addr.toNat data.length).map fun _ =>
      m.overlay addr.toNat (addr.toNat + data.length)
        fun i => data.toArray.getD (i - addr.toNat) 0 := by
    rw [write]
    dsimp only
    rw [List.size_toArray, if_neg (Nat.not_le_of_lt hdata)]
    rcases m.check addr.toNat data.length with err | _ <;> rfl
  refine exact_change hwrite fun hbounds => ?_
  rw [check_of_inBounds hbounds] at hwrite
  exact overwritten_write hwrite

theorem exact_fill (value : UInt8) :
    Exact m.size [(addr, len.toNat)] id m (change (·.fill addr value len) m) fun _ m' =>
      m.Overwritten m' addr.toNat (List.replicate len.toNat value) := by
  have hfill : m.fill addr value len = (m.check addr.toNat len.toNat).map fun _ =>
      m.fillRange addr.toNat (addr.toNat + len.toNat) value := by
    rw [fill]
    rcases m.check addr.toNat len.toNat with err | _ <;> rfl
  exact exact_change hfill (overwritten_fillRange value)

/-- The source is checked before the destination. -/
theorem exact_copyWithin :
    Exact m.size [(src, len.toNat), (dst, len.toNat)] id m (change (·.copyWithin src dst len) m)
      fun _ m' => m.Overwritten m' dst.toNat ((List.range' src.toNat len.toNat).map m.byte) := by
  refine .of_ranges (fun hinside => ?_) fun r hr => ?_
  · have hsrc : m.InBounds src.toNat len.toNat := hinside (src, len.toNat) (by simp)
    have hdst : m.InBounds dst.toNat len.toNat := hinside (dst, len.toNat) (by simp)
    rw [← m.slice_eq_map _ _ (Nat.le_trans hsrc m.size_le)]
    exact ⟨(), _, change_of_ok (copyWithin_of_inBounds hsrc hdst), overwritten_copyRange hsrc hdst⟩
  · rw [change, copyWithin]
    obtain ⟨houtside, rfl⟩ | ⟨hsrc, hr⟩ := Exact.find?_cons_cases hr
    · rw [check_of_not_inBounds (Nat.not_le_of_lt houtside)]
      rfl
    · obtain ⟨houtside, rfl⟩ | ⟨-, hr⟩ := Exact.find?_cons_cases hr
      case inr => cases hr
      rw [check_of_inBounds hsrc, check_of_not_inBounds (Nat.not_le_of_lt houtside)]
      rfl

/-- Every access to a memory is exact: which ranges it needs, and what it does when they are
    inside. -/
structure AccessesExact (m : LinearMemory) : Prop where
  read (addr len : UInt32) :
    Exact m.size [(addr, len.toNat)] id m (look (·.read addr len) m) fun bytes m' =>
      bytes = (List.range' addr.toNat len.toNat).map m.byte ∧ m' = m
  readByte (addr : UInt32) :
    Exact m.size [(addr, 1)] id m (look (·.readByte addr) m) fun b m' =>
      b = m.byte addr.toNat ∧ m' = m
  write (addr : UInt32) (data : List UInt8) (h : data.length < UInt32.size) :
    Exact m.size [(addr, data.length)] id m (change (·.write addr data) m) fun _ m' =>
      m.Overwritten m' addr.toNat data
  writeByte (addr : UInt32) (value : UInt8) :
    Exact m.size [(addr, 1)] id m (change (·.writeByte addr value) m) fun _ m' =>
      m.Overwritten m' addr.toNat [value]
  fill (addr : UInt32) (value : UInt8) (len : UInt32) :
    Exact m.size [(addr, len.toNat)] id m (change (·.fill addr value len) m) fun _ m' =>
      m.Overwritten m' addr.toNat (List.replicate len.toNat value)
  zero (addr len : UInt32) :
    Exact m.size [(addr, len.toNat)] id m (change (·.zero addr len) m) fun _ m' =>
      m.Overwritten m' addr.toNat (List.replicate len.toNat 0)
  copyWithin (src dst len : UInt32) :
    Exact m.size [(src, len.toNat), (dst, len.toNat)] id m (change (·.copyWithin src dst len) m)
      fun _ m' => m.Overwritten m' dst.toNat ((List.range' src.toNat len.toNat).map m.byte)

theorem accessesExact (m : LinearMemory) : m.AccessesExact where
  read addr len := by
    refine exact_look (a := m.slice addr.toNat len.toNat) ?_ fun hbounds => ?_
    · rw [LinearMemory.read]
      rcases m.check addr.toNat len.toNat with err | _ <;> rfl
    · exact m.slice_eq_map _ _ (Nat.le_trans hbounds m.size_le)
  readByte addr := by
    refine exact_look ?_ fun _ => rfl
    rw [LinearMemory.readByte]
    rcases m.check addr.toNat 1 with err | _ <;> rfl
  write _ _ h := exact_write h
  writeByte _ value := exact_write (show [value].length < UInt32.size by
    rw [List.length_singleton]
    decide)
  fill _ value _ := exact_fill value
  zero _ _ := exact_fill 0
  copyWithin _ _ _ := exact_copyWithin

end LinearMemory

/-! ## Functions of the library -/

namespace Libc

variable {m : Machine Function} {addr : Nat} {contents : LinearMemory} {args : List Value}

/-- A change of memory that gives back an address is as exact as a call. -/
theorem exact_stub [Budget] (hactive : m.activeMemory = .ok (addr, contents)) {e : MemoryEdit}
    (caller : Caller Function) {x : MemoryAction Unit} {result : UInt32} {start : Nat}
    {data : List UInt8} {ranges : List (UInt32 × Nat)}
    (hperform : e.perform (Args.word args) = do WordFault.lift x; return result)
    (h : Exact contents.size ranges id contents (x contents) fun _ after =>
      contents.Overwritten after start data) :
    Exact contents.size ranges .ofMemoryError m (engine.stubs (.word (.edit e)) caller args m)
      fun reply m' => reply = .i32 result ∧ m.Overwritten m' start data := by
  have hreturn := Atomic.andReturn result (Atomic.lift h)
  rw [← hperform] at hreturn
  refine (atomic_stub hactive hreturn).mono ?_ ?_
  · rintro reply m' ⟨dst, after, rfl, rfl, rfl, -, hput⟩
    exact ⟨rfl, m.overwritten_withContents hactive hput⟩
  · rintro failure ⟨err, rfl, r, hr, rfl⟩
    exact ⟨r, hr, rfl⟩

/-- **Accesses are exact.** Every access to a memory of at most 2³² bytes succeeds just if all its
    ranges are inside; then the bytes of the range are those that are stated, and no other byte has
    changed. Otherwise it fails with the first range that is not inside, and nothing has changed.
    The same holds of the functions that copy and fill ranges of the active memory. -/
theorem accesses_exact [Budget] :
    (∀ m : LinearMemory, m.AccessesExact)
      ∧ (∀ (m : Machine Function) (addr : Nat) (contents : LinearMemory)
          (caller : Caller Function) (args : List Value),
          m.activeMemory = .ok (addr, contents) →
          let dst := Args.word args 0
          let src := Args.word args 1
          let n := Args.word args 2
          let copied := (List.range' src.toNat n.toNat).map contents.byte
          Exact contents.size [(src, n.toNat), (dst, n.toNat)] .ofMemoryError m
              (engine.stubs (.word (.edit .memcpy)) caller args m)
              (fun reply m' => reply = .i32 dst ∧ m.Overwritten m' dst.toNat copied)
            ∧ Exact contents.size [(src, n.toNat), (dst, n.toNat)] .ofMemoryError m
              (engine.stubs (.word (.edit .mempcpy)) caller args m)
              (fun reply m' => reply = .i32 (dst + n) ∧ m.Overwritten m' dst.toNat copied)
            ∧ Exact contents.size [(dst, n.toNat)] .ofMemoryError m
              (engine.stubs (.word (.edit .memset)) caller args m)
              (fun reply m' => reply = .i32 dst
                ∧ m.Overwritten m' dst.toNat (List.replicate n.toNat src.toUInt8)))
      ∧ ∀ entry ∈ [("memcpy", MemoryEdit.memcpy), ("memmove", .memcpy), ("mempcpy", .mempcpy),
          ("memset", .memset)],
          Tables.string.get? entry.1 = some (.implemented (.word (.edit entry.2))) := by
  refine ⟨LinearMemory.accessesExact, fun m addr contents caller args hactive => ?_, ?_⟩
  · exact ⟨exact_stub hactive caller rfl LinearMemory.exact_copyWithin,
      exact_stub hactive caller rfl LinearMemory.exact_copyWithin,
      exact_stub hactive caller rfl (LinearMemory.exact_fill _)⟩
  · intro entry hentry
    simp only [List.mem_cons, List.not_mem_nil, or_false] at hentry
    rcases hentry with rfl | rfl | rfl | rfl <;> rfl

/-- At the end of a memory of 65536 bytes: two bytes are copied to the next address, over one of
    themselves, and cannot be copied one byte further. No bytes may be set at the end, but not one
    byte after it. -/
theorem accesses_exact_at_end :
    let contents := (LinearMemory.zeros 65536).fillRange 65533 65535 97
    let m := holding contents
    let call (e : MemoryEdit) (args : List Value) :=
      engine.stubs (.word (.edit e)) plainCaller args m
    (∃ m', call .memcpy [.i32 65534, .i32 65533, .i32 2] = (.ok (.i32 65534), m')
        ∧ m.Overwritten m' 65534 [97, 97])
      ∧ call .memcpy [.i32 65535, .i32 65533, .i32 2]
        = (.error (.ofMemoryError (.outOfBounds 65535 2 65536)), m)
      ∧ (∃ m', call .memset [.i32 65536, .i32 7, .i32 0] = (.ok (.i32 65536), m')
        ∧ m.Overwritten m' 65536 [])
      ∧ call .memset [.i32 65537, .i32 7, .i32 0]
        = (.error (.ofMemoryError (.outOfBounds 65537 0 65536)), m)
      ∧ (∃ after, MemoryAction.change (·.write 65534 [1, 2]) contents = (.ok (), after)
        ∧ contents.Overwritten after 65534 [1, 2])
      ∧ Tables.string.get? "memmove" = some (.implemented (.word (.edit .memcpy))) := by
  intro contents m call
  obtain ⟨hmemory, hcalls, htable⟩ := accesses_exact
  have hexact (args : List Value) :=
    hcalls m 0 contents plainCaller args (activeMemory_holding contents)
  refine ⟨?_, ?_, ?_, ?_, ?_, ?_⟩
  · obtain ⟨reply, m', hrun, rfl, hput⟩ :=
      (hexact [.i32 65534, .i32 65533, .i32 2]).1.eq_ok (by decide +kernel)
    have hcopied : (List.range' 65533 2).map contents.byte = [97, 97] := by decide +kernel
    exact ⟨m', hrun, hcopied ▸ hput⟩
  · obtain ⟨failure, hrun, r, hr, rfl⟩ :=
      (hexact [.i32 65535, .i32 65533, .i32 2]).1.eq_error (by decide +kernel)
    obtain rfl : r = (65535, 2) := Option.some.inj (hr.symm.trans (by decide +kernel))
    exact hrun
  · obtain ⟨reply, m', hrun, rfl, hput⟩ :=
      (hexact [.i32 65536, .i32 7, .i32 0]).2.2.eq_ok (by decide +kernel)
    exact ⟨m', hrun, hput⟩
  · obtain ⟨failure, hrun, r, hr, rfl⟩ :=
      (hexact [.i32 65537, .i32 7, .i32 0]).2.2.eq_error (by decide +kernel)
    obtain rfl : r = (65537, 0) := Option.some.inj (hr.symm.trans (by decide +kernel))
    exact hrun
  · obtain ⟨_, after, hrun, hput⟩ :=
      ((hmemory contents).write 65534 [1, 2] (by decide)).eq_ok (by decide +kernel)
    exact ⟨after, hrun, hput⟩
  · exact htable ("memmove", .memcpy) (by simp)

end Libc

end WasmHost
