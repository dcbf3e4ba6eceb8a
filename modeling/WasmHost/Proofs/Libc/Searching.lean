import Mathlib.Order.Bounds.Basic
import WasmHost.Proofs.Libc.MemoryCalls

set_option autoImplicit false

/-! # Searching bytes and strings

What `memchr`, `strlen`, `strchr` and `strrchr` find, in terms of the set of all addresses that have
the byte (`LinearMemory.occurrences`): the least one or the greatest one, if there is one. For a
string the zero byte at its end counts too. The main result is `Libc.searches_find`. -/

namespace WasmHost

namespace LinearMemory

variable {m : LinearMemory} {c : UInt8} {start stop z : Nat}

/-- The addresses from `start` up to `stop` whose byte is `c`. -/
def occurrences (m : LinearMemory) (c : UInt8) (start stop : Nat) : Set Nat :=
  {a | start ≤ a ∧ a < stop ∧ m.byte a = c}

theorem isLeast_of_findByte? (hstop : stop ≤ UInt32.size) (h : m.findByte? c start stop = some z) :
    IsLeast (m.occurrences c start stop) z := by
  obtain ⟨hle, hlt, hbyte, hmin⟩ := (m.findByte?_eq_some_iff c start stop z hstop).1 h
  refine ⟨⟨hle, hlt, hbyte⟩, fun a ⟨ha, _, hc⟩ => ?_⟩
  exact Nat.le_of_not_lt fun haz => hmin a ha haz hc

theorem isGreatest_of_findLastByte? (hstop : stop ≤ UInt32.size)
    (h : m.findLastByte? c start stop = some z) : IsGreatest (m.occurrences c start stop) z := by
  obtain ⟨hle, hlt, hbyte, hmax⟩ := (m.findLastByte?_eq_some_iff c start stop z hstop).1 h
  refine ⟨⟨hle, hlt, hbyte⟩, fun a ⟨_, ha, hc⟩ => ?_⟩
  exact Nat.le_of_not_lt fun hza => hmax a hza ha hc

theorem occurrences_of_findByte?_eq_none (hstop : stop ≤ UInt32.size)
    (h : m.findByte? c start stop = none) : m.occurrences c start stop = ∅ := by
  rw [findByte?, Cells.find?_eq, within_addresses hstop, List.find?_eq_none] at h
  refine Set.eq_empty_of_forall_notMem fun a ⟨hle, hlt, hbyte⟩ => ?_
  exact h a (List.mem_range'_1.2 ⟨hle, by omega⟩) (beq_iff_eq.2 hbyte)

theorem occurrences_of_findLastByte?_eq_none (hstop : stop ≤ UInt32.size)
    (h : m.findLastByte? c start stop = none) : m.occurrences c start stop = ∅ := by
  rw [findLastByte?, Cells.findLast?_eq, within_addresses hstop, List.find?_eq_none] at h
  refine Set.eq_empty_of_forall_notMem fun a ⟨hle, hlt, hbyte⟩ => ?_
  exact h a (List.mem_reverse.2 (List.mem_range'_1.2 ⟨hle, by omega⟩)) (beq_iff_eq.2 hbyte)

/-- The zero byte that ends a string is the first one. -/
theorem StringOf.isLeast {len : Nat} (h : m.StringOf start len) :
    IsLeast (m.occurrences 0 start m.size) (start + len) := by
  refine ⟨⟨Nat.le_add_right _ _, h.inside, h.terminator⟩, fun a ⟨hle, _, hzero⟩ => ?_⟩
  refine Nat.le_of_not_lt fun hlt => ?_
  have hbyte := h.nonzero (a - start) (by omega)
  rw [Nat.add_sub_cancel' hle] at hbyte
  exact hbyte hzero

/-- It is the only one of the string. -/
theorem StringOf.occurrences_zero {len : Nat} (h : m.StringOf start len) :
    m.occurrences 0 start (start + len + 1) = {start + len} := by
  have hinside := h.inside
  refine Set.eq_singleton_iff_unique_mem.2
    ⟨⟨Nat.le_add_right _ _, Nat.lt_succ_self _, h.terminator⟩, fun a ⟨hle, hlt, hzero⟩ => ?_⟩
  exact Nat.le_antisymm (Nat.le_of_lt_succ hlt) (h.isLeast.2 ⟨hle, by omega, hzero⟩)

end LinearMemory

namespace Libc

/-! ## Reports -/

/-- The word reports an address among the `places`, the one that `best` says; zero reports that
    there are none. -/
def Reports (best : Set Nat → Nat → Prop) (places : Set Nat) (r : UInt32) : Prop :=
  places = ∅ ∧ r = 0 ∨ best places r.toNat

variable {m : LinearMemory} {c : UInt8} {start stop : Nat} {places : Set Nat} {r r' : UInt32}

theorem toNat_addressWord {z : Nat} (h : z < UInt32.size) : (addressWord (some z)).toNat = z :=
  UInt32.toNat_ofNat_of_lt' h

theorem reports_findByte? (hstop : stop ≤ UInt32.size) :
    Reports IsLeast (m.occurrences c start stop) (addressWord (m.findByte? c start stop)) := by
  rcases hfind : m.findByte? c start stop with _ | z
  · exact .inl ⟨LinearMemory.occurrences_of_findByte?_eq_none hstop hfind, rfl⟩
  · have hleast := LinearMemory.isLeast_of_findByte? hstop hfind
    refine .inr ?_
    rwa [toNat_addressWord (Nat.lt_of_lt_of_le hleast.1.2.1 hstop)]

theorem reports_findLastByte? (hstop : stop ≤ UInt32.size) :
    Reports IsGreatest (m.occurrences c start stop)
      (addressWord (m.findLastByte? c start stop)) := by
  rcases hfind : m.findLastByte? c start stop with _ | z
  · exact .inl ⟨LinearMemory.occurrences_of_findLastByte?_eq_none hstop hfind, rfl⟩
  · have hgreatest := LinearMemory.isGreatest_of_findLastByte? hstop hfind
    refine .inr ?_
    rwa [toNat_addressWord (Nat.lt_of_lt_of_le hgreatest.1.2.1 hstop)]

/-- Zero tells that there are no places, if it is none of them. -/
theorem Reports.eq_zero_iff {best : Set Nat → Nat → Prop} (h : Reports best places r)
    (hmem : ∀ {a}, best places a → a ∈ places) (hpos : ∀ a ∈ places, 0 < a) :
    r = 0 ↔ places = ∅ := by
  rcases h with ⟨hempty, hzero⟩ | hbest
  · exact ⟨fun _ => hempty, fun _ => hzero⟩
  · have hplace := hmem hbest
    refine ⟨fun hzero => ?_, fun hempty => absurd (hempty ▸ hplace) (Set.notMem_empty _)⟩
    have hlt := hpos _ hplace
    rw [hzero] at hlt
    exact absurd hlt (Nat.lt_irrefl _)

/-- The least place is at most the greatest one. -/
theorem Reports.le (h : Reports IsLeast places r) (h' : Reports IsGreatest places r') : r ≤ r' := by
  rcases h with ⟨-, rfl⟩ | hleast
  · exact UInt32.zero_le
  rcases h' with ⟨hempty, -⟩ | hgreatest
  · exact absurd (hempty ▸ hleast.1) (Set.notMem_empty _)
  · exact UInt32.le_iff_toNat_le.2 (hleast.2 hgreatest.1)

/-- Some place is reported if there is one. -/
theorem Reports.toNat_eq {best : Set Nat → Nat → Prop} {a : Nat} (h : Reports best places r)
    (hplaces : places.Nonempty) (hbest : best places r.toNat → r.toNat = a) : r.toNat = a := by
  rcases h with ⟨hempty, -⟩ | hreported
  · exact absurd hempty hplaces.ne_empty
  · exact hbest hreported

/-- Of the zero bytes of a string, the one at its end is reported. -/
theorem Reports.eq_end {best : Set Nat → Nat → Prop} {p : UInt32} {len : Nat}
    (h : Reports best (m.occurrences c p.toNat (p.toNat + len + 1)) r)
    (hmem : ∀ {places a}, best places a → a ∈ places) (hs : m.StringOf p.toNat len) (hc : c = 0) :
    r = p + len.toUInt32 := by
  have hplaces : m.occurrences c p.toNat (p.toNat + len + 1) = {(p + len.toUInt32).toNat} := by
    rw [hc, hs.occurrences_zero, hs.toNat_end]
  rw [hplaces] at h
  exact UInt32.toNat_inj.1 (h.toNat_eq (Set.singleton_nonempty _) hmem)

/-! ## Answers -/

section

variable {words : Nat → UInt32} {len : Nat}

theorem strlen_answer (hs : m.StringOf (words 0).toNat len) :
    MemoryQuery.strlen.answer words m = .ok len.toUInt32 := by
  rw [MemoryQuery.answer, LinearMemory.stringLength_eq_ok_iff.2 hs]
  rfl

theorem strchr_answer (hs : m.StringOf (words 0).toNat len) :
    MemoryQuery.strchr.answer words m
      = .ok (addressWord (m.findByte? (words 1).toUInt8 (words 0).toNat
          ((words 0).toNat + len + 1))) := by
  rw [MemoryQuery.answer, LinearMemory.stringLength_eq_ok_iff.2 hs]
  rfl

theorem strrchr_answer (hs : m.StringOf (words 0).toNat len) :
    MemoryQuery.strrchr.answer words m
      = .ok (addressWord (m.findLastByte? (words 1).toUInt8 (words 0).toNat
          ((words 0).toNat + len + 1))) := by
  rw [MemoryQuery.answer, LinearMemory.stringLength_eq_ok_iff.2 hs]
  rfl

theorem memchr_answer (hbounds : m.InBounds (words 0).toNat (words 2).toNat) :
    MemoryQuery.memchr.answer words m
      = .ok (addressWord (m.findByte? (words 1).toUInt8 (words 0).toNat
          ((words 0).toNat + (words 2).toNat))) := by
  rw [MemoryQuery.answer, LinearMemory.check_of_inBounds hbounds]
  rfl

/-- Searching the range of a string and its zero byte is searching the string. -/
theorem memchr_answer_of_string {words' : Nat → UInt32} (hs : m.StringOf (words 0).toNat len)
    (hptr : words' 0 = words 0) (hbyte : words' 1 = words 1)
    (hcount : (words' 2).toNat = len + 1) :
    MemoryQuery.memchr.answer words' m = MemoryQuery.strchr.answer words m := by
  have hbounds : m.InBounds (words' 0).toNat (words' 2).toNat := by
    rw [hptr, hcount]
    exact hs.inside
  rw [memchr_answer hbounds, strchr_answer hs, hptr, hbyte, hcount, Nat.add_assoc]

theorem memchr_answer_eq_error (hbounds : ¬ m.InBounds (words 0).toNat (words 2).toNat) :
    MemoryQuery.memchr.answer words m
      = .error (.outOfBounds (words 0).toNat (words 2).toNat m.size) := by
  rw [MemoryQuery.answer, LinearMemory.check_of_not_inBounds hbounds]
  rfl

theorem answer_eq_error {q : MemoryQuery}
    (hq : q ∈ [MemoryQuery.strlen, .strchr, .strrchr]) (h : ¬ m.Terminated (words 0)) :
    ∃ err, q.answer words m = .error err ∧ err.Outside m.size := by
  obtain ⟨err, hlength, houtside⟩ := LinearMemory.stringLength_eq_error h
  refine ⟨err, ?_, houtside⟩
  simp only [List.mem_cons, List.not_mem_nil, or_false] at hq
  rcases hq with rfl | rfl | rfl <;>
  · rw [MemoryQuery.answer, hlength]
    rfl

end

/-! ## Calls -/

/-- **Searches find the right occurrence.** At an address other than zero, in a memory of less than
    2³² bytes: `strlen` gives the distance to the first zero byte, `strchr` and `strrchr` the first
    and the last place of the string that has the byte, and `memchr` the first one of the range.
    Zero tells that there is none. They fail if no zero byte ends the string, or if the range is not
    inside. None of them changes anything. -/
theorem searches_find [Budget] {m : Machine Function} {addr : Nat} {contents : LinearMemory}
    (hactive : m.activeMemory = .ok (addr, contents)) (hsize : contents.size < UInt32.size)
    (caller : Caller Function) (args : List Value) (hp : Args.word args 0 ≠ 0) :
    let p := Args.word args 0
    let c := (Args.word args 1).toUInt8
    let n := Args.word args 2
    let call (q : MemoryQuery) := engine.stubs (.word (.query q)) caller args m
    (∀ q, (call q).2 = m)
      ∧ (contents.Terminated p → ∃ len first last : UInt32,
          let places := contents.occurrences c p.toNat (p.toNat + len.toNat + 1)
          call .strlen = (.ok (.i32 len), m) ∧ call .strchr = (.ok (.i32 first), m)
            ∧ call .strrchr = (.ok (.i32 last), m)
            ∧ IsLeast (contents.occurrences 0 p.toNat contents.size) (p.toNat + len.toNat)
            ∧ Reports IsLeast places first ∧ Reports IsGreatest places last
            ∧ (c = 0 → first = p + len ∧ last = p + len)
            ∧ (first = 0 ↔ places = ∅) ∧ (last = 0 ↔ places = ∅) ∧ first ≤ last
            ∧ engine.stubs (.word (.query .memchr)) caller
                [.i32 p, .i32 (Args.word args 1), .i32 (len + 1)] m = call .strchr)
      ∧ (contents.InBounds p.toNat n.toNat → ∃ found : UInt32,
          let places := contents.occurrences c p.toNat (p.toNat + n.toNat)
          call .memchr = (.ok (.i32 found), m) ∧ Reports IsLeast places found
            ∧ (found = 0 ↔ places = ∅))
      ∧ (¬ contents.Terminated p → ∀ q ∈ [MemoryQuery.strlen, .strchr, .strrchr],
          ∃ failure, call q = (.error failure, m) ∧ FailedOutside contents.size failure)
      ∧ (¬ contents.InBounds p.toNat n.toNat →
          call .memchr
            = (.error (.ofMemoryError (.outOfBounds p.toNat n.toNat contents.size)), m)) := by
  intro p c n call
  -- addresses from `p` on are not zero, so zero reports that there are no places
  have hpos : 0 < p.toNat := Nat.pos_of_ne_zero fun h => hp (UInt32.toNat_inj.1 h)
  have hzero {best : Set Nat → Nat → Prop} {stop : Nat} {r : UInt32}
      (h : Reports best (contents.occurrences c p.toNat stop) r)
      (hmem : ∀ {places a}, best places a → a ∈ places) :
      r = 0 ↔ contents.occurrences c p.toNat stop = ∅ :=
    h.eq_zero_iff hmem fun a ha => Nat.lt_of_lt_of_le hpos ha.1
  refine ⟨fun q => congrArg Prod.snd (stubs_query hactive q caller args), fun hterminated => ?_,
    fun hbounds => ?_, fun hnot q hq => ?_,
    fun hnot => query_eq_error hactive (memchr_answer_eq_error hnot)⟩
  · obtain ⟨len, hs⟩ := LinearMemory.terminated_iff.1 hterminated
    have hinside := hs.inside
    have hstop : p.toNat + len + 1 ≤ UInt32.size := by omega
    have hlen : len.toUInt32.toNat = len := hs.toNat
    have hfirst : Reports IsLeast (contents.occurrences c p.toNat (p.toNat + len + 1)) _ :=
      reports_findByte? hstop
    have hlast : Reports IsGreatest (contents.occurrences c p.toNat (p.toNat + len + 1)) _ :=
      reports_findLastByte? hstop
    refine ⟨len.toUInt32, _, _, query_eq_ok hactive (strlen_answer hs),
      query_eq_ok hactive (strchr_answer hs), query_eq_ok hactive (strrchr_answer hs), ?_⟩
    rw [hlen]
    refine ⟨hs.isLeast, hfirst, hlast,
      fun hc => ⟨hfirst.eq_end (fun h => h.1) hs hc, hlast.eq_end (fun h => h.1) hs hc⟩,
      hzero hfirst fun h => h.1, hzero hlast fun h => h.1, hfirst.le hlast, ?_⟩
    have hmemchr : MemoryQuery.memchr.answer
        (Args.word [.i32 p, .i32 (Args.word args 1), .i32 (len.toUInt32 + 1)]) contents = _ :=
      memchr_answer_of_string hs rfl rfl (hs.toNat_size hsize)
    rw [strchr_answer hs] at hmemchr
    exact (query_eq_ok hactive hmemchr).trans (query_eq_ok hactive (strchr_answer hs)).symm
  · have hstop : p.toNat + n.toNat ≤ UInt32.size := Nat.le_trans hbounds contents.size_le
    have hfound : Reports IsLeast (contents.occurrences c p.toNat (p.toNat + n.toNat)) _ :=
      reports_findByte? hstop
    exact ⟨_, query_eq_ok hactive (memchr_answer hbounds), hfound, hzero hfound fun h => h.1⟩
  · obtain ⟨err, herr, houtside⟩ := answer_eq_error hq hnot
    exact ⟨_, query_eq_error hactive herr, err, rfl, houtside⟩

/-- In the string `aba` the byte 97 is found at both ends, also when it is asked for as 353, and
    among the first byte alone it is found there. -/
theorem searches_find_aba :
    let contents := ((LinearMemory.zeros 65536).fillRange 100 103 97).fillRange 101 102 98
    let m := holding contents
    let call (q : MemoryQuery) :=
      engine.stubs (.word (.query q)) plainCaller [.i32 100, .i32 353, .i32 1] m
    call .strlen = (.ok (.i32 3), m) ∧ call .strchr = (.ok (.i32 100), m)
      ∧ call .strrchr = (.ok (.i32 102), m) ∧ call .memchr = (.ok (.i32 100), m) := by
  intro contents m call
  have hs : contents.StringAt 100 [97, 98, 97] := by decide +kernel
  obtain ⟨-, hstring, hrange, -, -⟩ := searches_find (activeMemory_holding contents)
    (by decide +kernel) plainCaller [.i32 100, .i32 353, .i32 1] (by decide)
  obtain ⟨len, first, last, hlen, hfirst, hlast, hend, hleast, hgreatest, -⟩ :=
    hstring (LinearMemory.terminated_iff_stringAt.2 ⟨_, hs⟩)
  obtain ⟨found, hfound, hleast', -⟩ := hrange (by decide +kernel)
  have hthree : 100 + len.toNat = 100 + 3 := hend.unique hs.stringOf.isLeast
  obtain rfl : len = 3 := UInt32.toNat_inj.1 (Nat.add_left_cancel hthree)
  have hplace (stop : Nat) (hstop : 100 < stop) : IsLeast (contents.occurrences 97 100 stop) 100 :=
    ⟨⟨Nat.le_refl _, hstop, by decide +kernel⟩, fun _ ha => ha.1⟩
  have hplace' : IsGreatest (contents.occurrences 97 100 104) 102 := by
    refine ⟨⟨by decide, by decide, by decide +kernel⟩, fun a ⟨_, hlt, hbyte⟩ => ?_⟩
    refine Nat.le_of_lt_succ (Nat.lt_of_le_of_ne (Nat.le_of_lt_succ hlt) ?_)
    rintro rfl
    exact absurd hbyte (by decide +kernel)
  obtain rfl : first = 100 := UInt32.toNat_inj.1
    (hleast.toNat_eq ⟨_, hplace'.1⟩ fun h => h.unique (hplace 104 (by decide)))
  obtain rfl : last = 102 := UInt32.toNat_inj.1
    (hgreatest.toNat_eq ⟨_, hplace'.1⟩ fun h => h.unique hplace')
  obtain rfl : found = 100 := UInt32.toNat_inj.1
    (hleast'.toNat_eq ⟨_, (hplace 101 (by decide)).1⟩ fun h => h.unique (hplace 101 (by decide)))
  exact ⟨hlen, hfirst, hlast, hfound⟩

end Libc

end WasmHost
