import WasmHost.Proofs.Libc.Searching

set_option autoImplicit false

/-! # Comparing bytes and strings

`memcmp`, `strcmp` and `strncmp` define one order. It is the lexicographic order of `List UInt8`,
in which bytes have no sign and a proper prefix is smaller.

Two views of a comparison of strings agree. One compares the two lists of bytes (`compareBytes`).
The other walks over the pairs of bytes, zero bytes included, and stops after a zero byte that both
strings have (`comparePairs`). The walk is the one that shows how far a comparison looks: no further
than the zero byte of the shorter string. The main result is `Libc.comparisons_order`. -/

namespace WasmHost

namespace Libc

variable {s t u : List UInt8} {n : Nat} {w w' w'' : UInt32}

/-! ## The order of byte sequences -/

theorem compareBytes_eq_lt_iff : compareBytes s t = .lt ↔ s < t := by
  fun_induction compareBytes s t with
  | case1 => exact iff_of_false nofun (List.not_lt_nil [])
  | case2 y t => exact iff_of_true rfl (List.nil_lt_cons y t)
  | case3 x s => exact iff_of_false nofun (List.not_lt_nil (x :: s))
  | case4 x s y t hlt => exact iff_of_true rfl (List.cons_lt_cons_iff.2 (.inl hlt))
  | case5 x s y t hlt hgt =>
      refine iff_of_false nofun fun hless => ?_
      rcases List.cons_lt_cons_iff.1 hless with hlt' | ⟨rfl, -⟩
      · exact hlt hlt'
      · exact UInt8.lt_irrefl x hgt
  | case6 x s y t hlt hgt ih =>
      obtain rfl : x = y := UInt8.le_antisymm (UInt8.not_lt.1 hgt) (UInt8.not_lt.1 hlt)
      rw [ih, List.cons_lt_cons_iff]
      exact ⟨fun h => .inr ⟨rfl, h⟩, fun h => (h.resolve_left hlt).2⟩

theorem compareBytes_swap (s t : List UInt8) : (compareBytes s t).swap = compareBytes t s := by
  fun_induction compareBytes s t with
  | case1 | case2 | case3 => rfl
  | case4 x s y t hlt => rw [compareBytes, if_neg (UInt8.lt_asymm hlt), if_pos hlt, Ordering.swap]
  | case5 x s y t hlt hgt => rw [compareBytes, if_pos hgt, Ordering.swap]
  | case6 x s y t hlt hgt ih => rw [ih, compareBytes, if_neg hgt, if_neg hlt]

theorem compareBytes_eq_gt_iff : compareBytes s t = .gt ↔ t < s := by
  rw [← compareBytes_eq_lt_iff, ← compareBytes_swap s t, Ordering.swap_eq_lt]

theorem compareBytes_eq_eq_iff : compareBytes s t = .eq ↔ s = t := by
  rcases horder : compareBytes s t
  · have hlt := compareBytes_eq_lt_iff.1 horder
    exact iff_of_false nofun fun heq => List.lt_irrefl t (heq ▸ hlt)
  · refine iff_of_true rfl (List.le_antisymm (fun hgt => ?_) fun hlt => ?_)
    · rw [compareBytes_eq_gt_iff.2 hgt] at horder
      cases horder
    · rw [compareBytes_eq_lt_iff.2 hlt] at horder
      cases horder
  · have hgt := compareBytes_eq_gt_iff.1 horder
    exact iff_of_false nofun fun heq => List.lt_irrefl t (heq ▸ hgt)

theorem orderWord_injective {o o' : Ordering} (h : orderWord o = orderWord o') : o = o' := by
  cases o <;> cases o' <;> first | rfl | exact absurd h (by decide)

theorem orderWord_swap (o : Ordering) : orderWord o.swap = -orderWord o := by
  cases o <;> decide

/-- The word tells the order of the two byte sequences: −1, 0 or 1. -/
structure Ranks (s t : List UInt8) (w : UInt32) : Prop where
  less : w = 0xffffffff ↔ s < t
  equal : w = 0 ↔ s = t
  greater : w = 1 ↔ t < s

theorem ranks_orderWord (s t : List UInt8) : Ranks s t (orderWord (compareBytes s t)) := by
  have hword (o : Ordering) : orderWord (compareBytes s t) = orderWord o ↔ compareBytes s t = o :=
    ⟨orderWord_injective, congrArg orderWord⟩
  exact
    { less := (hword .lt).trans compareBytes_eq_lt_iff
      equal := (hword .eq).trans compareBytes_eq_eq_iff
      greater := (hword .gt).trans compareBytes_eq_gt_iff }

/-- The order is transitive. -/
theorem Ranks.trans (h : Ranks s t w) (h' : Ranks t u w') (h'' : Ranks s u w'') (hle : w ≠ 1)
    (hle' : w' ≠ 1) : w'' ≠ 1 := by
  have hst : s ≤ t := fun hgt => hle (h.greater.2 hgt)
  have htu : t ≤ u := fun hgt => hle' (h'.greater.2 hgt)
  exact fun hgt => List.le_trans hst htu (h''.greater.1 hgt)

/-! ## Strings -/

/-- Walk over pairs of bytes. The first pair that differs decides, and nothing counts after a zero
byte. -/
def comparePairs : List (UInt8 × UInt8) → Ordering
  | [] => .eq
  | (x, y) :: rest =>
      if x < y then .lt else if y < x then .gt else if x = 0 then .eq else comparePairs rest

theorem pos_of_notMem_cons {x : UInt8} (h : 0 ∉ x :: s) : 0 < x :=
  UInt8.pos_iff_ne_zero.2 (List.ne_of_not_mem_cons h).symm

/-- Without zero bytes in them, the zero bytes at the ends do not matter for the order. -/
theorem compareBytes_take_terminated (n : Nat) (hs : 0 ∉ s) (ht : 0 ∉ t) :
    compareBytes ((s ++ [0]).take n) ((t ++ [0]).take n) = compareBytes (s.take n) (t.take n) := by
  induction n generalizing s t with
  | zero => rfl
  | succ n ih =>
      cases s with
      | nil =>
          cases t with
          | nil =>
              rw [List.nil_append, List.take_succ_cons, List.take_nil, List.take_nil]
              rfl
          | cons y t => exact if_pos (pos_of_notMem_cons ht)
      | cons x s =>
          cases t with
          | nil =>
              have hx := pos_of_notMem_cons hs
              exact (if_neg (UInt8.lt_asymm hx)).trans (if_pos hx)
          | cons y t =>
              simp only [List.cons_append, List.take_succ_cons, compareBytes]
              rw [ih (List.not_mem_of_not_mem_cons hs) (List.not_mem_of_not_mem_cons ht)]

/-- **The walk** over the first `n` pairs of two strings compares their first `n` bytes. -/
theorem comparePairs_zip (n : Nat) (hs : 0 ∉ s) (ht : 0 ∉ t) :
    comparePairs (((s ++ [0]).zip (t ++ [0])).take n) = compareBytes (s.take n) (t.take n) := by
  induction n generalizing s t with
  | zero => rfl
  | succ n ih =>
      cases s with
      | nil =>
          cases t with
          | nil => rfl
          | cons y t => exact if_pos (pos_of_notMem_cons ht)
      | cons x s =>
          have hx := pos_of_notMem_cons hs
          cases t with
          | nil => exact (if_neg (UInt8.lt_asymm hx)).trans (if_pos hx)
          | cons y t =>
              -- equal bytes are not zero, so the walk goes on
              simp only [List.cons_append, List.zip_cons_cons, List.take_succ_cons, comparePairs,
                compareBytes]
              rw [if_neg (UInt8.pos_iff_ne_zero.1 hx),
                ih (List.not_mem_of_not_mem_cons hs) (List.not_mem_of_not_mem_cons ht)]

/-- There are no pairs after the zero byte of the shorter string. -/
theorem compareBytes_take (hs : 0 ∉ s) (ht : 0 ∉ t) (hn : min s.length t.length < n) :
    compareBytes (s.take n) (t.take n) = compareBytes s t := by
  have hpairs : ((s ++ [0]).zip (t ++ [0])).length = min s.length t.length + 1 := by
    rw [List.length_zip, List.length_append, List.length_append, List.length_singleton,
      Nat.add_min_add_right]
  have hwhole {k : Nat} (hk : min s.length t.length < k) :
      compareBytes (s.take k) (t.take k) = comparePairs ((s ++ [0]).zip (t ++ [0])) := by
    rw [← comparePairs_zip k hs ht, List.take_of_length_le (by omega)]
  have hmax : min s.length t.length < max s.length t.length + 1 := by omega
  calc compareBytes (s.take n) (t.take n)
      = comparePairs ((s ++ [0]).zip (t ++ [0])) := hwhole hn
    _ = compareBytes (s.take (max s.length t.length + 1))
          (t.take (max s.length t.length + 1)) := (hwhole hmax).symm
    _ = compareBytes s t := by
        rw [List.take_of_length_le (by omega), List.take_of_length_le (by omega)]

theorem compareBytes_terminated (hs : 0 ∉ s) (ht : 0 ∉ t) :
    compareBytes (s ++ [0]) (t ++ [0]) = compareBytes s t := by
  have htake := compareBytes_take_terminated (max s.length t.length + 1) hs ht
  rwa [List.take_of_length_le (by simp), List.take_of_length_le (by simp),
    List.take_of_length_le (by omega), List.take_of_length_le (by omega)] at htake

/-! ## Answers -/

section

variable {m : LinearMemory} {words : Nat → UInt32}

theorem terminated_eq {addr : UInt32} (h : m.StringAt addr s) :
    terminated m addr = .ok (s ++ [0]) := by
  rw [terminated, h.string_eq]
  rfl

variable (hs : m.StringAt (words 0) s) (ht : m.StringAt (words 1) t)

include hs ht

theorem strcmp_answer :
    MemoryQuery.strcmp.answer words m = .ok (orderWord (compareBytes s t)) := by
  rw [← compareBytes_terminated hs.nonzero ht.nonzero, MemoryQuery.answer, terminated_eq hs,
    terminated_eq ht]
  rfl

theorem strncmp_answer :
    MemoryQuery.strncmp.answer words m
      = .ok (orderWord (compareBytes (s.take (words 2).toNat) (t.take (words 2).toNat))) := by
  rw [← compareBytes_take_terminated _ hs.nonzero ht.nonzero, MemoryQuery.answer,
    terminated_eq hs, terminated_eq ht]
  rfl

/-- Up to the zero byte of the shorter string, the bytes are ordered as the strings are. -/
theorem memcmp_answer (hcount : (words 2).toNat = min s.length t.length + 1) :
    MemoryQuery.memcmp.answer words m = .ok (orderWord (compareBytes s t)) := by
  have hread {addr : UInt32} {r : List UInt8} (h : m.StringAt addr r)
      (hle : (words 2).toNat ≤ r.length + 1) :
      m.read addr (words 2) = .ok ((r ++ [0]).take (words 2).toNat) := by
    have hbounds : m.InBounds addr.toNat (words 2).toNat := by
      have hinside := h.inBounds
      rw [LinearMemory.InBounds]
      omega
    rw [LinearMemory.read, LinearMemory.check_of_inBounds hbounds, ← h.slice_eq hle]
    rfl
  rw [← compareBytes_take hs.nonzero ht.nonzero (n := (words 2).toNat) (by omega),
    ← compareBytes_take_terminated _ hs.nonzero ht.nonzero, MemoryQuery.answer,
    hread hs (by omega), hread ht (by omega)]
  rfl

end

/-! ## Calls -/

/-- **The comparisons define one order.** For strings of a memory of less than 2³² bytes `strcmp`
    gives −1, 0 or 1 as they are ordered, so the order is antisymmetric and transitive and 0 says
    that the strings are equal. `strncmp` gives what `strcmp` gives for the strings cut to `n`
    bytes, wherever those are, and what `strcmp` gives for the whole strings if `n` exceeds the
    length of the shorter one. `memcmp` agrees with `strcmp` on the bytes up to the zero byte of the
    shorter one. -/
theorem comparisons_order [Budget] {m : Machine Function} {addr : Nat} {contents : LinearMemory}
    (hactive : m.activeMemory = .ok (addr, contents)) (hsize : contents.size < UInt32.size)
    (caller : Caller Function) {a b c : UInt32} {s t u : List UInt8}
    (hs : contents.StringAt a s) (ht : contents.StringAt b t) (hu : contents.StringAt c u) :
    let call (q : MemoryQuery) (args : List Value) (m : Machine Function) :=
      engine.stubs (.word (.query q)) caller args m
    ∃ ab ba bc ac lenA lenB : UInt32,
      call .strcmp [.i32 a, .i32 b] m = (.ok (.i32 ab), m)
        ∧ call .strcmp [.i32 b, .i32 a] m = (.ok (.i32 ba), m)
        ∧ call .strcmp [.i32 b, .i32 c] m = (.ok (.i32 bc), m)
        ∧ call .strcmp [.i32 a, .i32 c] m = (.ok (.i32 ac), m)
        ∧ Ranks s t ab ∧ ba = -ab ∧ (ab ≠ 1 → bc ≠ 1 → ac ≠ 1)
        ∧ (∀ n : UInt32, ∃ cut : UInt32,
            call .strncmp [.i32 a, .i32 b, .i32 n] m = (.ok (.i32 cut), m)
              ∧ Ranks (s.take n.toNat) (t.take n.toNat) cut
              ∧ cut = orderWord (comparePairs (((s ++ [0]).zip (t ++ [0])).take n.toNat))
              ∧ (min s.length t.length < n.toNat → cut = ab)
              ∧ ∀ (m' : Machine Function) (addr' : Nat) (contents' : LinearMemory)
                  (a' b' : UInt32), m'.activeMemory = .ok (addr', contents') →
                contents'.StringAt a' (s.take n.toNat) → contents'.StringAt b' (t.take n.toNat) →
                call .strcmp [.i32 a', .i32 b'] m' = (.ok (.i32 cut), m'))
        ∧ call .strlen [.i32 a] m = (.ok (.i32 lenA), m)
        ∧ call .strlen [.i32 b] m = (.ok (.i32 lenB), m)
        ∧ call .memcmp [.i32 a, .i32 b, .i32 (min lenA lenB + 1)] m = (.ok (.i32 ab), m) := by
  intro call
  have hstrcmp {m : Machine Function} {addr : Nat} {contents : LinearMemory}
      (hactive : m.activeMemory = .ok (addr, contents)) {a b : UInt32} {s t : List UInt8}
      (hs : contents.StringAt a s) (ht : contents.StringAt b t) :
      call .strcmp [.i32 a, .i32 b] m = (.ok (.i32 (orderWord (compareBytes s t))), m) :=
    query_eq_ok hactive (strcmp_answer hs ht)
  refine ⟨_, _, _, _, s.length.toUInt32, t.length.toUInt32, hstrcmp hactive hs ht,
    hstrcmp hactive ht hs, hstrcmp hactive ht hu, hstrcmp hactive hs hu, ranks_orderWord s t, ?_,
    (ranks_orderWord s t).trans (ranks_orderWord t u) (ranks_orderWord s u), fun n => ?_,
    query_eq_ok hactive (strlen_answer hs.stringOf),
    query_eq_ok hactive (strlen_answer ht.stringOf), ?_⟩
  · rw [← compareBytes_swap, orderWord_swap]
  · refine ⟨_, query_eq_ok hactive (strncmp_answer hs ht), ranks_orderWord _ _, ?_,
      fun hn => ?_, fun m' addr' contents' a' b' hactive' hs' ht' => hstrcmp hactive' hs' ht'⟩
    · rw [comparePairs_zip _ hs.nonzero ht.nonzero]
      rfl
    · exact congrArg orderWord (compareBytes_take hs.nonzero ht.nonzero hn)
  · refine query_eq_ok hactive (memcmp_answer hs ht ?_)
    have hinside := hs.inBounds
    show (min s.length.toUInt32 t.length.toUInt32 + 1).toNat = min s.length t.length + 1
    rw [UInt32.toNat_add, UInt32.toNat_min, hs.stringOf.toNat, ht.stringOf.toNat]
    exact Nat.mod_eq_of_lt (show min s.length t.length + 1 < UInt32.size by omega)

/-- `aa` comes before `aaÿ`, whose last byte is the greatest there is. Two bytes of them do not
    differ, and three do. -/
theorem comparisons_order_prefix :
    let contents := (LinearMemory.zeros 65536).fillRange 100 102 97
      |>.fillRange 200 202 97 |>.fillRange 202 203 255 |>.fillRange 300 301 98
    let m := holding contents
    let call (q : MemoryQuery) (args : List Value) :=
      engine.stubs (.word (.query q)) plainCaller args m
    call .strcmp [.i32 100, .i32 200] = (.ok (.i32 0xffffffff), m)
      ∧ call .strcmp [.i32 200, .i32 100] = (.ok (.i32 1), m)
      ∧ call .strncmp [.i32 100, .i32 200, .i32 2] = (.ok (.i32 0), m)
      ∧ call .strncmp [.i32 100, .i32 200, .i32 3] = (.ok (.i32 0xffffffff), m) := by
  intro contents m call
  have hs : contents.StringAt 100 [97, 97] := by decide +kernel
  have ht : contents.StringAt 200 [97, 97, 255] := by decide +kernel
  have hu : contents.StringAt 300 [98] := by decide +kernel
  obtain ⟨ab, ba, -, -, -, -, hab, hba, -, -, hranks, hswap, -, hcut, -⟩ :=
    comparisons_order (activeMemory_holding contents) (by decide +kernel) plainCaller hs ht hu
  obtain rfl : ab = 0xffffffff := hranks.less.2 (by decide)
  obtain rfl : ba = 1 := hswap.trans (by decide)
  obtain ⟨same, htwo, hsame, -⟩ := hcut 2
  obtain rfl : same = 0 := hsame.equal.2 rfl
  obtain ⟨whole, hthree, -, -, hwhole, -⟩ := hcut 3
  obtain rfl : whole = 0xffffffff := hwhole (by decide)
  exact ⟨hab, hba, htwo, hthree⟩

end Libc

end WasmHost
