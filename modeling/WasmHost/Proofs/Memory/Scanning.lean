import Mathlib.Data.List.Find
import WasmHost.Memory.Linear

set_option autoImplicit false

/-! # Scans are plain walks

A scan of a tree of bytes reads each leaf once. `Cells.collect_eq`, `Cells.find?_eq` and
`Cells.findLast?_eq` say that the scans are the plain walks over the list of addresses, with `get`
at each. For a memory, `slice_eq_map` says what is read from it, and `findByte?_eq_some_iff` and
`findLastByte?_eq_some_iff` which byte a search finds. -/

namespace WasmHost

namespace Cells

/-! ## Walks over a tree -/

/-- The addresses from `start` up to `stop` that are among the `len` addresses from `base`. -/
def within (start stop base len : Nat) : List Nat :=
  List.range' (max start base) (min stop (base + len) - max start base)

theorem mem_within {start stop base len i : Nat} :
    i ∈ within start stop base len ↔ (start ≤ i ∧ i < stop) ∧ base ≤ i ∧ i < base + len := by
  simp only [within, List.mem_range'_1]
  omega

theorem within_eq_nil {start stop base len : Nat} (h : stop ≤ base ∨ base + len ≤ start) :
    within start stop base len = [] := by
  simp only [within, List.range'_eq_nil_iff]
  omega

theorem within_eq_singleton {start stop base : Nat} (h : start ≤ base ∧ base < stop) :
    within start stop base 1 = [base] := by
  simp only [within, show max start base = base by omega,
    show min stop (base + 1) - base = 1 by omega, List.range'_one]

theorem within_eq_nil_of_not {start stop base : Nat} (h : ¬ (start ≤ base ∧ base < stop)) :
    within start stop base 1 = [] := within_eq_nil (by omega)

theorem within_span_succ (start stop base h : Nat) :
    within start stop base (span (h + 1))
      = within start stop base (span h) ++ within start stop (base + span h) (span h) := by
  have hspan := span_succ h
  by_cases hstop : stop ≤ base + span h
  · rw [within_eq_nil (Or.inl hstop), List.append_nil, within, within]
    congr 1
    omega
  · by_cases hstart : base + span h ≤ start
    · rw [within_eq_nil (Or.inr hstart), List.nil_append, within, within]
      congr 1 <;> omega
    · simp only [within]
      rw [show max start (base + span h) = max start base
          + (min stop (base + span h) - max start base) by omega, List.range'_append_1]
      congr 1
      omega

/-- The bytes that a walk over a part of a tree sees are those of the tree. -/
theorem get_split_sub (h base : Nat) (low high : Cells) {start stop i : Nat} :
    (i ∈ within start stop base (span h) →
        get (h + 1) (.split low high) (i - base) = get h low (i - base))
      ∧ (i ∈ within start stop (base + span h) (span h) →
        get (h + 1) (.split low high) (i - base) = get h high (i - (base + span h))) := by
  simp only [mem_within, get]
  refine ⟨fun hi => if_pos (by omega), fun hi => ?_⟩
  rw [if_neg (by omega), Nat.sub_add_eq]

/-- Collecting the bytes of a range is reading its addresses one by one. -/
theorem collect_eq (start stop : Nat) :
    ∀ (h base : Nat) (t : Cells) (rest : List UInt8),
      collect start stop h base t rest
        = (within start stop base (span h)).map (fun i => get h t (i - base)) ++ rest := by
  intro h
  induction h with
  | zero =>
      intro base t rest
      simp only [collect, span_zero]
      split
      · rename_i hin
        simp [within_eq_singleton hin]
      · rename_i hout
        simp [within_eq_nil_of_not hout]
  | succ h ih =>
      intro base t rest
      simp only [collect]
      split
      · rename_i hout
        simp [within_eq_nil hout]
      · split
        · simp only [get_all, List.map_const', within, List.length_range']
        · rename_i low high
          rw [ih, ih, within_span_succ, List.map_append, List.append_assoc]
          congr 1
          · exact List.map_congr_left fun i hi => ((get_split_sub h base low high).1 hi).symm
          · congr 1
            exact List.map_congr_left fun i hi => ((get_split_sub h base low high).2 hi).symm

theorem find?_const {α : Type} (b : Bool) (l : List α) :
    l.find? (fun _ => b) = if b then l.head? else none := by
  cases l <;> cases b <;> simp

/-- Finding the least address of a range is trying its addresses one by one. -/
theorem find?_eq (p : UInt8 → Bool) (start stop : Nat) :
    ∀ (h base : Nat) (t : Cells),
      find? p start stop h base t
        = (within start stop base (span h)).find? fun i => p (get h t (i - base)) := by
  intro h
  induction h with
  | zero =>
      intro base t
      simp only [find?, span_zero]
      by_cases hin : start ≤ base ∧ base < stop
      · simp only [within_eq_singleton hin, hin, true_and, List.find?_cons, Nat.sub_self,
          List.find?_nil]
        split <;> simp_all
      · rw [within_eq_nil_of_not hin, if_neg (fun hp => hin ⟨hp.1, hp.2.1⟩), List.find?_nil]
  | succ h ih =>
      intro base t
      simp only [find?]
      split
      · rename_i hout
        simp [within_eq_nil hout]
      · split
        · rename_i b
          simp only [get_all, find?_const]
          by_cases hb : p b <;> by_cases hlt : max start base < min stop (base + span (h + 1))
            <;> simp only [hb, hlt, within, List.head?_range', and_self, and_true, and_false,
              if_true, if_false, Bool.false_eq_true]
          · rw [if_neg (by omega)]
          · rw [if_pos (by omega)]
        · rename_i low high
          rw [ih, ih, within_span_succ, List.find?_append,
            List.find?_congr fun i hi => congrArg p ((get_split_sub h base low high).1 hi),
            List.find?_congr fun i hi => congrArg p ((get_split_sub h base low high).2 hi)]

/-- Finding the greatest address of a range is trying its addresses one by one, from the last
    one down. -/
theorem findLast?_eq (p : UInt8 → Bool) (start stop : Nat) :
    ∀ (h base : Nat) (t : Cells),
      findLast? p start stop h base t
        = (within start stop base (span h)).reverse.find? fun i => p (get h t (i - base)) := by
  intro h
  induction h with
  | zero =>
      intro base t
      simp only [findLast?, span_zero]
      by_cases hin : start ≤ base ∧ base < stop
      · simp only [within_eq_singleton hin, hin, true_and, List.reverse_singleton, List.find?_cons,
          Nat.sub_self, List.find?_nil]
        split <;> simp_all
      · rw [within_eq_nil_of_not hin, if_neg (fun hp => hin ⟨hp.1, hp.2.1⟩), List.reverse_nil,
          List.find?_nil]
  | succ h ih =>
      intro base t
      simp only [findLast?]
      split
      · rename_i hout
        simp [within_eq_nil hout]
      · split
        · rename_i b
          simp only [get_all, find?_const, List.head?_reverse]
          by_cases hb : p b <;> by_cases hlt : max start base < min stop (base + span (h + 1))
            <;> simp only [hb, hlt, within, List.getLast?_range', and_self, and_true, and_false,
              if_true, if_false, Bool.false_eq_true]
          · rw [if_neg (by omega)]
            congr 1
            omega
          · rw [if_pos (by omega)]
        · rename_i low high
          rw [ih, ih, within_span_succ, List.reverse_append, List.find?_append,
            List.find?_congr fun i hi =>
              congrArg p ((get_split_sub h base low high).2 (List.mem_reverse.1 hi)),
            List.find?_congr fun i hi =>
              congrArg p ((get_split_sub h base low high).1 (List.mem_reverse.1 hi))]

end Cells

/-! ## Walks over a memory -/

namespace LinearMemory

/-- The addresses of a range are all addresses of a memory. -/
theorem within_addresses {start stop : Nat} (h : stop ≤ UInt32.size) :
    Cells.within start stop 0 (Cells.span addressBits) = List.range' start (stop - start) := by
  simp only [Cells.within, Nat.zero_add, Nat.max_zero,
    Nat.min_eq_left (show stop ≤ Cells.span addressBits from h)]

theorem slice_eq_map (m : LinearMemory) (start len : Nat) (h : start + len ≤ UInt32.size) :
    m.slice start len = (List.range' start len).map m.byte := by
  unfold slice
  rw [Cells.collect_eq, within_addresses h, List.append_nil, Nat.add_sub_cancel_left]
  rfl

theorem findByte?_eq_some_iff (m : LinearMemory) (c : UInt8) (start stop z : Nat)
    (h : stop ≤ UInt32.size) :
    m.findByte? c start stop = some z
      ↔ start ≤ z ∧ z < stop ∧ m.byte z = c ∧ ∀ i, start ≤ i → i < z → m.byte i ≠ c := by
  unfold findByte?
  rw [Cells.find?_eq, within_addresses h, List.find?_range'_eq_some]
  simp only [Nat.sub_zero, beq_iff_eq, List.mem_range'_1, Bool.not_eq_true', beq_eq_false_iff_ne]
  show m.byte z = c ∧ _ ∧ (∀ j, start ≤ j → j < z → m.byte j ≠ c) ↔ _
  constructor
  · rintro ⟨hc, hmem, hmin⟩
    exact ⟨hmem.1, by omega, hc, hmin⟩
  · rintro ⟨hle, hlt, hc, hmin⟩
    exact ⟨hc, ⟨hle, by omega⟩, hmin⟩

theorem find?_reverse_range'_eq_some (p : Nat → Bool) (start len z : Nat) :
    (List.range' start len).reverse.find? p = some z
      ↔ (start ≤ z ∧ z < start + len) ∧ p z = true
        ∧ ∀ i, z < i → i < start + len → (!p i) = true := by
  induction len with
  | zero =>
      simp only [List.range'_zero, List.reverse_nil, List.find?_nil, reduceCtorEq, false_iff]
      omega
  | succ len ih =>
      rw [List.range'_1_concat, List.reverse_append, List.reverse_singleton, List.singleton_append,
        List.find?_cons]
      by_cases hp : p (start + len) = true
      · simp only [hp, Option.some.injEq]
        constructor
        · rintro rfl
          exact ⟨by omega, hp, fun i _ _ => by omega⟩
        · rintro ⟨hz, hpz, hmax⟩
          by_cases hlt : z < start + len
          · simpa [hp] using hmax (start + len) hlt (by omega)
          · omega
      · simp only [hp, ih]
        constructor
        · rintro ⟨hz, hpz, hmax⟩
          refine ⟨by omega, hpz, fun i hzi hi => ?_⟩
          by_cases hlast : i = start + len
          · simpa [hlast] using hp
          · exact hmax i hzi (by omega)
        · rintro ⟨hz, hpz, hmax⟩
          have hne : z ≠ start + len := fun he => hp (he ▸ hpz)
          exact ⟨by omega, hpz, fun i hzi hi => hmax i hzi (by omega)⟩

theorem findLastByte?_eq_some_iff (m : LinearMemory) (c : UInt8) (start stop z : Nat)
    (h : stop ≤ UInt32.size) :
    m.findLastByte? c start stop = some z
      ↔ start ≤ z ∧ z < stop ∧ m.byte z = c ∧ ∀ i, z < i → i < stop → m.byte i ≠ c := by
  unfold findLastByte?
  rw [Cells.findLast?_eq, within_addresses h, find?_reverse_range'_eq_some]
  simp only [Nat.sub_zero, beq_iff_eq, Bool.not_eq_true', beq_eq_false_iff_ne]
  show (start ≤ z ∧ z < start + (stop - start)) ∧ m.byte z = c
    ∧ (∀ i, z < i → i < start + (stop - start) → m.byte i ≠ c) ↔ _
  constructor
  · rintro ⟨hmem, hc, hmax⟩
    exact ⟨hmem.1, by omega, hc, fun i hz hi => hmax i hz (by omega)⟩
  · rintro ⟨hle, hlt, hc, hmax⟩
    exact ⟨⟨hle, by omega⟩, hc, fun i hz hi => hmax i hz (by omega)⟩

end LinearMemory

end WasmHost
