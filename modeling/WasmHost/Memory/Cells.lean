set_option autoImplicit false

/-! # Sparse byte arrays

A linear memory may have 2³² bytes, of which a run touches few. `Cells` is a binary tree over a
range of addresses whose length is a power of two: a part of the range whose bytes are all alike is
one leaf, whatever its length.

The view is `get`. `overlay` replaces the bytes of a range by those of a function, `fill` by one
byte and `copy` by those of another range. Each has one equation through `get`, and nothing else is
known about the shape of a tree. -/

namespace WasmHost

/-- Bytes at the addresses below a power of two. -/
inductive Cells where
  /-- Every byte of the range is `b`. -/
  | all (b : UInt8)
  /-- The lower and the upper half of the range. -/
  | split (low high : Cells)

namespace Cells

instance : Inhabited Cells := ⟨all 0⟩

/-- The powers of two that 32-bit addresses need. -/
def powers : Array Nat := ((List.range 33).map fun height => 1 <<< height).toArray

/-- The number of addresses that a tree of a height covers: a power of two. It is looked up where
    possible, since every access to a tree needs one for each level. -/
def span (height : Nat) : Nat := powers.getD height (1 <<< height)

theorem span_eq (h : Nat) : span h = 1 <<< h := by
  by_cases hh : h < 33 <;> simp [span, powers, hh]

@[simp] theorem span_zero : span 0 = 1 := rfl

theorem span_succ (h : Nat) : span (h + 1) = span h + span h := by
  simp only [span_eq, Nat.shiftLeft_eq, Nat.pow_succ]
  omega

/-- The byte at address `i` of a range of `span height` addresses. -/
def get : (height : Nat) → Cells → (i : Nat) → UInt8
  | _, .all b, _ => b
  | 0, .split low _, i => get 0 low i
  | h + 1, .split low high, i => if i < span h then get h low i else get h high (i - span h)

/-- The byte of which both ranges consist, if they are one leaf each. -/
def common? : Cells → Cells → Option UInt8
  | .all a, .all b => if a = b then some a else none
  | _, _ => none

/-- Two halves as one range; two equal leaves become one. -/
def join (low high : Cells) : Cells :=
  match common? low high with
  | some b => .all b
  | none => .split low high

/-- The lower half of a range. -/
def lower : Cells → Cells
  | .all b => .all b
  | .split low _ => low

/-- The upper half of a range. -/
def upper : Cells → Cells
  | .all b => .all b
  | .split _ high => high

/-- Replace the bytes at the addresses from `start` up to `stop` by those of `f`. The tree covers
    the `span height` addresses from `base`. -/
def overlay (f : Nat → UInt8) (start stop : Nat) : (height base : Nat) → Cells → Cells
  | 0, base, t => if start ≤ base ∧ base < stop then .all (f base) else t
  | h + 1, base, t =>
      if stop ≤ base ∨ base + span (h + 1) ≤ start then t
      else join (overlay f start stop h base t.lower)
        (overlay f start stop h (base + span h) t.upper)

/-- Replace the bytes at the addresses from `start` up to `stop` by `b`. The tree covers the
    `span height` addresses from `base`. -/
def fill (b : UInt8) (start stop : Nat) : (height base : Nat) → Cells → Cells
  | 0, base, t => if start ≤ base ∧ base < stop then .all b else t
  | h + 1, base, t =>
      if stop ≤ base ∨ base + span (h + 1) ≤ start then t
      else if start ≤ base ∧ base + span (h + 1) ≤ stop then .all b
      else join (fill b start stop h base t.lower) (fill b start stop h (base + span h) t.upper)

/-- The range of `span height` addresses that begins at `offset` in `low`, which covers as many, and
    goes on in `high`. -/
def window : (height : Nat) → (low high : Cells) → (offset : Nat) → Cells
  | 0, low, _, _ => low
  | h + 1, low, high, offset =>
      match common? low high with
      | some b => .all b
      | none =>
          if offset < span h then
            join (window h low.lower low.upper offset) (window h low.upper high.lower offset)
          else
            join (window h low.upper high.lower (offset - span h))
              (window h high.lower high.upper (offset - span h))

/-- Replace the bytes at the addresses from `start` up to `stop` by those that `window` has there.
    The tree covers the `span height` addresses from `base`, and so does the window. -/
def copy (start stop : Nat) :
    (height base : Nat) → (t low high : Cells) → (offset : Nat) → Cells
  | 0, base, t, low, _, _ => if start ≤ base ∧ base < stop then low else t
  | h + 1, base, t, low, high, offset =>
      if stop ≤ base ∨ base + span (h + 1) ≤ start then t
      else if start ≤ base ∧ base + span (h + 1) ≤ stop then window (h + 1) low high offset
      else if offset < span h then
        join (copy start stop h base t.lower low.lower low.upper offset)
          (copy start stop h (base + span h) t.upper low.upper high.lower offset)
      else
        join (copy start stop h base t.lower low.upper high.lower (offset - span h))
          (copy start stop h (base + span h) t.upper high.lower high.upper (offset - span h))

/-! ## Equations through `get` -/

@[simp] theorem get_all (h : Nat) (b : UInt8) (i : Nat) : get h (.all b) i = b := by
  cases h <;> rfl

theorem get_split (h : Nat) (low high : Cells) (i : Nat) :
    get (h + 1) (.split low high) i
      = if i < span h then get h low i else get h high (i - span h) := rfl

theorem eq_all_of_common? {low high : Cells} {b : UInt8} (h : common? low high = some b) :
    low = .all b ∧ high = .all b := by
  unfold common? at h
  split at h
  · split at h <;> simp_all
  · simp at h

theorem get_join (h : Nat) (low high : Cells) (i : Nat) :
    get (h + 1) (join low high) i
      = if i < span h then get h low i else get h high (i - span h) := by
  unfold join
  split
  · rename_i hb
    obtain ⟨rfl, rfl⟩ := eq_all_of_common? hb
    simp
  · rfl

theorem get_eq_halves (h : Nat) (t : Cells) (i : Nat) :
    get (h + 1) t i = if i < span h then get h t.lower i else get h t.upper (i - span h) := by
  cases t with
  | all b => simp [lower, upper]
  | split low high => rfl

/-- After `overlay f start stop` an address of the range reads as `f` and any other as before. -/
theorem get_overlay (f : Nat → UInt8) (start stop : Nat) :
    ∀ (h base : Nat) (t : Cells) (i : Nat), i < span h →
      get h (overlay f start stop h base t) i
        = if start ≤ base + i ∧ base + i < stop then f (base + i) else get h t i := by
  intro h
  induction h with
  | zero =>
      intro base t i hi
      have hi0 : i = 0 := by simpa using hi
      subst hi0
      simp only [overlay, Nat.add_zero]
      split <;> simp_all
  | succ h ih =>
      intro base t i hi
      have hspan := span_succ h
      simp only [overlay]
      split
      · rename_i hout
        rw [if_neg (by omega)]
      · rw [get_join, get_eq_halves h t i]
        by_cases hlow : i < span h
        · simp only [hlow, ↓reduceIte]
          exact ih base t.lower i hlow
        · simp only [hlow, ↓reduceIte]
          rw [ih (base + span h) t.upper (i - span h) (by omega)]
          have haddr : base + span h + (i - span h) = base + i := by omega
          rw [haddr]

/-- After `fill b start stop` an address of the range reads as `b` and any other as before. -/
theorem get_fill (b : UInt8) (start stop : Nat) :
    ∀ (h base : Nat) (t : Cells) (i : Nat), i < span h →
      get h (fill b start stop h base t) i
        = if start ≤ base + i ∧ base + i < stop then b else get h t i := by
  intro h
  induction h with
  | zero =>
      intro base t i hi
      have hi0 : i = 0 := by simpa using hi
      subst hi0
      simp only [fill, Nat.add_zero]
      split <;> simp_all
  | succ h ih =>
      intro base t i hi
      have hspan := span_succ h
      simp only [fill]
      split
      · rename_i hout
        rw [if_neg (by omega)]
      · split
        · rename_i hall
          rw [if_pos (by omega), get_all]
        · rw [get_join, get_eq_halves h t i]
          by_cases hlow : i < span h
          · simp only [hlow, ↓reduceIte]
            exact ih base t.lower i hlow
          · simp only [hlow, ↓reduceIte]
            rw [ih (base + span h) t.upper (i - span h) (by omega)]
            have haddr : base + span h + (i - span h) = base + i := by omega
            rw [haddr]

/-! The four quarters of a range of two parts, taken as three ranges of two quarters each. -/

theorem get_split_low (h : Nat) (low high : Cells) (i : Nat) (hi : i < span (h + 1)) :
    get (h + 2) (.split low high) i = get (h + 1) (.split low.lower low.upper) i := by
  rw [show get (h + 2) (.split low high) i = get (h + 1) low i by simp [get, hi],
    get_eq_halves]
  rfl

theorem get_split_high (h : Nat) (low high : Cells) (i : Nat) (hi : span (h + 1) ≤ i) :
    get (h + 2) (.split low high) i
      = get (h + 1) (.split high.lower high.upper) (i - span (h + 1)) := by
  rw [show get (h + 2) (.split low high) i = get (h + 1) high (i - span (h + 1)) by
    simp [get, Nat.not_lt.mpr hi], get_eq_halves]
  rfl

theorem get_split_middle (h : Nat) (low high : Cells) (i : Nat) (hlow : span h ≤ i)
    (hhigh : i < span (h + 1) + span h) :
    get (h + 2) (.split low high) i
      = get (h + 1) (.split low.upper high.lower) (i - span h) := by
  have hspan := span_succ h
  by_cases hi : i < span (h + 1)
  · rw [get_split_low h low high i hi]
    simp [get, Nat.not_lt.mpr hlow, show i - span h < span h by omega]
  · rw [get_split_high h low high i (by omega)]
    have hsub : i - span h - span h = i - span (h + 1) := by omega
    simp [get, show i - span (h + 1) < span h by omega, show ¬ i - span h < span h by omega, hsub]

/-- The window reads as the two ranges, from the offset on. -/
theorem get_window :
    ∀ (h : Nat) (low high : Cells) (offset i : Nat), offset < span h → i < span h →
      get h (window h low high offset) i = get (h + 1) (.split low high) (offset + i) := by
  intro h
  induction h with
  | zero =>
      intro low high offset i ho hi
      simp only [span_zero] at ho hi
      simp [window, get, show offset = 0 by omega, show i = 0 by omega]
  | succ h ih =>
      intro low high offset i ho hi
      have hspan := span_succ h
      simp only [window]
      split
      · rename_i hb
        obtain ⟨rfl, rfl⟩ := eq_all_of_common? hb
        simp [get]
      · split
        · rename_i hlow
          rw [get_join]
          split
          · rename_i hi'
            rw [ih _ _ _ _ hlow hi', ← get_split_low _ _ _ _ (by omega)]
          · rw [ih _ _ _ _ hlow (by omega), get_split_middle _ _ _ _ (by omega) (by omega)]
            congr 1
            omega
        · rw [get_join]
          split
          · rename_i hi'
            rw [ih _ _ _ _ (by omega) hi', get_split_middle _ _ _ _ (by omega) (by omega)]
            congr 1
            omega
          · rw [ih _ _ _ _ (by omega) (by omega), get_split_high _ _ _ _ (by omega)]
            congr 1
            omega

/-- After `copy start stop` an address of the range reads as the two ranges of the window, from the
    offset on, and any other as before. -/
theorem get_copy (start stop : Nat) :
    ∀ (h base : Nat) (t low high : Cells) (offset i : Nat), offset < span h → i < span h →
      get h (copy start stop h base t low high offset) i
        = if start ≤ base + i ∧ base + i < stop then get (h + 1) (.split low high) (offset + i)
          else get h t i := by
  intro h
  induction h with
  | zero =>
      intro base t low high offset i ho hi
      simp only [span_zero] at ho hi
      simp only [copy, get, show i = 0 by omega, show offset = 0 by omega, Nat.add_zero]
      split <;> simp
  | succ h ih =>
      intro base t low high offset i ho hi
      have hspan := span_succ h
      simp only [copy]
      split
      · rename_i hout
        rw [if_neg (by omega)]
      · split
        · rename_i hall
          rw [if_pos (by omega), get_window _ _ _ _ _ ho hi]
        · rw [get_eq_halves h t i]
          split
          · rename_i hlow
            rw [get_join]
            split
            · rename_i hi'
              rw [ih _ _ _ _ _ _ hlow hi', ← get_split_low _ _ _ _ (by omega)]
            · rw [ih _ _ _ _ _ _ hlow (by omega),
                get_split_middle _ _ _ (offset + i) (by omega) (by omega)]
              have haddr : base + span h + (i - span h) = base + i := by omega
              have hwin : offset + (i - span h) = offset + i - span h := by omega
              rw [haddr, hwin]
          · rw [get_join]
            split
            · rename_i hi'
              rw [ih _ _ _ _ _ _ (by omega) hi',
                get_split_middle _ _ _ (offset + i) (by omega) (by omega)]
              have hwin : offset - span h + i = offset + i - span h := by omega
              rw [hwin]
            · rw [ih _ _ _ _ _ _ (by omega) (by omega),
                get_split_high _ _ _ (offset + i) (by omega)]
              have haddr : base + span h + (i - span h) = base + i := by omega
              have hwin : offset - span h + (i - span h) = offset + i - span (h + 1) := by omega
              rw [haddr, hwin]

end Cells

end WasmHost
