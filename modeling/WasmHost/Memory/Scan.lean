import WasmHost.Memory.Cells

set_option autoImplicit false

/-! # Scanning sparse bytes

Walks over the addresses of a range that read each leaf of the tree once: `collect` lists the bytes
and `find?` and `findLast?` look for one. -/

namespace WasmHost

namespace Cells

/-- The bytes at the addresses from `start` up to `stop`, in front of `rest`. The tree covers the
    `span height` addresses from `base`. -/
def collect (start stop : Nat) :
    (height base : Nat) → Cells → (rest : List UInt8) → List UInt8
  | 0, base, t, rest => if start ≤ base ∧ base < stop then t.get 0 0 :: rest else rest
  | h + 1, base, t, rest =>
      if stop ≤ base ∨ base + span (h + 1) ≤ start then rest
      else match t with
        | .all b =>
            List.replicate (min stop (base + span (h + 1)) - max start base) b ++ rest
        | .split low high =>
            collect start stop h base low (collect start stop h (base + span h) high rest)

/-- The least address from `start` up to `stop` whose byte satisfies `p`. The tree covers the
    `span height` addresses from `base`. -/
def find? (p : UInt8 → Bool) (start stop : Nat) : (height base : Nat) → Cells → Option Nat
  | 0, base, t => if start ≤ base ∧ base < stop ∧ p (t.get 0 0) then some base else none
  | h + 1, base, t =>
      if stop ≤ base ∨ base + span (h + 1) ≤ start then none
      else match t with
        | .all b =>
            if max start base < min stop (base + span (h + 1)) ∧ p b then some (max start base)
            else none
        | .split low high =>
            (find? p start stop h base low).or (find? p start stop h (base + span h) high)

/-- The greatest address from `start` up to `stop` whose byte satisfies `p`. The tree covers the
    `span height` addresses from `base`. -/
def findLast? (p : UInt8 → Bool) (start stop : Nat) : (height base : Nat) → Cells → Option Nat
  | 0, base, t => if start ≤ base ∧ base < stop ∧ p (t.get 0 0) then some base else none
  | h + 1, base, t =>
      if stop ≤ base ∨ base + span (h + 1) ≤ start then none
      else match t with
        | .all b =>
            if max start base < min stop (base + span (h + 1)) ∧ p b then
              some (min stop (base + span (h + 1)) - 1)
            else none
        | .split low high =>
            (findLast? p start stop h (base + span h) high).or (findLast? p start stop h base low)

end Cells

end WasmHost
