set_option autoImplicit false

/-! # File descriptors

There are no files, but programs may ask for descriptors. The table has a fixed number of them; the
three standard streams start out open and the lowest free descriptor is handed out first. -/

namespace WasmHost

/-- Which descriptors are open. -/
structure Descriptors where
  /-- One flag for each descriptor. -/
  slots : Vector Bool 256

namespace Descriptors

/-- The number of descriptors. -/
def count : Nat := 256

/-- The table at the start of a run: descriptors 0, 1 and 2 are open. -/
def initial : Descriptors := ⟨Vector.ofFn fun i => decide (i.val < 3)⟩

/-- The lowest descriptor that is not open. -/
def lowestFree? (d : Descriptors) : Option (Fin count) :=
  (List.finRange count).find? fun i => !d.slots[i]

/-- Open the lowest free descriptor; none if all are open. -/
def openLowest (d : Descriptors) : Option (Fin count × Descriptors) :=
  d.lowestFree?.map fun i => (i, ⟨d.slots.set i true⟩)

/-- The slot of a descriptor number. Negative numbers and numbers beyond the table have none. -/
def slot? (fd : Int) : Option (Fin count) :=
  if h : 0 ≤ fd ∧ fd < count then some ⟨fd.toNat, by omega⟩ else none

/-- Whether `fd` is open. -/
def isOpen (d : Descriptors) (fd : Int) : Bool :=
  match slot? fd with
  | some i => d.slots[i]
  | none => false

/-- Close `fd`; none if it is not open. -/
def close (d : Descriptors) (fd : Int) : Option Descriptors :=
  match slot? fd with
  | some i => if d.slots[i] then some ⟨d.slots.set i false⟩ else none
  | none => none

end Descriptors

end WasmHost
