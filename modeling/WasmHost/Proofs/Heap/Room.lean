import WasmHost.Proofs.Heap.Blocks

set_option autoImplicit false

/-! # Room for blocks, and the blocks that are recorded

A request for a block is granted just if there is room for it (`Heap.alloc_of_hasRoom`,
`Heap.alloc_of_not_hasRoom`): the block starts at the next multiple of the alignment and ends inside
the memory, at an address that has 32 bits. Whatever has happened to a heap, the blocks whose sizes
are recorded lie between its base and the end of the part that has been handed out
(`Heap.Recorded.run`). -/

namespace WasmHost.Heap

variable {h h' : Heap} {size ptr : UInt32} {limit : Nat}

/-! ## Room -/

/-- Where the next block starts: the least multiple of the alignment at or above `next`. -/
def top (h : Heap) : Nat := (h.next.toNat + 7) / 8 * 8

/-- There is room for a block of `size` bytes in a memory of `limit` bytes. -/
structure HasRoom (h : Heap) (size : UInt32) (limit : Nat) : Prop where
  nonempty : size ≠ 0
  addressable : h.top + size.toNat < UInt32.size
  inside : h.top + size.toNat ≤ limit

instance (h : Heap) (size : UInt32) (limit : Nat) : Decidable (h.HasRoom size limit) :=
  decidable_of_iff (size ≠ 0 ∧ h.top + size.toNat < UInt32.size ∧ h.top + size.toNat ≤ limit)
    ⟨fun ⟨h₁, h₂, h₃⟩ => ⟨h₁, h₂, h₃⟩, fun ⟨h₁, h₂, h₃⟩ => ⟨h₁, h₂, h₃⟩⟩

/-- An address is aligned unless the multiple above it leaves 32 bits. -/
theorem alignUp?_of_lt (addr : UInt32) (h : (addr.toNat + 7) / 8 * 8 < UInt32.size) :
    ∃ start, alignUp? addr = some start ∧ start.toNat = (addr.toNat + 7) / 8 * 8 := by
  have hsize : UInt32.size = 4294967296 := rfl
  have hlt : addr.toNat + (alignment - 1) < UInt32.size := by
    unfold alignment
    omega
  refine ⟨(addr + 7) &&& ~~~(7 : UInt32), if_pos hlt, ?_⟩
  exact toNat_of_alignUp? (if_pos hlt)

theorem place?_of_hasRoom (hroom : h.HasRoom size limit) :
    ∃ start, h.place? size limit = some (start, start + size) ∧ start.toNat = h.top := by
  obtain ⟨hsize, haddress, hinside⟩ := hroom
  obtain ⟨start, halign, hstart⟩ := alignUp?_of_lt h.next
    (Nat.lt_of_le_of_lt (Nat.le_add_right _ _) haddress)
  refine ⟨start, ?_, hstart⟩
  have hfits : start.toNat + size.toNat < UInt32.size ∧ start.toNat + size.toNat ≤ limit := by
    rw [hstart]
    exact ⟨haddress, hinside⟩
  simp [place?, halign, hsize, hfits, guard]

theorem hasRoom_of_alloc (halloc : h.alloc size limit = some (ptr, h')) :
    h.HasRoom size limit := by
  have ha := allocated halloc
  have haligned : ptr.toNat % 8 = 0 := ha.aligned
  have habove := ha.above
  have hinside := ha.inside
  have hnext := ha.next
  have hlt : h'.next.toNat < UInt32.size := h'.next.toNat_lt
  have htop : h.top ≤ ptr.toNat := by
    unfold top
    omega
  refine ⟨fun hzero => ?_, by omega, by omega⟩
  exact absurd ha.nonempty (by simp [hzero])

/-- **With room** a block is handed out, at the top of the heap. -/
theorem alloc_of_hasRoom (hroom : h.HasRoom size limit) :
    ∃ ptr h', h.alloc size limit = some (ptr, h') ∧ ptr.toNat = h.top := by
  obtain ⟨start, hplace, hstart⟩ := place?_of_hasRoom hroom
  refine ⟨start, { h with next := start + size, sizes := h.sizes.insert start size }, ?_, hstart⟩
  rw [alloc, hplace, Option.map_some]

/-- **Without room** a request is refused. -/
theorem alloc_of_not_hasRoom (hroom : ¬ h.HasRoom size limit) : h.alloc size limit = none := by
  rcases halloc : h.alloc size limit with _ | ⟨ptr, h'⟩
  · rfl
  · exact absurd (hasRoom_of_alloc halloc) hroom

/-- The heap can take `n` more bytes as one block. The number is unbounded. -/
def CanTake (h : Heap) (n limit : Nat) : Prop :=
  0 < n ∧ h.top + n < UInt32.size ∧ h.top + n ≤ limit

instance (h : Heap) (n limit : Nat) : Decidable (h.CanTake n limit) :=
  inferInstanceAs (Decidable (_ ∧ _ ∧ _))

/-- A size of 2³² becomes zero as a word, and then there is no room either. -/
theorem canTake_iff_hasRoom {n : Nat} (hn : n ≤ UInt32.size) :
    h.CanTake n limit ↔ h.HasRoom n.toUInt32 limit := by
  rcases Nat.lt_or_eq_of_le hn with hlt | rfl
  · have hword : n.toUInt32.toNat = n := UInt32.toNat_ofNat_of_lt' hlt
    constructor
    · rintro ⟨hpos, haddress, hinside⟩
      refine ⟨fun hzero => ?_, by rwa [hword], by rwa [hword]⟩
      rw [hzero] at hword
      exact absurd hword (Nat.ne_of_lt hpos)
    · rintro ⟨hsize, haddress, hinside⟩
      rw [hword] at haddress hinside
      refine ⟨Nat.pos_of_ne_zero ?_, haddress, hinside⟩
      rintro rfl
      exact hsize rfl
  · constructor
    · rintro ⟨-, haddress, -⟩
      exact absurd haddress (Nat.not_lt_of_le (Nat.le_add_left _ _))
    · rintro ⟨hsize, -, -⟩
      exact absurd rfl hsize

/-! ## Recorded blocks -/

/-- The blocks whose sizes are recorded are not empty and lie at or above `base`, in the part of the
    heap that has been handed out. -/
structure Recorded (base : UInt32) (h : Heap) : Prop where
  base_le : base.toNat ≤ h.next.toNat
  inside (q size : UInt32) (hq : h.sizeOf? q = some size) :
    base.toNat ≤ q.toNat ∧ 0 < size.toNat ∧ q.toNat + size.toNat ≤ h.next.toNat

namespace Recorded

variable {base : UInt32}

/-- No block is recorded at address zero, unless the heap starts there. -/
theorem ne_zero (hbase : base ≠ 0) (hh : Recorded base h) (hsize : h.sizeOf? ptr = some size) :
    ptr ≠ 0 := by
  rintro rfl
  have hle := (hh.inside 0 size hsize).1
  exact hbase (UInt32.toNat_inj.1 (Nat.le_zero.1 hle))

theorem new (base : UInt32) : Recorded base (.new base) where
  base_le := Nat.le_refl _
  inside q size hq := by
    rw [sizeOf?_new] at hq
    cases hq

theorem alloc (hh : Recorded base h) (halloc : h.alloc size limit = some (ptr, h')) :
    Recorded base h' := by
  have ha := allocated halloc
  have habove := ha.above
  have hnext := ha.next
  have hbase := hh.base_le
  refine ⟨by omega, fun q size' hq => ?_⟩
  rw [ha.recorded] at hq
  by_cases hptr : ptr = q
  · subst hptr
    rw [if_pos rfl] at hq
    cases hq
    exact ⟨by omega, ha.nonempty, by omega⟩
  · rw [if_neg hptr] at hq
    obtain ⟨hle, hpos, hstop⟩ := hh.inside q size' hq
    exact ⟨hle, hpos, by omega⟩

theorem free (hh : Recorded base h) (ptr : UInt32) : Recorded base (h.free ptr) := by
  refine ⟨hh.base_le, fun q size hq => ?_⟩
  rw [sizeOf?_free] at hq
  by_cases hptr : ptr = q
  · rw [if_pos hptr] at hq
    cases hq
  · rw [if_neg hptr] at hq
    exact hh.inside q size hq

theorem step {granted? : Option Block} {released? : Option UInt32} (hh : Recorded base h)
    (hstep : Step limit h granted? released? h') : Recorded base h' := by
  cases hstep with
  | kept => exact hh
  | granted halloc | lost halloc => exact hh.alloc halloc
  | moved halloc old => exact (hh.alloc halloc).free old
  | freed ptr => exact hh.free ptr

/-- **Any events** keep the recorded blocks where they belong. -/
theorem run {events : List Event} (hh : Recorded base h) (hrun : Run h events h') :
    Recorded base h' := by
  induction hrun with
  | nil => exact hh
  | cons hstep _ ih => exact ih (hh.step hstep)

end Recorded

end WasmHost.Heap
