import Mathlib.Data.Option.Basic
import WasmHost.Heap

set_option autoImplicit false

/-! # Blocks of the heap

What happens to a heap is a sequence of events: in a memory of some size a block is handed out, a
recorded size is forgotten, both, or neither (`Heap.Step`). Memory is never used twice, so all
blocks that are ever handed out are disjoint (`Heap.Holds.run`), and the recorded size of a block
lasts until its address is released (`Heap.Run.sizeOf?_eq`). -/

namespace WasmHost

/-- The `size` bytes from `start` on. -/
structure Block where
  start : UInt32
  size : Nat

namespace Block

/-- The address after the block. -/
def stop (b : Block) : Nat := b.start.toNat + b.size

/-- Two blocks without a common byte, one before the other. -/
def Disjoint (b b' : Block) : Prop := b.stop ≤ b'.start.toNat ∨ b'.stop ≤ b.start.toNat

end Block

namespace Heap

/-! ## Handing out a block -/

theorem testBit_seven (i : Nat) : (7 : Nat).testBit i = decide (i < 3) := by
  rw [show (7 : Nat) = 2 ^ 3 - 1 from rfl, Nat.testBit_two_pow_sub_one]

/-- Clearing the three low bits leaves the multiple of eight below. -/
theorem toNat_clear_low (x : UInt32) : (x &&& ~~~(7 : UInt32)).toNat = x.toNat / 8 * 8 := by
  have hclear : x.toBitVec &&& ~~~7#32 = (x.toBitVec >>> 3) <<< 3 := by
    apply BitVec.eq_of_getLsbD_eq
    intro i hi
    simp only [BitVec.getLsbD_and, BitVec.getLsbD_not, BitVec.getLsbD_ofNat, testBit_seven,
      BitVec.getLsbD_shiftLeft, BitVec.getLsbD_ushiftRight]
    by_cases h : i < 3
    · simp [hi, h]
    · simp [hi, h, Nat.add_sub_cancel' (Nat.le_of_not_lt h)]
  have htoNat : (x &&& ~~~(7 : UInt32)).toNat = (x.toBitVec &&& ~~~7#32).toNat := rfl
  have hlt : x.toNat < 2 ^ 32 := x.toNat_lt
  rw [htoNat, hclear, BitVec.toNat_shiftLeft, BitVec.toNat_ushiftRight, Nat.shiftLeft_eq,
    Nat.shiftRight_eq_div_pow, UInt32.toNat_toBitVec]
  omega

theorem toNat_of_alignUp? {addr start : UInt32} (h : alignUp? addr = some start) :
    start.toNat = (addr.toNat + 7) / 8 * 8 := by
  rw [alignUp?] at h
  split at h <;> cases h
  rename_i hlt
  have hadd : (addr + 7).toNat = addr.toNat + 7 := by
    rw [UInt32.toNat_add]
    exact Nat.mod_eq_of_lt hlt
  rw [toNat_clear_low, hadd]

/-- What is so when `size` bytes at `ptr` have been handed out in a memory of `limit` bytes. -/
structure Allocated (h : Heap) (size : UInt32) (limit : Nat) (ptr : UInt32) (h' : Heap) :
    Prop where
  aligned : ptr.toNat % alignment = 0
  above : h.next.toNat ≤ ptr.toNat
  nonempty : 0 < size.toNat
  inside : ptr.toNat + size.toNat ≤ limit
  base : h'.base = h.base
  next : h'.next.toNat = ptr.toNat + size.toNat
  recorded (q : UInt32) : h'.sizeOf? q = if ptr = q then some size else h.sizeOf? q

variable {h h' h'' : Heap} {size ptr : UInt32} {limit : Nat}

theorem allocated (halloc : h.alloc size limit = some (ptr, h')) :
    h.Allocated size limit ptr h' := by
  have hrecorded := sizeOf?_of_alloc halloc
  obtain ⟨⟨start, stop⟩, hplace, hresult⟩ := Option.map_eq_some_iff.1 halloc
  obtain ⟨rfl, rfl⟩ := Prod.mk.inj hresult
  rw [place?, Option.bind_eq_bind, Option.bind_eq_some_iff] at hplace
  obtain ⟨_, hsize, hplace⟩ := hplace
  obtain ⟨start', halign, hplace⟩ := Option.bind_eq_some_iff.1 hplace
  obtain ⟨_, hfits, hplace⟩ := Option.bind_eq_some_iff.1 hplace
  obtain ⟨rfl, rfl⟩ := Prod.mk.inj (Option.some.inj hplace)
  have hsize : size ≠ 0 := (Option.guard_eq_some' _).1 hsize
  have hfits : start'.toNat + size.toNat < UInt32.size ∧ start'.toNat + size.toNat ≤ limit :=
    (Option.guard_eq_some' _).1 hfits
  have hstart := toNat_of_alignUp? halign
  exact
    { aligned := by rw [hstart, alignment, Nat.mul_mod_left]
      above := by omega
      nonempty := Nat.pos_of_ne_zero fun hzero => hsize (UInt32.toNat_inj.1 hzero)
      inside := hfits.2
      base := rfl
      next := by rw [UInt32.toNat_add, Nat.mod_eq_of_lt hfits.1]
      recorded := hrecorded }

/-! ## Events -/

/-- Something that happens to a heap: in a memory of `limit` bytes a block is handed out, the size
    recorded for an address is forgotten, both, or neither. -/
structure Event where
  limit : Nat
  granted? : Option Block
  released? : Option UInt32

/-- What an event can do to a heap. A block may also be lost: it is handed out, but the one who asked
    for it fails. -/
inductive Step (limit : Nat) (h : Heap) : Option Block → Option UInt32 → Heap → Prop where
  | kept : Step limit h none none h
  | granted {ptr size : UInt32} {h' : Heap} (halloc : h.alloc size limit = some (ptr, h')) :
      Step limit h (some ⟨ptr, size.toNat⟩) none h'
  | moved {ptr size : UInt32} {h' : Heap} (halloc : h.alloc size limit = some (ptr, h'))
      (old : UInt32) : Step limit h (some ⟨ptr, size.toNat⟩) (some old) (h'.free old)
  | lost {ptr size : UInt32} {h' : Heap} (halloc : h.alloc size limit = some (ptr, h')) :
      Step limit h none none h'
  | freed (ptr : UInt32) : Step limit h none (some ptr) (h.free ptr)

/-- A sequence of events. -/
inductive Run : Heap → List Event → Heap → Prop where
  | nil (h : Heap) : Run h [] h
  | cons {h h₁ h' : Heap} {ev : Event} {events : List Event}
      (hstep : Step ev.limit h ev.granted? ev.released? h₁) (hrest : Run h₁ events h') :
      Run h (ev :: events) h'

@[simp] theorem base_free (h : Heap) (ptr : UInt32) : (h.free ptr).base = h.base := rfl

@[simp] theorem next_free (h : Heap) (ptr : UInt32) : (h.free ptr).next = h.next := rfl

namespace Step

variable {granted? : Option Block} {released? : Option UInt32} {b : Block}

theorem base_eq (hstep : Step limit h granted? released? h') : h'.base = h.base := by
  cases hstep with
  | kept | freed => rfl
  | granted halloc | lost halloc | moved halloc => exact (allocated halloc).base

theorem next_le (hstep : Step limit h granted? released? h') : h.next.toNat ≤ h'.next.toNat := by
  have hgrows {size ptr : UInt32} {h' : Heap} (halloc : h.alloc size limit = some (ptr, h')) :
      h.next.toNat ≤ h'.next.toNat := by
    rw [(allocated halloc).next]
    exact Nat.le_add_right_of_le (allocated halloc).above
  cases hstep with
  | kept | freed => exact Nat.le_refl _
  | granted halloc | lost halloc => exact hgrows halloc
  | moved halloc old =>
      rw [next_free]
      exact hgrows halloc

/-- A block that is handed out ends where the heap ends now. -/
theorem stop_eq (hstep : Step limit h (some b) released? h') : b.stop = h'.next.toNat := by
  cases hstep with
  | granted halloc | moved halloc => exact (allocated halloc).next.symm

theorem next_le_start (hstep : Step limit h (some b) released? h') :
    h.next.toNat ≤ b.start.toNat := by
  cases hstep with
  | granted halloc | moved halloc => exact (allocated halloc).above

/-- The size of a block that is handed out is recorded, unless its address is released at once. -/
theorem sizeOf?_start (hstep : Step limit h (some b) released? h') :
    (h'.sizeOf? b.start).map UInt32.toNat
      = if released? = some b.start then none else some b.size := by
  cases hstep with
  | granted halloc =>
      rw [(allocated halloc).recorded, if_pos rfl, if_neg (by simp)]
      rfl
  | @moved ptr size h' halloc old =>
      rw [sizeOf?_free, (allocated halloc).recorded, if_pos rfl]
      by_cases hold : old = ptr
      · rw [if_pos hold, if_pos (congrArg some hold)]
        rfl
      · rw [if_neg hold, if_neg (fun h => hold (Option.some.inj h))]
        rfl

/-- For an address in the part that has been handed out before, nothing is recorded anew. -/
theorem sizeOf?_below {q : UInt32} (hstep : Step limit h granted? released? h')
    (hq : q.toNat < h.next.toNat) :
    h'.sizeOf? q = if released? = some q then none else h.sizeOf? q := by
  have hkept {size ptr : UInt32} {h' : Heap} (halloc : h.alloc size limit = some (ptr, h')) :
      h'.sizeOf? q = h.sizeOf? q := by
    have hne : ptr ≠ q := by
      rintro rfl
      exact Nat.not_lt_of_le (allocated halloc).above hq
    rw [(allocated halloc).recorded, if_neg hne]
  cases hstep with
  | kept => rw [if_neg (by simp)]
  | granted halloc | lost halloc => rw [if_neg (by simp), hkept halloc]
  | moved halloc old =>
      rw [sizeOf?_free, hkept halloc]
      simp only [Option.some.injEq]
  | freed ptr =>
      rw [sizeOf?_free]
      simp only [Option.some.injEq]

end Step

/-! ## Sequences of events -/

/-- The block that an event hands out is aligned, at or above `base`, and inside the memory. -/
def Event.Fits (base : UInt32) (ev : Event) : Prop :=
  ∀ b, ev.granted? = some b →
    b.start.toNat % alignment = 0 ∧ base.toNat ≤ b.start.toNat ∧ 0 < b.size ∧ b.stop ≤ ev.limit

/-- The heap starts at `base`, and the blocks lie in the part of it that has been handed out,
    without a common byte. -/
structure Holds (base : UInt32) (blocks : List Block) (h : Heap) : Prop where
  base_eq : h.base = base
  base_le : base.toNat ≤ h.next.toNat
  stop_le : ∀ b ∈ blocks, b.stop ≤ h.next.toNat
  disjoint : blocks.Pairwise Block.Disjoint

theorem Holds.new (base : UInt32) : Holds base [] (.new base) where
  base_eq := rfl
  base_le := Nat.le_refl _
  stop_le _ hb := absurd hb List.not_mem_nil
  disjoint := .nil

variable {base : UInt32} {blocks : List Block} {ev : Event} {events : List Event}

/-- **One event.** A block that is handed out starts where no earlier one ends later. -/
theorem Holds.step (hh : Holds base blocks h)
    (hstep : Step ev.limit h ev.granted? ev.released? h') :
    Holds base (blocks ++ ev.granted?.toList) h' := by
  obtain ⟨limit, granted?, released?⟩ := ev
  dsimp only at hstep ⊢
  have hbase : h'.base = base := hstep.base_eq.trans hh.base_eq
  have hle : base.toNat ≤ h'.next.toNat := Nat.le_trans hh.base_le hstep.next_le
  have hold : ∀ b ∈ blocks, b.stop ≤ h'.next.toNat :=
    fun b hb => Nat.le_trans (hh.stop_le b hb) hstep.next_le
  rcases granted? with _ | b
  · rw [Option.toList_none, List.append_nil]
    exact ⟨hbase, hle, hold, hh.disjoint⟩
  · rw [Option.toList_some]
    refine ⟨hbase, hle, List.forall_mem_append.2 ⟨hold, ?_⟩, List.pairwise_append.2
      ⟨hh.disjoint, List.pairwise_singleton _ _, fun b₁ hb₁ b₂ hb₂ => ?_⟩⟩
    · exact List.forall_mem_singleton.2 (Nat.le_of_eq hstep.stop_eq)
    · rw [List.mem_singleton.1 hb₂]
      exact .inl (Nat.le_trans (hh.stop_le b₁ hb₁) hstep.next_le_start)

theorem Holds.fits (hh : Holds base blocks h)
    (hstep : Step ev.limit h ev.granted? ev.released? h') : ev.Fits base := by
  obtain ⟨limit, granted?, released?⟩ := ev
  intro b hb
  cases hb
  have habove := Nat.le_trans hh.base_le hstep.next_le_start
  cases hstep with
  | granted halloc | moved halloc =>
      exact ⟨(allocated halloc).aligned, habove, (allocated halloc).nonempty,
        (allocated halloc).inside⟩

/-- **Any events.** All blocks that are ever handed out fit and are disjoint. -/
theorem Holds.run (hh : Holds base blocks h) (hrun : Run h events h') :
    Holds base (blocks ++ events.filterMap Event.granted?) h' ∧ ∀ ev ∈ events, ev.Fits base := by
  induction hrun generalizing blocks with
  | nil h =>
      rw [List.filterMap_nil, List.append_nil]
      exact ⟨hh, fun _ hev => absurd hev List.not_mem_nil⟩
  | @cons h h₁ h' ev events hstep hrest ih =>
      obtain ⟨hholds, hfits⟩ := ih (hh.step hstep)
      refine ⟨?_, List.forall_mem_cons.2 ⟨hh.fits hstep, hfits⟩⟩
      rcases hgranted : ev.granted? with _ | b <;> rw [hgranted] at hholds
      · rw [List.filterMap_cons_none hgranted]
        simpa using hholds
      · rw [List.filterMap_cons_some hgranted]
        simpa using hholds

namespace Run

theorem of_append {events' : List Event} (hrun : Run h (events ++ events') h'') :
    ∃ h', Run h events h' ∧ Run h' events' h'' := by
  induction events generalizing h with
  | nil => exact ⟨h, .nil h, hrun⟩
  | cons ev events ih =>
      cases hrun with
      | cons hstep hrest =>
          obtain ⟨h₁, hfirst, hsecond⟩ := ih hrest
          exact ⟨h₁, .cons hstep hfirst, hsecond⟩

/-- What is recorded for an address in the part that has been handed out stays until the address is
    released, and is gone from then on. -/
theorem sizeOf?_eq {q : UInt32} (hrun : Run h events h') (hq : q.toNat < h.next.toNat) :
    ((∀ ev ∈ events, ev.released? ≠ some q) → h'.sizeOf? q = h.sizeOf? q)
      ∧ ((∃ ev ∈ events, ev.released? = some q) ∨ h.sizeOf? q = none → h'.sizeOf? q = none) := by
  induction hrun with
  | nil h =>
      refine ⟨fun _ => rfl, ?_⟩
      rintro (⟨ev, hev, -⟩ | hnone)
      · cases hev
      · exact hnone
  | @cons h h₁ h' ev events hstep hrest ih =>
      obtain ⟨hkeeps, hloses⟩ := ih (Nat.lt_of_lt_of_le hq hstep.next_le)
      have hbelow := hstep.sizeOf?_below hq
      constructor
      · intro hnot
        obtain ⟨hev, hevents⟩ := List.forall_mem_cons.1 hnot
        rw [hkeeps hevents, hbelow, if_neg hev]
      · intro hgone
        by_cases hev : ev.released? = some q
        · exact hloses (.inr (by rw [hbelow, if_pos hev]))
        · rw [if_neg hev] at hbelow
          rcases hgone with ⟨ev', hev', hreleased⟩ | hnone
          · rcases List.mem_cons.1 hev' with rfl | hev'
            · exact absurd hreleased hev
            · exact hloses (.inl ⟨ev', hev', hreleased⟩)
          · exact hloses (.inr (hbelow.trans hnone))

end Run

end Heap

end WasmHost
