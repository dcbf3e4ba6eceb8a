import WasmHost.Proofs.Libc.Reallocation
import WasmHost.Proofs.Memory.StringWrites

set_option autoImplicit false

/-! # Blocks that are filled

`calloc`, `mmap` and `strdup` take a block and then fill it, with zeros or with a copy of a string.
A block that the heap hands out is inside the active memory, so filling it cannot fail
(`Libc.fillsBlock_of_alloc`), and what the memory had there before does not matter: a copied string
is the one that is there before the call, also if the block lies over it.

The main result is `Libc.blocks_filled`, for a heap after any calls. -/

namespace WasmHost

open WasmHost.Action

variable {ι : Type}

/-- The bytes `data` are in a block that has been handed out at `ptr`: what the memory and the heap
    are before and after. -/
structure Filled (before after : LinearMemory) (h h' : Heap) (ptr : UInt32) (data : List UInt8) :
    Prop where
  put : before.Overwritten after ptr.toNat data
  placed : ptr.toNat = h.top
  recorded (q : UInt32) :
    h'.sizeOf? q = if ptr = q then some data.length.toUInt32 else h.sizeOf? q
  extent : h'.base = h.base ∧ h'.next.toNat = ptr.toNat + data.length

/-- The block is where no block has been before: aligned, at or above `base`, and without a common
    byte with any of `blocks`. -/
structure Block.Fresh (base : UInt32) (blocks : List Block) (b : Block) : Prop where
  aligned : b.start.toNat % 8 = 0
  above : base.toNat ≤ b.start.toNat
  disjoint : ∀ b' ∈ blocks, b'.Disjoint b

section

variable {m : Machine ι} {addr : Nat} {contents after : LinearMemory} {size ptr : UInt32}
variable {heap : Heap} {fill : UInt32 → MemoryAction Unit}

theorem Action.allocateWith?_of_some (hactive : m.activeMemory = .ok (addr, contents))
    (halloc : m.host.heap.alloc size contents.size = some (ptr, heap))
    (hfill : fill ptr contents = (.ok (), after)) :
    allocateWith? size (fun ptr => onMemory (fill ptr)) m
      = (.ok (some ptr), (m.withHeap heap).withContents addr after) := by
  unfold allocateWith?
  rw [bind_apply_of_ok (allocate?_of_some hactive halloc)]
  dsimp only
  rw [bind_apply_of_ok (onMemory_withHeap hactive hfill)]
  rfl

theorem Action.allocateWith?_of_none (hactive : m.activeMemory = .ok (addr, contents))
    (halloc : m.host.heap.alloc size contents.size = none) :
    allocateWith? size (fun ptr => onMemory (fill ptr)) m = (.ok none, m) := by
  unfold allocateWith?
  rw [bind_apply_of_ok (allocate?_of_none hactive halloc)]
  rfl

end

namespace Libc

/-! ## Requests for filled blocks -/

/-- The call hands out a block with the bytes `data` in it if there is room, and nothing else
    changes; otherwise it gives back `refusal`, and nothing changes at all. The heap is one that
    starts at `base` and has handed out `blocks`. -/
structure FillsBlock (base : UInt32) (blocks : List Block) (m : Machine ι) (addr : Nat)
    (contents : LinearMemory) (refusal : UInt32) (data : List UInt8)
    (run : Except Failure Reply × Machine ι) : Prop where
  granted (hroom : m.host.heap.CanTake data.length contents.size) :
    ∃ ptr heap after,
      let m' := (m.withHeap heap).withContents addr after
      run = (.ok (.i32 ptr), m') ∧ m'.activeMemory = .ok (addr, after) ∧ ptr ≠ refusal
        ∧ Filled contents after m.host.heap heap ptr data
        ∧ Block.Fresh base blocks ⟨ptr, data.length⟩
  refused (hroom : ¬ m.host.heap.CanTake data.length contents.size) : run = (.ok (.i32 refusal), m)

section

variable {base : UInt32} {calls : List (HeapCall ι)} {m : Machine ι} {addr : Nat}
variable {contents : LinearMemory} {refusal : UInt32} {data : List UInt8}

/-- A block that is handed out is fresh. -/
theorem fresh_of_alloc (hbase : base ≠ 0) (hheap : HeapRun (.new base) calls m.host.heap)
    {size ptr : UInt32} {limit : Nat} {heap : Heap}
    (halloc : m.host.heap.alloc size limit = some (ptr, heap)) (hptr : ptr.toNat = m.host.heap.top)
    (n : Nat) : Block.Fresh base (calls.filterMap HeapCall.granted?) ⟨ptr, n⟩ where
  aligned := (Heap.allocated halloc).aligned
  above := Nat.le_trans (hheap.recorded hbase).base_le (Heap.allocated halloc).above
  disjoint b hb := .inl (Nat.le_trans (hheap.stop_le_top hbase b hb) (Nat.le_of_eq hptr.symm))

/-- The address of a fresh block is no refusal: neither zero nor the last address. -/
theorem ne_refusal_of_fresh (hbase : base ≠ 0) {blocks : List Block} {ptr : UInt32} {n : Nat}
    (hfresh : Block.Fresh base blocks ⟨ptr, n⟩) (hrefusal : refusal = 0 ∨ refusal = 0xffffffff) :
    ptr ≠ refusal := by
  rintro rfl
  rcases hrefusal with rfl | rfl
  · exact hbase (UInt32.toNat_inj.1 (Nat.le_zero.1 hfresh.above))
  · have haligned : (0xffffffff : UInt32).toNat % 8 = 0 := hfresh.aligned
    exact absurd haligned (by decide)

/-- **A block is filled** if whatever is put into it can be put into any block of its size. -/
theorem fillsBlock_of_alloc (hbase : base ≠ 0) (hheap : HeapRun (.new base) calls m.host.heap)
    (hactive : m.activeMemory = .ok (addr, contents))
    (hrefusal : refusal = 0 ∨ refusal = 0xffffffff) {size : UInt32}
    (hdata : data.length ≤ UInt32.size) (hsize : size = data.length.toUInt32)
    {fill : UInt32 → MemoryAction Unit}
    (hfill : ∀ ptr, contents.InBounds ptr.toNat data.length →
      ∃ after, fill ptr contents = (.ok (), after) ∧ contents.Overwritten after ptr.toNat data) :
    FillsBlock base (calls.filterMap HeapCall.granted?) m addr contents refusal data
      (replyWord (do
        return (← allocateWith? size fun ptr => onMemory (fill ptr)).getD refusal) m) := by
  subst hsize
  rw [replyWord_apply, bind_pure_apply]
  refine ⟨fun hroom => ?_, fun hroom => ?_⟩
  · have hpos := hroom.1
    obtain ⟨ptr, heap, halloc, hptr⟩ :=
      Heap.alloc_of_hasRoom ((Heap.canTake_iff_hasRoom hdata).1 hroom)
    have hword : data.length.toUInt32.toNat = data.length :=
      UInt32.toNat_ofNat_of_lt' (Nat.lt_of_le_of_lt (Nat.le_add_left _ _) hroom.2.1)
    have ha := Heap.allocated halloc
    have hinside := ha.inside
    have hnext := ha.next
    rw [hword] at hinside hnext
    -- the allocator has checked the block against the memory, so filling it cannot fail
    obtain ⟨after, hrun, hput⟩ := hfill ptr hinside
    have hfresh := fresh_of_alloc hbase hheap halloc hptr data.length
    refine ⟨ptr, heap, after, ?_, ?_, ne_refusal_of_fresh hbase hfresh hrefusal,
      ⟨hput, hptr, ha.recorded, ha.base, hnext⟩, hfresh⟩
    · rw [allocateWith?_of_some hactive halloc hrun]
      rfl
    · exact Machine.activeMemory_withContents (m := m.withHeap heap) hactive (by omega) after
  · rw [Heap.canTake_iff_hasRoom hdata] at hroom
    rw [allocateWith?_of_none hactive (Heap.alloc_of_not_hasRoom hroom)]
    rfl

/-! ## Zeros and copies -/

/-- A block of zeros. -/
theorem fillsBlock_zeros (hbase : base ≠ 0) (hheap : HeapRun (.new base) calls m.host.heap)
    (hactive : m.activeMemory = .ok (addr, contents))
    (hrefusal : refusal = 0 ∨ refusal = 0xffffffff) (size : UInt32) :
    FillsBlock base (calls.filterMap HeapCall.granted?) m addr contents refusal
      (List.replicate size.toNat 0)
      (replyWord (do return (← allocateZeroed? size).getD refusal) m) := by
  have hlength : (List.replicate size.toNat (0 : UInt8)).length = size.toNat :=
    List.length_replicate
  refine fillsBlock_of_alloc hbase hheap hactive hrefusal ?_ ?_ fun ptr hinside => ?_
  · rw [hlength]
    exact Nat.le_of_lt size.toNat_lt
  · rw [hlength]
    exact UInt32.ofNat_toNat.symm
  · rw [hlength] at hinside
    have hzero := LinearMemory.zero_of_inBounds hinside
    exact ⟨_, MemoryAction.change_of_ok (f := (·.zero ptr size)) hzero,
      LinearMemory.overwritten_zero hzero⟩

/-- **Counted blocks** of zeros. A product that has no 32 bits is more than any heap can take. -/
theorem fillsBlock_calloc (hbase : base ≠ 0) (hheap : HeapRun (.new base) calls m.host.heap)
    (hactive : m.activeMemory = .ok (addr, contents)) (count size : UInt32) :
    FillsBlock base (calls.filterMap HeapCall.granted?) m addr contents 0
      (List.replicate (count.toNat * size.toNat) 0) (replyWord (calloc count size) m) := by
  unfold calloc
  by_cases hfits : count.toNat * size.toNat < UInt32.size
  · have hproduct : (count * size).toNat = count.toNat * size.toNat := by
      rw [UInt32.toNat_mul]
      exact Nat.mod_eq_of_lt hfits
    rw [if_pos hfits, ← hproduct]
    exact fillsBlock_zeros hbase hheap hactive (.inl rfl) (count * size)
  · rw [if_neg hfits]
    refine ⟨fun ⟨_, haddress, _⟩ => ?_, fun _ => rfl⟩
    rw [List.length_replicate] at haddress
    exact absurd (Nat.lt_of_le_of_lt (Nat.le_add_left _ _) haddress) hfits

/-- A string of the memory is read before there is a block for its copy. -/
theorem strdup_of_string (hactive : m.activeMemory = .ok (addr, contents)) {src : UInt32}
    {s : List UInt8} (hs : contents.StringAt src s) :
    strdup src m
      = match WordFault.add s.length.toUInt32 1 with
        | .error fault => (.error fault, m)
        | .ok size => WordFault.lift (storeString size s) m := by
  have hread : (look (·.string src) : Action ι MemoryError (List UInt8)) m = (.ok s, m) := by
    rw [look, hactive]
    exact congrArg (·, m) hs.string_eq
  rw [strdup, bind_apply_of_ok (WordFault.lift_of_ok hread)]
  exact allocateString_of_active hactive s

/-- **Copies of strings.** -/
theorem fillsBlock_strdup (hbase : base ≠ 0) (hheap : HeapRun (.new base) calls m.host.heap)
    (hactive : m.activeMemory = .ok (addr, contents)) {src : UInt32} {s : List UInt8}
    (hs : contents.StringAt src s) (hlt : s.length + 1 < UInt32.size) :
    FillsBlock base (calls.filterMap HeapCall.granted?) m addr contents 0 (s ++ [0])
      (replyChecked (strdup src) m) := by
  have hlength : (s ++ [0]).length = s.length + 1 := by
    rw [List.length_append, List.length_singleton]
  have hstore : strdup src m = WordFault.lift (storeString (s.length.toUInt32 + 1) s) m := by
    rw [strdup_of_string hactive hs, WordFault.add_one_of_lt hlt]
  have hrun : replyChecked (strdup src) m = replyWord (do
      return (← allocateWith? (s.length.toUInt32 + 1) fun ptr =>
        onMemory (.writeString ptr s)).getD 0) m := by
    rw [replyChecked_apply, orPanic_apply, hstore, ← orPanic_apply, orPanic_lift, mapError_apply,
      storeString_eq, replyWord_apply]
  rw [hrun]
  refine fillsBlock_of_alloc hbase hheap hactive (.inl rfl) ?_ ?_ fun ptr hinside => ?_
  · rw [hlength]
    exact Nat.le_of_lt hlt
  · rw [hlength]
    exact (UInt32.ofNat_add s.length 1).symm
  · rw [hlength] at hinside
    exact LinearMemory.writeString_of_inBounds hinside

/-- A string that fills a memory of 2³² bytes has no size with its zero byte. -/
theorem strdup_panics (hactive : m.activeMemory = .ok (addr, contents)) {src : UInt32}
    {s : List UInt8} (hs : contents.StringAt src s) (hlong : s.length + 1 = UInt32.size) :
    (replyChecked (strdup src) m).2 = { m with panicked := true } := by
  rw [replyChecked_apply, orPanic_apply, strdup_of_string hactive hs,
    WordFault.add_one_of_eq hlong]
  rfl

end

/-! ## Calls -/

/-- **Blocks are filled.** For a heap after any calls, and so at every moment of a run: `calloc` and
    `mmap` hand out a fresh block of zeros, and `strdup` a fresh block with a copy of the string and
    a zero byte, just if there is room; no other byte of the memory changes. Otherwise they give
    back zero, or -1, and nothing changes. Only a string that fills a memory of 2³² bytes makes
    `strdup` panic. -/
theorem blocks_filled [Budget] {base : UInt32} (hbase : base ≠ 0) {calls : List (HeapCall Function)}
    {m : Machine Function} (hheap : HeapRun (.new base) calls m.host.heap) {addr : Nat}
    {contents : LinearMemory} (hactive : m.activeMemory = .ok (addr, contents))
    (caller : Caller Function) (args : List Value) :
    let word := Args.word args
    let blocks := calls.filterMap HeapCall.granted?
    FillsBlock base blocks m addr contents 0
        (List.replicate ((word 0).toNat * (word 1).toNat) 0)
        (engine.stubs (.word .calloc) caller args m)
      ∧ (word 0 = 0 → word 2 = 3 → word 4 = 0xffffffff →
        FillsBlock base blocks m addr contents 0xffffffff (List.replicate (word 1).toNat 0)
          (engine.stubs (.word .mmap) caller args m))
      ∧ (∀ s, contents.StringAt (word 0) s →
        (s.length + 1 < UInt32.size → FillsBlock base blocks m addr contents 0 (s ++ [0])
          (engine.stubs (.word .strdup) caller args m))
        ∧ (s.length + 1 = UInt32.size →
          (engine.stubs (.word .strdup) caller args m).2 = { m with panicked := true }))
      ∧ ∀ (config : Config) (source : ModuleSource ModuleObject) (sink : Sink)
          (start : Run Function) (requests : List (Run.Request Function)) (m' : Machine Function),
          Run.start config source sink = .ok start →
          Run.Moment engine loads requests start m' →
          ∃ calls' : List (HeapCall Function),
            HeapRun (.new config.heapBase) calls' m'.host.heap := by
  intro word blocks
  refine ⟨fillsBlock_calloc hbase hheap hactive (word 0) (word 1), fun haddr hprot hfd => ?_,
    fun s hs => ⟨fillsBlock_strdup hbase hheap hactive hs, strdup_panics hactive hs⟩,
    fun config _ _ _ _ _ hstart hmoment => heapRun_of_moment hstart hmoment⟩
  have hrun : engine.stubs (.word .mmap) caller args m = replyWord (mapAnonymous (word 1)) m := by
    show (mmap (word 0) (word 1) (word 2) (word 4) >>= fun r => pure (Reply.i32 r)) m = _
    rw [mmap, if_neg (not_not_intro haddr), if_neg (not_not_intro hprot),
      if_neg (not_not_intro hfd)]
    rfl
  rw [hrun]
  exact fillsBlock_zeros hbase hheap hactive (.inr rfl) (word 1)

/-- In a memory that is not zero where the heap starts: fifteen zeros, more than there is room for,
    a product that has no 32 bits, zeros from `mmap`, and a copy of a string that lies in the block
    it is copied to. -/
theorem blocks_filled_dirty :
    let contents := (LinearMemory.zeros 65536).fillRange 16386 16390 97
    let m := holding contents
    let call (f : WordFunction) (args : List Value) := engine.stubs (.word f) plainCaller args m
    let hands (run : Except Failure Reply × Machine Function) (data : List UInt8) :=
      ∃ heap after, run = (.ok (.i32 16384), (m.withHeap heap).withContents 0 after)
        ∧ contents.Overwritten after 16384 data
    hands (call .calloc [.i32 3, .i32 5]) (List.replicate 15 0)
      ∧ call .calloc [.i32 7, .i32 7168] = (.ok (.i32 0), m)
      ∧ call .calloc [.i32 65536, .i32 65536] = (.ok (.i32 0), m)
      ∧ hands (call .mmap [.i32 0, .i32 20, .i32 3, .i32 34, .i32 0xffffffff])
        (List.replicate 20 0)
      ∧ call .mmap [.i32 0, .i32 0, .i32 3, .i32 34, .i32 0xffffffff]
        = (.ok (.i32 0xffffffff), m)
      ∧ hands (call .strdup [.i32 16386]) [97, 97, 97, 97, 0] := by
  intro contents m call hands
  have hheap : HeapRun (.new 16384) ([] : List (HeapCall Function)) m.host.heap := .nil _
  have hfilled (args : List Value) :=
    blocks_filled (by decide) hheap (activeMemory_holding contents) plainCaller args
  have hands_of {run : Except Failure Reply × Machine Function} {refusal : UInt32}
      {data : List UInt8} (h : FillsBlock 16384 [] m 0 contents refusal data run)
      (hroom : m.host.heap.CanTake data.length contents.size) : hands run data := by
    obtain ⟨ptr, heap, after, hrun, -, -, hblock, -⟩ := h.granted hroom
    have htop : m.host.heap.top = 16384 := by decide +kernel
    have hptr : ptr = 16384 := UInt32.toNat_inj.1 (hblock.placed.trans htop)
    subst hptr
    exact ⟨heap, after, hrun, hblock.put⟩
  have hs : contents.StringAt 16386 [97, 97, 97, 97] := by decide +kernel
  refine ⟨?_, ?_, ?_, ?_, ?_, ?_⟩
  · exact hands_of (hfilled [.i32 3, .i32 5]).1 (by decide +kernel)
  · refine (hfilled [.i32 7, .i32 7168]).1.refused ?_
    rw [List.length_replicate]
    decide +kernel
  · refine (hfilled [.i32 65536, .i32 65536]).1.refused ?_
    rw [List.length_replicate]
    decide +kernel
  · obtain ⟨-, hmaps, -⟩ := hfilled [.i32 0, .i32 20, .i32 3, .i32 34, .i32 0xffffffff]
    exact hands_of (hmaps rfl rfl rfl) (by decide +kernel)
  · obtain ⟨-, hmaps, -⟩ := hfilled [.i32 0, .i32 0, .i32 3, .i32 34, .i32 0xffffffff]
    exact (hmaps rfl rfl rfl).refused (by decide +kernel)
  · obtain ⟨-, -, hcopies, -⟩ := hfilled [.i32 16386]
    exact hands_of ((hcopies _ hs).1 (by decide)) (by decide +kernel)

end Libc

end WasmHost
