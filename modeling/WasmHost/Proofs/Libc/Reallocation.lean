import WasmHost.Proofs.Heap.Room
import WasmHost.Proofs.Libc.HeapSafety
import WasmHost.Proofs.Libc.MemoryCalls
import WasmHost.Proofs.Run.Moments

set_option autoImplicit false

/-! # Reallocation

`realloc` takes a new block, copies, and only then releases the old block, so a request that is
refused leaves everything as it was. The block that is moved ends where the heap has ended so far
(`Heap.Recorded`), so the new block is another one, and releasing the old one does not touch it.

The main result is `Libc.realloc_keeps_contents`, for a heap after any calls. -/

namespace WasmHost

open WasmHost.Action

variable {ι : Type}

/-- The machine after the heap has been changed. -/
def Machine.withHeap (m : Machine ι) (heap : Heap) : Machine ι :=
  { m with host := { m.host with heap := heap } }

section

variable {m : Machine ι} {addr : Nat} {contents : LinearMemory} {ptr size : UInt32} {heap : Heap}

/-! ## Blocks of the active memory -/

theorem Action.allocate?_of_some (hactive : m.activeMemory = .ok (addr, contents))
    (halloc : m.host.heap.alloc size contents.size = some (ptr, heap)) :
    (allocate? size : Action ι MemoryError (Option UInt32)) m
      = (.ok (some ptr), m.withHeap heap) := by
  rw [allocate?, hactive]
  simp only [halloc]
  rfl

theorem Action.allocate?_of_none (hactive : m.activeMemory = .ok (addr, contents))
    (halloc : m.host.heap.alloc size contents.size = none) :
    (allocate? size : Action ι MemoryError (Option UInt32)) m = (.ok none, m) := by
  rw [allocate?, hactive]
  simp only [halloc]

/-- A computation on the active memory that succeeds, once a block has been handed out. -/
theorem Action.onMemory_withHeap {α : Type} {x : MemoryAction α} {a : α} {after : LinearMemory}
    (hactive : m.activeMemory = .ok (addr, contents)) (hx : x contents = (.ok a, after)) :
    onMemory x (m.withHeap heap) = (.ok a, (m.withHeap heap).withContents addr after) := by
  have hactive' : (m.withHeap heap).activeMemory = .ok (addr, contents) := hactive
  rw [onMemory, onContents, hactive']
  simp only [hx]
  rfl

end

namespace Libc

variable {m : Machine ι} {addr : Nat} {contents : LinearMemory} {ptr old size : UInt32}

/-! ## Cases -/

/-- Without an old block a new one is requested. -/
theorem realloc_of_null (size : UInt32) (m : Machine ι) : realloc 0 size m = malloc size m := by
  unfold realloc
  rw [if_pos rfl]

/-- Without a memory every request fails. -/
theorem realloc_of_no_memory {err : MemoryError} (h : m.activeMemory = .error err)
    (ptr size : UInt32) : realloc ptr size m = (.error err, m) := by
  unfold realloc
  by_cases hptr : ptr = 0
  · have hrefused : allocate? size m = (.error err, m) := by rw [allocate?, h]
    rw [if_pos hptr]
    exact bind_apply_of_error hrefused
  · rw [if_neg hptr]
    exact bind_apply_of_error (requireMemory_of_error h)

/-- A size of zero releases the block. -/
theorem realloc_of_zero (hptr : ptr ≠ 0) (hactive : m.activeMemory = .ok (addr, contents)) :
    realloc ptr 0 m = (.ok 0, m.withHeap (m.host.heap.free ptr)) := by
  unfold realloc
  rw [if_neg hptr, if_pos rfl, bind_apply_of_ok (requireMemory_of_active hactive)]
  rfl

/-- A request for which there is no room changes nothing. -/
theorem realloc_of_refused (hptr : ptr ≠ 0) (hsize : size ≠ 0)
    (hactive : m.activeMemory = .ok (addr, contents))
    (halloc : m.host.heap.alloc size contents.size = none) : realloc ptr size m = (.ok 0, m) := by
  unfold realloc
  rw [if_neg hptr, if_neg hsize, bind_apply_of_ok (requireMemory_of_active hactive),
    bind_apply_of_ok (getHost_apply m),
    bind_apply_of_ok (allocate?_of_none hactive halloc)]
  rfl

/-- A request that is granted moves the bytes, if both blocks are inside the memory. -/
theorem realloc_of_granted (hptr : ptr ≠ 0) (hsize : size ≠ 0)
    (hactive : m.activeMemory = .ok (addr, contents)) (hold : m.host.heap.sizeOf? ptr = some old)
    {block : UInt32} {heap : Heap} {contents' : LinearMemory}
    (halloc : m.host.heap.alloc size contents.size = some (block, heap))
    (hcopy : contents.copyWithin ptr block (min old size) = .ok contents') :
    realloc ptr size m
      = (.ok block, (m.withHeap (heap.free ptr)).withContents addr contents') := by
  have hchange := MemoryAction.change_of_ok (f := fun c => c.copyWithin ptr block (min old size))
    hcopy
  unfold realloc
  rw [if_neg hptr, if_neg hsize, bind_apply_of_ok (requireMemory_of_active hactive),
    bind_apply_of_ok (getHost_apply m),
    bind_apply_of_ok (allocate?_of_some hactive halloc), hold]
  dsimp only [Option.getD_some]
  rw [bind_apply_of_ok (onMemory_withHeap hactive hchange)]
  rfl

/-! ## Moved blocks -/

/-- The block of `old` bytes at `ptr` has been moved to a new block of `size` bytes at `block`:
    what the memory and the heap are before and after. -/
structure Moved (before after : LinearMemory) (h h' : Heap) (ptr old size block : UInt32) :
    Prop where
  copied (i : Nat) (hi : i < min old.toNat size.toNat) :
    after.byte (block.toNat + i) = before.byte (ptr.toNat + i)
  kept (i : Nat) (hi : i < before.size)
    (hout : ¬ (block.toNat ≤ i ∧ i < block.toNat + min old.toNat size.toNat)) :
    after.byte i = before.byte i
  size_eq : after.size = before.size
  placed : block.toNat = h.top ∧ before.InBounds block.toNat size.toNat
  released : h'.sizeOf? ptr = none
  live : h'.sizeOf? block = some size
  others (q : UInt32) (hptr : q ≠ ptr) (hblock : q ≠ block) : h'.sizeOf? q = h.sizeOf? q
  extent : h'.base = h.base ∧ h'.next.toNat = block.toNat + size.toNat

/-- **A block is moved** if there is room for another one. -/
theorem realloc_of_hasRoom {base : UInt32} (hrecorded : m.host.heap.Recorded base)
    (hptr : ptr ≠ 0) (hactive : m.activeMemory = .ok (addr, contents))
    (hold : m.host.heap.sizeOf? ptr = some old)
    (hinside : contents.InBounds ptr.toNat old.toNat)
    (hroom : m.host.heap.HasRoom size contents.size) :
    ∃ block contents' heap', realloc ptr size m
        = (.ok block, (m.withHeap heap').withContents addr contents')
      ∧ Moved contents contents' m.host.heap heap' ptr old size block := by
  obtain ⟨block, heap, halloc, htop⟩ := Heap.alloc_of_hasRoom hroom
  have ha := Heap.allocated halloc
  have habove := ha.above
  have hsize := contents.size_le
  obtain ⟨-, hpos, hstop⟩ := hrecorded.inside ptr old hold
  have hne : ptr ≠ block := by
    rintro rfl
    omega
  have hmin : (min old size).toNat = min old.toNat size.toNat := UInt32.toNat_min old size
  have hfrom : contents.InBounds ptr.toNat (min old size).toNat := by
    rw [hmin]
    exact Nat.le_trans (Nat.add_le_add_left (Nat.min_le_left _ _) _) hinside
  have hto : contents.InBounds block.toNat (min old size).toNat := by
    rw [hmin]
    exact Nat.le_trans (Nat.add_le_add_left (Nat.min_le_right _ _) _) ha.inside
  obtain ⟨contents', hcopy⟩ : ∃ c, contents.copyWithin ptr block (min old size) = .ok c :=
    ⟨_, LinearMemory.copyWithin_of_inBounds hfrom hto⟩
  refine ⟨block, contents', heap.free ptr,
    realloc_of_granted hptr hroom.nonempty hactive hold halloc hcopy, ?_⟩
  have hbyte {i : Nat} (hi : i < UInt32.size) := LinearMemory.byte_of_copyWithin hcopy hi
  rw [hmin] at hbyte
  have hinto : block.toNat + size.toNat ≤ contents.size := ha.inside
  exact
    { copied := fun i hi => by
        rw [hbyte (by omega), if_pos (by omega), Nat.add_sub_cancel_left, Nat.add_comm]
      kept := fun i hi hout => by rw [hbyte (Nat.lt_of_lt_of_le hi hsize), if_neg hout]
      size_eq := LinearMemory.size_of_copyWithin hcopy
      placed := ⟨htop, hinto⟩
      released := by rw [Heap.sizeOf?_free, if_pos rfl]
      live := by rw [Heap.sizeOf?_free, if_neg hne, ha.recorded, if_pos rfl]
      others := fun q hq hq' => by
        rw [Heap.sizeOf?_free, if_neg (Ne.symm hq), ha.recorded, if_neg (Ne.symm hq')]
      extent := ⟨ha.base, ha.next⟩ }

/-! ## Heaps that are reached -/

/-- After any calls the recorded blocks lie in the part of the heap that has been handed out. -/
theorem HeapRun.recorded {base : UInt32} (hbase : base ≠ 0) {calls : List (HeapCall ι)} {h : Heap}
    (hrun : HeapRun (.new base) calls h) : h.Recorded base := by
  have hnext : 0 < (Heap.new base).next.toNat :=
    Nat.pos_of_ne_zero fun h => hbase (UInt32.toNat_inj.1 h)
  exact (Heap.Recorded.new base).run (hrun.events hnext)

/-- The blocks that have been granted end below the top of the heap. -/
theorem HeapRun.stop_le_top {base : UInt32} (hbase : base ≠ 0) {calls : List (HeapCall ι)}
    {h : Heap} (hrun : HeapRun (.new base) calls h) :
    ∀ b ∈ calls.filterMap HeapCall.granted?, b.stop ≤ h.top := by
  intro b hb
  have hbelow := (hrun.holds hbase).1.stop_le b hb
  rw [Heap.top]
  omega

/-- At every moment of a run the heap is what calls have left of the first one. -/
theorem preserves_heapRun [Budget] (base : UInt32) :
    engine.Preserves loads (fun _ => True) fun m =>
      ∃ calls : List (HeapCall Function), HeapRun (.new base) calls m.host.heap where
  quiet h hm := by rwa [h.host]
  requesting _ _ hm := hm
  allocating _ _ _ _ _ hm := hm
  finishing l _ _ _ _ _ m _ _ hm := by
    obtain ⟨arena, h⟩ := m.finishLoad_eq l.name l.before.store.instances.size
    rw [h]
    exact hm
  call c hload hm := by
    obtain ⟨calls, hrun⟩ := hm
    exact ⟨calls ++ (heapCall? c).toList, hrun.append (heapRun_of_not_loads hload)⟩
  opening c l hload hm := by
    obtain ⟨name, hname, rfl⟩ := Option.map_eq_some_iff.1 hload
    rw [run_of_loads hname]
    rw [ModuleLoad.run] at hm
    rcases hrun : loadModule (engine.invoke c.depth) name c.before with ⟨err | loaded, m⟩ <;>
      rw [hrun] at hm <;> exact hm
  linking _ _ hm := hm
  merging _ _ hm := hm
  reporting _ _ hm := hm

theorem heapRun_of_moment [Budget] {config : Config} {source : ModuleSource ModuleObject}
    {sink : Sink} {start : Run Function} (hstart : Run.start config source sink = .ok start)
    {requests : List (Run.Request Function)} {m : Machine Function}
    (hm : Run.Moment engine loads requests start m) :
    ∃ calls : List (HeapCall Function), HeapRun (.new config.heapBase) calls m.host.heap := by
  have hfirst : ∃ calls : List (HeapCall Function),
      HeapRun (.new config.heapBase) calls start.machine.host.heap := by
    cases Run.start_eq_ok hstart
    exact ⟨[], .nil _⟩
  exact hm.invariant stubs_lawful (preserves_heapRun config.heapBase) (fun _ _ => trivial) hfirst

/-! ## Calls -/

/-- A call of `realloc` gives back the address as it is. -/
theorem stubs_realloc [Budget] (caller : Caller Function) (args : List Value)
    (m : Machine Function) :
    engine.stubs (.word .realloc) caller args m
      = (((realloc (Args.word args 0) (Args.word args 1) m).1.mapError .ofMemoryError).map .i32,
          (realloc (Args.word args 0) (Args.word args 1) m).2) :=
  replyWord_apply _ m

theorem stubs_malloc [Budget] (caller : Caller Function) (args : List Value)
    (m : Machine Function) :
    engine.stubs (.word .malloc) caller args m
      = (((malloc (Args.word args 0) m).1.mapError .ofMemoryError).map .i32,
          (malloc (Args.word args 0) m).2) :=
  replyWord_apply _ m

/-- **Reallocation keeps contents.** For a heap after any calls, and so at every moment of a run: a
    live block inside the active memory is moved to a fresh one if there is room, and otherwise
    zero is given back and nothing changes. A size of zero only releases the block, and without an
    old block a new one is requested. If there is no active memory the request fails. -/
theorem realloc_keeps_contents [Budget] {base : UInt32} (hbase : base ≠ 0)
    {calls : List (HeapCall Function)} {m : Machine Function}
    (hheap : HeapRun (.new base) calls m.host.heap) (caller : Caller Function)
    (args : List Value) :
    let ptr := Args.word args 0
    let size := Args.word args 1
    (∀ addr contents old, m.activeMemory = .ok (addr, contents) →
        m.host.heap.sizeOf? ptr = some old → contents.InBounds ptr.toNat old.toNat → size ≠ 0 →
        (m.host.heap.HasRoom size contents.size →
          ∃ block contents' heap',
            let m' := (m.withHeap heap').withContents addr contents'
            engine.stubs (.word .realloc) caller args m = (.ok (.i32 block), m')
              ∧ m'.activeMemory = .ok (addr, contents')
              ∧ Moved contents contents' m.host.heap heap' ptr old size block
              ∧ ∀ b ∈ calls.filterMap HeapCall.granted?, b.Disjoint ⟨block, size.toNat⟩)
        ∧ (¬ m.host.heap.HasRoom size contents.size →
          engine.stubs (.word .realloc) caller args m = (.ok (.i32 0), m)))
      ∧ (∀ addr contents, m.activeMemory = .ok (addr, contents) → ptr ≠ 0 → size = 0 →
        engine.stubs (.word .realloc) caller args m
            = (.ok (.i32 0), m.withHeap (m.host.heap.free ptr))
          ∧ ∀ q, (m.host.heap.free ptr).sizeOf? q = if ptr = q then none else m.host.heap.sizeOf? q)
      ∧ (∀ err, m.activeMemory = .error err →
        engine.stubs (.word .realloc) caller args m = (.error (.ofMemoryError err), m))
      ∧ (ptr = 0 →
        engine.stubs (.word .realloc) caller args m
          = engine.stubs (.word .malloc) caller [.i32 size] m)
      ∧ ∀ (config : Config) (source : ModuleSource ModuleObject) (sink : Sink)
          (start : Run Function) (requests : List (Run.Request Function)) (m' : Machine Function),
          Run.start config source sink = .ok start →
          Run.Moment engine loads requests start m' →
          ∃ calls' : List (HeapCall Function),
            HeapRun (.new config.heapBase) calls' m'.host.heap := by
  intro ptr size
  have hrecorded := hheap.recorded hbase
  refine ⟨fun addr contents old hactive hold hinside hsize => ?_,
    fun addr contents hactive hptr hsize => ?_, fun err hnone => ?_, fun hptr => ?_,
    fun config _ _ _ _ _ hstart hmoment => ?_⟩
  · have hptr : ptr ≠ 0 := hrecorded.ne_zero hbase hold
    refine ⟨fun hroom => ?_, fun hroom => ?_⟩
    · obtain ⟨block, contents', heap', hrun, hmoved⟩ :=
        realloc_of_hasRoom hrecorded hptr hactive hold hinside hroom
      refine ⟨block, contents', heap', ?_, ?_, hmoved, fun b hb => .inl ?_⟩
      · rw [stubs_realloc, hrun]
        rfl
      · refine Machine.activeMemory_withContents (m := m.withHeap heap') hactive ?_ contents'
        have hpos := (hrecorded.inside ptr old hold).2.1
        have hbounds : ptr.toNat + old.toNat ≤ contents.size := hinside
        omega
      · exact Nat.le_trans (hheap.stop_le_top hbase b hb) (Nat.le_of_eq hmoved.placed.1.symm)
    · rw [stubs_realloc, realloc_of_refused hptr hsize hactive (Heap.alloc_of_not_hasRoom hroom)]
      rfl
  · refine ⟨?_, m.host.heap.sizeOf?_free ptr⟩
    rw [stubs_realloc, show Args.word args 1 = 0 from hsize, realloc_of_zero hptr hactive]
    rfl
  · rw [stubs_realloc, realloc_of_no_memory hnone]
    rfl
  · rw [stubs_realloc, stubs_malloc, show Args.word args 0 = 0 from hptr, realloc_of_null]
    rfl
  · exact heapRun_of_moment hstart hmoment

/-- A block of ten bytes becomes one of twenty, or none; one of sixteen mebibytes does not fit. -/
theorem realloc_keeps_ten_bytes :
    let m := (sampleCall .malloc rfl [10] (.initial .default (.ofList []) .accepting)).after
    let caller : Caller Function := ⟨[], loadModule (engine.invoke 0)⟩
    ∃ contents, m.activeMemory = .ok (0, contents) ∧ m.host.heap.sizeOf? 16384 = some 10
      ∧ (∃ contents' heap', (engine.stubs (.word .realloc) caller [.i32 16384, .i32 20] m).1
            = .ok (.i32 16400) ∧ Moved contents contents' m.host.heap heap' 16384 10 20 16400)
      ∧ engine.stubs (.word .realloc) caller [.i32 16384, .i32 16777216] m = (.ok (.i32 0), m)
      ∧ engine.stubs (.word .realloc) caller [.i32 16384, .i32 0] m
        = (.ok (.i32 0), m.withHeap (m.host.heap.free 16384))
      ∧ engine.stubs (.word .realloc) caller [.i32 0, .i32 20] m
        = engine.stubs (.word .malloc) caller [.i32 20] m := by
  intro m caller
  have hheap : HeapRun (.new 16384) [sampleCall .malloc rfl [10] (.initial .default (.ofList [])
      .accepting)] m.host.heap := .cons rfl (.nil _)
  have hsize : m.host.heap.sizeOf? 16384 = some 10 := by decide +kernel
  have hactive : m.activeMemory = .ok (0, (m.store.memoryAt 0).contents) := rfl
  have hinside : (m.store.memoryAt 0).contents.InBounds 16384 10 := by decide +kernel
  have hkeeps := realloc_keeps_contents (by decide) hheap caller
  refine ⟨_, hactive, hsize, ?_, ?_, ?_, ?_⟩
  · obtain ⟨hmoves, -⟩ := hkeeps [.i32 16384, .i32 20]
    have hroom : m.host.heap.HasRoom 20 (m.store.memoryAt 0).contents.size := by decide +kernel
    obtain ⟨block, contents', heap', hrun, -, hmoved, -⟩ :=
      (hmoves _ _ _ hactive hsize hinside (by decide)).1 hroom
    have htop : m.host.heap.top = 16400 := by decide +kernel
    have hblock : block = 16400 := UInt32.toNat_inj.1 (hmoved.placed.1.trans htop)
    subst hblock
    exact ⟨contents', heap', congrArg Prod.fst hrun, hmoved⟩
  · obtain ⟨hmoves, -⟩ := hkeeps [.i32 16384, .i32 16777216]
    have hroom : ¬ m.host.heap.HasRoom 16777216 (m.store.memoryAt 0).contents.size := by
      decide +kernel
    exact (hmoves _ _ _ hactive hsize hinside (by decide)).2 hroom
  · exact ((hkeeps [.i32 16384, .i32 0]).2.1 _ _ hactive (by decide) rfl).1
  · exact (hkeeps [.i32 0, .i32 20]).2.2.2.1 rfl

end Libc

end WasmHost
