import WasmHost.Proofs.Libc.Failures
import WasmHost.Proofs.Libc.Pending
import WasmHost.Proofs.Libc.Reallocation
import WasmHost.Proofs.Memory.StringWrites
import WasmHost.Proofs.Text.Encoding

set_option autoImplicit false

/-! # What dlerror gives back

`dlerror` takes the message of the latest failure and then looks for a block to copy it to. If there
is room it gives back the address of the copy; if there is not, it gives back zero, as if nothing
had failed, and the message is lost (`Libc.Reported`).

The main result is `Libc.dlerror_reports`, for every call of `dlerror` in every run. A run in which
a message is lost is in `Libc.dlerror_loses_message`. -/

namespace WasmHost

open WasmHost.Action

variable {ι : Type}

/-! ## Copies of strings -/

/-- The block that a copy of the string gets, with its zero byte, and the heap after that; none if
    there is no room. -/
def Machine.blockFor? (m : Machine ι) (s : List UInt8) : Option (UInt32 × Heap) :=
  if s.length + 1 < UInt32.size then m.host.heap.alloc (s.length.toUInt32 + 1) m.limit else none

section

variable {m : Machine ι} {s : List UInt8} {ptr : UInt32} {heap : Heap}

theorem Machine.allocated_of_blockFor? (h : m.blockFor? s = some (ptr, heap)) :
    s.length + 1 < UInt32.size
      ∧ m.host.heap.alloc (s.length.toUInt32 + 1) m.limit = some (ptr, heap) := by
  rw [blockFor?] at h
  split at h
  · exact ⟨‹_›, h⟩
  · cases h

/-- The block starts where no block has been before. -/
theorem Machine.next_le_of_blockFor? (h : m.blockFor? s = some (ptr, heap)) :
    m.host.heap.next.toNat ≤ ptr.toNat :=
  (Heap.allocated (allocated_of_blockFor? h).2).above

/-- A string for which there is room is copied. -/
theorem allocateString_of_room (h : m.blockFor? s = some (ptr, heap)) :
    ∃ m', allocateString s m = (.ok ptr, m') ∧ m'.HoldsString ptr s
      ∧ m'.host = { m.host with heap := heap } := by
  obtain ⟨hlength, h⟩ := Machine.allocated_of_blockFor? h
  have hinside := (Heap.allocated h).inside
  rw [WordFault.toNat_add_one hlength] at hinside
  have hlimit : 0 < m.limit := by omega
  obtain ⟨addr, contents, hactive, hlimit⟩ := Machine.activeMemory_of_lt_limit hlimit
  rw [hlimit] at h hinside
  obtain ⟨contents', hwrite, -⟩ := LinearMemory.writeString_of_inBounds hinside
  have hwritten : onMemory (.writeString ptr s) (m.withHeap heap)
      = (.ok (), (m.withHeap heap).withContents addr contents') := onMemory_withHeap hactive hwrite
  have hstored : storeString (s.length.toUInt32 + 1) s m
      = (.ok ptr, (m.withHeap heap).withContents addr contents') := by
    rw [storeString, bind_apply_of_ok (allocate?_of_some hactive h)]
    exact bind_apply_of_ok hwritten
  refine ⟨_, ?_, Machine.holdsString_onMemory hwritten, rfl⟩
  rw [allocateString_of_active hactive, WordFault.add_one_of_lt hlength]
  exact WordFault.lift_of_ok hstored

/-- A string for which there is no room is not copied. -/
theorem allocateString_of_no_room (hactive : ∃ active, m.activeMemory = .ok active)
    (h : m.blockFor? s = none) :
    allocateString s m = (.ok 0, m) ∨ Libc.Overlong m s
      ∨ UInt32.size ≤ s.length ∧ ∃ err, (allocateString s m).1 = .error (.memory err) := by
  obtain ⟨⟨addr, contents⟩, hactive⟩ := hactive
  have hlimit : m.limit = contents.size := by rw [Machine.limit, hactive]
  rw [allocateString_of_active hactive]
  rcases hadd : WordFault.add s.length.toUInt32 1 with fault | size
  · obtain rfl := WordFault.add_eq_error hadd
    exact .inr (.inl ⟨⟨_, hactive⟩, WordFault.add_one_eq_overflow_iff.1 hadd⟩)
  dsimp only
  rcases halloc : m.host.heap.alloc size contents.size with _ | ⟨ptr, heap⟩
  · exact .inl (WordFault.lift_of_ok (bind_apply_of_ok (allocate?_of_none hactive halloc)))
  have hlength : UInt32.size ≤ s.length := by
    rw [Machine.blockFor?, hlimit] at h
    split at h
    · rw [WordFault.add_one_of_lt ‹_›] at hadd
      cases hadd
      cases halloc.symm.trans h
    · -- the one length in between is that of a string whose size overflows
      rename_i hlong
      by_cases heq : s.length + 1 = UInt32.size
      · cases hadd.symm.trans (WordFault.add_one_of_eq heq)
      · omega
  refine .inr (.inr ⟨hlength, ?_⟩)
  rcases hwrite : (onMemory (.writeString ptr s) : Action ι MemoryError Unit) (m.withHeap heap)
    with ⟨err | _, m'⟩
  · have hstored : storeString size s m = (.error err, m') := by
      rw [storeString, bind_apply_of_ok (allocate?_of_some hactive halloc)]
      exact bind_apply_of_error hwrite
    exact ⟨err, congrArg Prod.fst (WordFault.lift_of_error hstored)⟩
  · have hlt := Libc.lt_of_writeString (congrArg Prod.fst hwrite)
    omega

end

/-! ## Replies -/

theorem Machine.blockFor?_forgetting (m : Machine ι) (s : List UInt8) :
    m.forgetting.blockFor? s = m.blockFor? s := rfl

namespace Libc

/-- What a call of `dlerror` gives back for a message. -/
inductive Reported [Budget] (c : StubCall Function) (message : List UInt8) : Prop where
  /-- There is room: a block that starts where no block has been before gets a copy, and its address
      is given back. -/
  | copied (ptr : UInt32) (heap : Heap) (m' : Machine Function)
      (hroom : c.before.blockFor? message = some (ptr, heap))
      (hfresh : c.before.host.heap.next.toNat ≤ ptr.toNat)
      (hrun : c.run engine = (.ok (c.type.resultsOf (.i32 ptr)), m'))
      (hcopy : m'.HoldsString ptr message) (hheap : m'.host.heap = heap)
  /-- There is no room: zero is given back, as if there were no message. -/
  | lost (hroom : c.before.blockFor? message = none)
      (hrun : c.run engine = (.ok (c.type.resultsOf (.i32 0)), c.before.forgetting))
  /-- The size of the block overflows, and the host panics. -/
  | overlong (hlong : message.length % UInt32.size = UInt32.size - 1)
      (hrun : (c.run engine).2.panicked = true)
  /-- The message is so long that it does not fit into the block whose size is asked for. -/
  | tooLong (hlong : UInt32.size ≤ message.length)
      (hrun : ∃ failure, (c.run engine).1 = .error failure)

section

variable {c : StubCall Function}

theorem reported_of_pending [Budget] (hasks : Asks c) {message : String}
    (hpending : c.before.pendingError = some message)
    (hactive : ∃ active, c.before.activeMemory = .ok active) :
    Reported c (Utf8.encode message) := by
  have hrun := run_of_asks hasks
  rw [dlerror_of_some hpending, orPanic_apply] at hrun
  rcases hroom : c.before.blockFor? (Utf8.encode message) with _ | ⟨ptr, heap⟩
  · have hactive' : ∃ active, c.before.forgetting.activeMemory = .ok active := hactive
    rw [← Machine.blockFor?_forgetting] at hroom
    rcases allocateString_of_no_room hactive' hroom with hnone | hlong | ⟨hlong, err, herr⟩
    · rw [show allocateString message.toUTF8.data.toList c.before.forgetting = _ from hnone] at hrun
      exact .lost hroom hrun
    · have hover : Overflows c := by
        rw [Overflows, show c.stub = _ from hasks]
        exact ⟨message, hpending, hlong⟩
      have hload : c.stub.loaded? loads c.args c.before = none := by
        rw [show c.stub = _ from hasks]
        rfl
      exact .overlong hlong.2 ((run_panicked hload).2 (.inr hover))
    · refine .tooLong hlong ⟨.ofMemoryError err, ?_⟩
      rw [hrun, show (allocateString message.toUTF8.data.toList c.before.forgetting).1 = _ from herr]
      rfl
  · rw [← Machine.blockFor?_forgetting] at hroom
    obtain ⟨m', hcopied, hcopy, hhost⟩ := allocateString_of_room hroom
    rw [show allocateString message.toUTF8.data.toList c.before.forgetting = _ from hcopied] at hrun
    exact .copied ptr heap m' hroom (Machine.next_le_of_blockFor? hroom) hrun hcopy (by rw [hhost])

end

/-! ## Runs -/

section

variable {config : Config} {source : ModuleSource ModuleObject} {sink : Sink} {start : Run Function}
  {requests : List (Run.Request Function)} {earlier later : List (StubCall Function)}
  {c : StubCall Function}

/-- No message is kept at the start. -/
theorem recalls_of_start [Budget] (hstart : Run.start config source sink = .ok start)
    (hcalls : Run.callsOf engine loads requests start = earlier ++ c :: later) (hasks : Asks c) :
    Recalls none earlier c.before.pendingError := by
  have hrecalls := recalls_of_callsOf hcalls hasks
  have hinitial : start.machine.pendingError = none := by
    cases Run.start_eq_ok hstart
    rfl
  rwa [hinitial] at hrecalls

/-- The message of the latest failure is told. -/
theorem reported_of_latestFailure [Budget] (hstart : Run.start config source sink = .ok start)
    (hcalls : Run.callsOf engine loads requests start = earlier ++ c :: later) (hasks : Asks c)
    {err : LinkError} (hlatest : LatestFailure earlier err) :
    Reported c (Utf8.encode err.fullMessage) := by
  have hmem : c ∈ Run.callsOf engine loads requests start := by simp [hcalls]
  obtain ⟨addr, contents, hactive⟩ := active_of_moment hstart (.call c hmem)
  have hpending := (recalls_of_start hstart hcalls hasks).eq_some hlatest
  exact reported_of_pending hasks hpending ⟨(addr, contents), hactive⟩

end

/-- **Messages of failures.** A call of `dlerror` in a run gives back zero and does nothing if no
    call of the dynamic loader has failed since the last call of `dlerror`, or since the start.
    Otherwise it copies the message of the latest failure if there is room for it, to an address
    that is not zero unless the heap starts there. In any case nothing is left to tell for a second
    call right after it. -/
theorem dlerror_reports [Budget] {config : Config} {source : ModuleSource ModuleObject}
    {sink : Sink} {start : Run Function} (hstart : Run.start config source sink = .ok start)
    {requests : List (Run.Request Function)} {earlier later : List (StubCall Function)}
    {c : StubCall Function}
    (hcalls : Run.callsOf engine loads requests start = earlier ++ c :: later) (hasks : Asks c) :
    (FailedSince earlier ↔ ∃ err, LatestFailure earlier err)
      ∧ (¬ FailedSince earlier → c.run engine = (.ok (c.type.resultsOf (.i32 0)), c.before))
      ∧ (∀ err, LatestFailure earlier err → Reported c (Utf8.encode err.fullMessage))
      ∧ (config.heapBase ≠ 0 → ∀ message ptr heap,
          c.before.blockFor? message = some (ptr, heap) → ptr ≠ 0)
      ∧ dlerror (c.run engine).2 = (.ok 0, (c.run engine).2) := by
  have hmem : c ∈ Run.callsOf engine loads requests start := by simp [hcalls]
  have hmoment : Run.Moment engine loads requests start c.before := .call c hmem
  have hrecalls := recalls_of_start hstart hcalls hasks
  refine ⟨failedSince_iff, fun hnone => ?_,
    fun err hlatest => reported_of_latestFailure hstart hcalls hasks hlatest, fun hbase => ?_, ?_⟩
  · rw [run_of_asks hasks, dlerror_of_none (hrecalls.eq_none_iff.2 hnone)]
    rfl
  · intro message ptr heap hroom hzero
    obtain ⟨calls, hheap⟩ := heapRun_of_moment hstart hmoment
    have habove : config.heapBase.toNat ≤ ptr.toNat :=
      Nat.le_trans (hheap.recorded hbase).base_le (Machine.next_le_of_blockFor? hroom)
    rw [hzero] at habove
    exact hbase (UInt32.toNat_inj.1 (Nat.le_zero.1 habove))
  · refine dlerror_of_none ?_
    rw [run_of_asks hasks]
    exact pendingError_dlerror c.before

/-- The functions of the library that the sample program uses. -/
def messageLibraries : List (StubLibrary Function) :=
  [⟨"sample",
    [("malloc", .implemented (.word .malloc)), ("dlclose", .implemented (.word .dlclose)),
      ("dlerror", .implemented (.word .dlerror))]⟩]

/-- A main module that takes a block of `size` bytes, closes a library that is not open, and tells
    whether `dlerror` gives zero. -/
def closingProgram (size : UInt32) : WasmModule :=
  { WasmModule.empty with
    imports :=
      [⟨"env", "memory", .memory ⟨1, none⟩⟩, ⟨"env", "malloc", .func ⟨[.i32], [.i32]⟩⟩,
        ⟨"env", "dlclose", .func ⟨[.i32], [.i32]⟩⟩, ⟨"env", "dlerror", .func ⟨[], [.i32]⟩⟩]
    funcs :=
      [⟨⟨[], [.i32]⟩, [],
        [.const (.i32 size), .call 0, .drop, .const (.i32 5), .call 1, .drop, .call 2, .wordEqz]⟩]
    exports := [⟨"main", .func, 3⟩] }

/-- Whether the calls are those of the sample program, and the copy of the message gets a block at
    `room`. -/
def isClosingRun (room : Option UInt32) : List (StubCall Function) → Bool
  | [_, close, ask] =>
      isCallOf (.word .dlclose) close && close.args == [.i32 5]
        && (close.before.host.libraries.library? 5).isNone
        && isCallOf (.word .dlerror) ask && ask.type.results == [.i32]
        && (ask.before.blockFor? (Utf8.encode "invalid library handle 5")).map Prod.fst == room
  | _ => false

theorem closing_message :
    (LinkError.ofKind (.invalidHandle 5)).fullMessage = "invalid library handle 5" := by
  decide

/-- Then the last call is one of `dlerror`, and the one before it has failed. -/
theorem failed_of_isClosingRun [Budget] {room : Option UInt32} {calls : List (StubCall Function)}
    (h : isClosingRun room calls = true) :
    ∃ earlier c, calls = earlier ++ [c] ∧ Asks c ∧ c.type.results = [.i32]
      ∧ LatestFailure earlier (LinkError.ofKind (.invalidHandle 5))
      ∧ (c.before.blockFor? (Utf8.encode "invalid library handle 5")).map Prod.fst = room := by
  rw [isClosingRun.eq_def] at h
  split at h
  case h_2 => cases h
  rename_i first close ask
  simp only [Bool.and_eq_true, beq_iff_eq, Option.isNone_iff_eq_none] at h
  obtain ⟨⟨⟨⟨⟨hclose, hargs⟩, hclosed⟩, hask⟩, hresults⟩, hroom⟩ := h
  have hfails := DlFails.closing (stub_of_isCallOf hclose) (by rw [hargs]; exact hclosed)
  rw [hargs] at hfails
  refine ⟨[first, close], ask, rfl, stub_of_isCallOf hask, hresults, ?_, hroom⟩
  exact ⟨[first], close, [], rfl, hfails, fun _ h => absurd h List.not_mem_nil⟩

/-- The message is copied to the block after the first one. -/
theorem dlerror_reports_closing :
    let start : Run Function :=
      ⟨.initial ⟨1, 16384, "main", []⟩ (twoModules (closingProgram 16) exitingLibrary) .accepting,
        .initializing, [], none⟩
    let requests : List (Run.Request Function) :=
      [.addStubs messageLibraries, .loadModules [], .loadMain "main", .execute]
    ∃ earlier c, Run.callsOf engine loads requests start = earlier ++ [c] ∧ Asks c
      ∧ LatestFailure earlier (LinkError.ofKind (.invalidHandle 5))
      ∧ ∃ m', c.run engine = (.ok [.i32 16400], m')
        ∧ m'.HoldsString 16400 (Utf8.encode "invalid library handle 5")
        ∧ dlerror m' = (.ok 0, m') := by
  intro start requests
  have hstart : Run.start ⟨1, 16384, "main", []⟩ (twoModules (closingProgram 16) exitingLibrary)
      .accepting = .ok start := by
    rw [Run.start_eq, if_pos (by decide)]
  have hclosing : isClosingRun (some 16400) (Run.callsOf engine loads requests start) = true := by
    decide +kernel
  obtain ⟨earlier, c, hcalls, hasks, hresults, hlatest, hroom⟩ := failed_of_isClosingRun hclosing
  refine ⟨earlier, c, hcalls, hasks, hlatest, ?_⟩
  obtain ⟨-, -, hreported, -, hsecond⟩ := dlerror_reports hstart hcalls hasks
  have hreported := hreported _ hlatest
  rw [closing_message] at hreported
  obtain ⟨⟨ptr, heap⟩, hblock, rfl⟩ := Option.map_eq_some_iff.1 hroom
  cases hreported with
  | copied ptr' heap' m' hroom' _ hrun hcopy _ =>
      cases hblock.symm.trans hroom'
      rw [hrun] at hsecond
      rw [FuncType.resultsOf, hresults] at hrun
      exact ⟨m', hrun, hcopy, hsecond⟩
  | lost hnone => cases hblock.symm.trans hnone
  | overlong hlong => exact absurd hlong (by decide)
  | tooLong hlong => exact absurd hlong (by decide)

/-- If the block of the program takes all of the memory, the message is lost. -/
theorem dlerror_loses_message :
    let start : Run Function :=
      ⟨.initial ⟨1, 16384, "main", []⟩ (twoModules (closingProgram 49152) exitingLibrary)
        .accepting, .initializing, [], none⟩
    let requests : List (Run.Request Function) :=
      [.addStubs messageLibraries, .loadModules [], .loadMain "main", .execute]
    ∃ earlier c, Run.callsOf engine loads requests start = earlier ++ [c] ∧ Asks c
      ∧ FailedSince earlier ∧ c.before.pendingError = some "invalid library handle 5"
      ∧ (c.run engine).1 = .ok [.i32 0] ∧ (c.run engine).2.pendingError = none := by
  intro start requests
  have hstart : Run.start ⟨1, 16384, "main", []⟩ (twoModules (closingProgram 49152) exitingLibrary)
      .accepting = .ok start := by
    rw [Run.start_eq, if_pos (by decide)]
  have hclosing : isClosingRun none (Run.callsOf engine loads requests start) = true := by
    decide +kernel
  obtain ⟨earlier, c, hcalls, hasks, hresults, hlatest, hroom⟩ := failed_of_isClosingRun hclosing
  have hpending := (recalls_of_start hstart hcalls hasks).eq_some hlatest
  rw [closing_message] at hpending
  refine ⟨earlier, c, hcalls, hasks, failedSince_iff.2 ⟨_, hlatest⟩, hpending, ?_, ?_⟩
  · have hreported := reported_of_latestFailure hstart hcalls hasks hlatest
    rw [closing_message] at hreported
    cases hreported with
    | copied _ _ _ hsome => simp [hsome] at hroom
    | lost _ hrun =>
        rw [hrun, FuncType.resultsOf, hresults]
        rfl
    | overlong hlong => exact absurd hlong (by decide)
    | tooLong hlong => exact absurd hlong (by decide)
  · rw [run_of_asks hasks]
    exact pendingError_dlerror c.before

end Libc

end WasmHost
