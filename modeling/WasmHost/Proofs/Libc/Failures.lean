import WasmHost.Libc.Tables
import WasmHost.Proofs.Libc.Faults
import WasmHost.Proofs.Libc.Layout
import WasmHost.Proofs.Libc.WordArithmetic

set_option autoImplicit false

/-! # How functions of the C library fail

A function of the library fails because it ends the program, because it has no implementation, or
because it needs bytes outside the active memory; `Libc.failures_classified` says so for every entry
of the tables and every moment of a run. A memory is active at every moment, so no access ever fails
for want of one. -/

namespace WasmHost

open WasmHost.Action

variable {ι ε ε' α β : Type}

/-! ## Actions that stay inside the memory -/

/-- The active memory has `size` bytes. -/
def Machine.HasMemory (m : Machine ι) (size : Nat) : Prop :=
  ∃ addr contents, m.activeMemory = .ok (addr, contents) ∧ contents.size = size

theorem Machine.HasMemory.congr {m m' : Machine ι} {size : Nat} (h : m.HasMemory size)
    (harena : m'.host.arena = m.host.arena) (hstore : m'.store = m.store) : m'.HasMemory size := by
  obtain ⟨addr, contents, hactive, hsize⟩ := h
  refine ⟨addr, contents, ?_, hsize⟩
  rw [← hactive, activeMemory, activeMemory, harena, hstore]

/-- Other contents of the same size do not change the size. -/
theorem Store.size_setContents (s : Store ι) (addr : Nat) {contents : LinearMemory}
    (h : contents.size = (s.memoryAt addr).contents.size) :
    ((s.setContents addr contents).memoryAt addr).contents.size
      = (s.memoryAt addr).contents.size := by
  by_cases haddr : addr < s.memories.size
  · rw [s.memoryAt_setContents haddr, h]
  · rw [setContents, setMemory, Array.setIfInBounds_eq_of_size_le (Nat.le_of_not_lt haddr)]

namespace Action

/-- With an active memory of less than 2³² bytes the computation keeps its size, and it fails only in
    the ways that are listed for the size. -/
def Confined (P : Nat → ε → Prop) (x : Action ι ε α) : Prop :=
  ∀ m size, m.HasMemory size → size < UInt32.size →
    (x m).2.HasMemory size ∧ ∀ err, (x m).1 = .error err → P size err

variable {P : Nat → ε → Prop}

theorem Confined.pure (a : α) : Confined P (pure a : Action ι ε α) :=
  fun _ _ hm _ => ⟨hm, fun _ h => by cases h⟩

theorem Confined.fail {err : ε} (h : ∀ size, P size err) :
    Confined P (ofExcept (.error err) : Action ι ε α) := by
  intro m size hm _
  refine ⟨hm, fun err' heq => ?_⟩
  cases heq
  exact h size

theorem Confined.bind {x : Action ι ε α} {f : α → Action ι ε β} (hx : Confined P x)
    (hf : ∀ a, Confined P (f a)) : Confined P (x >>= f) := by
  intro m size hm hsize
  obtain ⟨hm', hfails⟩ := hx m size hm hsize
  rcases hr : x m with ⟨err | a, m'⟩ <;> rw [hr] at hm' hfails
  · rw [bind_apply_of_error hr]
    refine ⟨hm', fun err' heq => ?_⟩
    cases heq
    exact hfails err rfl
  · rw [bind_apply_of_ok hr]
    exact hf a m' size hm' hsize

theorem Confined.mapError {P' : Nat → ε' → Prop} {f : ε → ε'} {x : Action ι ε α}
    (h : ∀ size err, P size err → P' size (f err)) (hx : Confined P x) :
    Confined P' (x.mapError f) := by
  intro m size hm hsize
  obtain ⟨hm', hfails⟩ := hx m size hm hsize
  rw [mapError_apply]
  refine ⟨hm', fun err' heq => ?_⟩
  rcases hr : (x m).1 with err | a <;> rw [hr] at heq <;> cases heq
  exact h size err (hfails err hr)

theorem Confined.getHost : Confined P (getHost : Action ι ε (Host ι)) :=
  fun _ _ hm _ => ⟨hm, fun _ h => by cases h⟩

theorem Confined.getStore : Confined P (getStore : Action ι ε (Store ι)) :=
  fun _ _ hm _ => ⟨hm, fun _ h => by cases h⟩

theorem Confined.modifyHost {f : Host ι → Host ι} (h : ∀ host, (f host).arena = host.arena) :
    Confined P (modifyHost f : Action ι ε Unit) :=
  fun m _ hm _ => ⟨hm.congr (h m.host) rfl, fun _ h => by cases h⟩

theorem Confined.look {f : LinearMemory → Except MemoryError α}
    (h : ∀ m, FailsOutside m.size (f m)) :
    Confined MemoryError.Outside (look f : Action ι MemoryError α) := by
  intro m size hm _
  obtain ⟨addr, contents, hactive, rfl⟩ := hm
  refine ⟨⟨addr, contents, hactive, rfl⟩, fun err heq => h contents err ?_⟩
  rw [← heq, Action.look, hactive]
  rfl

theorem Confined.onContents {fail : MemoryError → ε} {x : ExceptT ε (StateM LinearMemory) α}
    (hx : ∀ m : LinearMemory, m.size < UInt32.size →
      (x m).2.size = m.size ∧ ∀ err, (x m).1 = .error err → P m.size err) :
    Confined P (onContents fail x : Action ι ε α) := by
  intro m size hm hsize
  obtain ⟨addr, contents, hactive, rfl⟩ := hm
  obtain ⟨harena, rfl⟩ := active_of_activeMemory hactive
  obtain ⟨hkeeps, hfails⟩ := hx _ hsize
  rw [onContents_of_active harena]
  exact ⟨⟨addr, _, activeMemory_of_active harena, Store.size_setContents _ _ hkeeps⟩, hfails⟩

theorem Confined.onMemory {x : MemoryAction α} (hx : x.Confined) :
    Confined MemoryError.Outside (onMemory x : Action ι MemoryError α) :=
  .onContents hx

/-- An access outside a memory of `size` bytes is refused, and nothing overflows. -/
def AccessOutside (size : Nat) (fault : WordFault) : Prop := fault.IsAccess (·.Outside size)

theorem Confined.lift {x : Action ι MemoryError α} (hx : Confined MemoryError.Outside x) :
    Confined AccessOutside (WordFault.lift x : Action ι WordFault α) :=
  hx.mapError fun _ _ h => h

theorem Confined.allocate? (size : UInt32) :
    Confined MemoryError.Outside (allocate? size : Action ι MemoryError (Option UInt32)) := by
  intro m limit hm _
  have hmemory := hm
  obtain ⟨addr, contents, hactive, rfl⟩ := hm
  rw [Action.allocate?, hactive]
  dsimp only
  split
  · exact ⟨hmemory.congr rfl rfl, fun _ h => by cases h⟩
  · exact ⟨hmemory, fun _ h => by cases h⟩

end Action

namespace Libc

/-! ## The functions -/

theorem allocate_confined (size : UInt32) :
    Confined MemoryError.Outside (allocate size : Action ι MemoryError UInt32) :=
  (Confined.allocate? size).bind fun _ => .pure _

theorem allocateZeroed?_confined (size : UInt32) :
    Confined MemoryError.Outside (allocateZeroed? size : Action ι MemoryError (Option UInt32)) := by
  refine (Confined.allocate? size).bind fun block => ?_
  rcases block with _ | ptr
  · exact .pure _
  · exact (Confined.onMemory (MemoryAction.Confined.fill ptr 0 size)).bind fun _ => .pure _

theorem storeString_confined (size : UInt32) (s : List UInt8) :
    Confined MemoryError.Outside (storeString size s : Action ι MemoryError UInt32) := by
  refine (Confined.allocate? _).bind fun block => ?_
  rcases block with _ | ptr
  · exact .pure _
  · exact (Confined.onMemory (MemoryAction.Confined.writeString ptr s)).bind fun _ => .pure _

theorem requireMemory_confined :
    Confined MemoryError.Outside (requireMemory : Action ι MemoryError Unit) :=
  .look fun _ _ h => by cases h

theorem allocateString_confined {s : List UInt8}
    (hs : s.length % UInt32.size ≠ UInt32.size - 1) :
    Confined AccessOutside (allocateString s : Action ι WordFault UInt32) := by
  refine requireMemory_confined.lift.bind fun _ => ?_
  rcases hadd : WordFault.add s.length.toUInt32 1 with fault | size
  · obtain rfl := WordFault.add_eq_error hadd
    exact absurd (WordFault.add_one_eq_overflow_iff.1 hadd) hs
  · exact (Confined.pure size).bind fun size => (storeString_confined size s).lift

/-- A string of a memory of less than 2³² bytes has a size. -/
theorem strdup_confined (ptr : UInt32) :
    Confined AccessOutside (strdup ptr : Action ι WordFault UInt32) := by
  intro m size hm hsize
  have hlook := (Confined.look fun m => m.string_outside ptr).lift m size hm hsize
  have hrun : (WordFault.lift (look (·.string ptr)) : Action ι WordFault (List UInt8)) m
      = ((m.stringAt ptr).mapError .memory, m) := rfl
  rw [hrun] at hlook
  rcases hs : m.stringAt ptr with err | s <;> rw [hs] at hrun hlook
  · rw [strdup, bind_apply_of_error hrun]
    exact ⟨hm, fun fault h => hlook.2 fault (by cases h; rfl)⟩
  · obtain ⟨addr, contents, hactive, hlt⟩ := length_of_stringAt hs
    obtain ⟨addr', contents', hactive', rfl⟩ := hm
    cases hactive.symm.trans hactive'
    rw [strdup, bind_apply_of_ok hrun]
    refine allocateString_confined ?_ m _ ⟨addr, contents, hactive, rfl⟩ hsize
    rw [Nat.mod_eq_of_lt (by omega)]
    omega

theorem free_confined {P : Nat → ε → Prop} (ptr : UInt32) :
    Confined P (free ptr : Action ι ε Unit) :=
  .modifyHost fun _ => rfl

theorem realloc_confined (ptr size : UInt32) :
    Confined MemoryError.Outside (realloc ptr size : Action ι MemoryError UInt32) := by
  rw [realloc]
  split
  · exact allocate_confined size
  refine requireMemory_confined.bind fun _ => ?_
  split
  · exact (free_confined ptr).bind fun _ => .pure _
  · refine Confined.getHost.bind fun host => (Confined.allocate? size).bind fun block => ?_
    rcases block with _ | block
    · exact .pure _
    · exact (Confined.onMemory (MemoryAction.Confined.copyWithin _ _ _)).bind fun _ =>
        (free_confined ptr).bind fun _ => .pure _

theorem calloc_confined (count size : UInt32) :
    Confined MemoryError.Outside (calloc count size : Action ι MemoryError UInt32) := by
  rw [calloc]
  split
  · exact (allocateZeroed?_confined _).bind fun _ => .pure _
  · exact .pure _

/-- A function gives up because it is not implemented, or because it needs bytes outside the
    memory. -/
inductive GivesUp (size : Nat) : Failure → Prop where
  | unimplemented (what : String) : GivesUp size (.ofFault (.unimplemented what))
  | outside (addr len : Nat) (h : size < addr + len) :
      GivesUp size (.ofMemoryError (.outOfBounds addr len size))

theorem GivesUp.of_outside (size : Nat) (err : MemoryError) (h : err.Outside size) :
    GivesUp size (.ofMemoryError err) := by
  cases err with
  | outOfBounds addr len size' =>
      obtain ⟨rfl, h⟩ := h
      exact .outside addr len h
  | noActiveMemory | staleHandle => exact absurd h id

theorem notImplemented_confined (what : String) :
    Confined GivesUp (notImplemented what : Action ι Failure α) :=
  .fail fun _ => .unimplemented what

theorem string_confined (ptr : UInt32) :
    Confined GivesUp ((look (·.string ptr) : Action ι MemoryError (List UInt8)).mapError
      Failure.ofMemoryError) :=
  (Confined.look fun m => m.string_outside ptr).mapError GivesUp.of_outside

theorem replyWord_confined {x : Action ι MemoryError UInt32}
    (hx : Confined MemoryError.Outside x) : Confined GivesUp (replyWord x) :=
  (hx.mapError GivesUp.of_outside).bind fun _ => .pure _

theorem orPanic_confined {x : Action ι WordFault α} (hx : Confined AccessOutside x) :
    Confined GivesUp x.orPanic := by
  intro m size hm hsize
  obtain ⟨hm', hfails⟩ := hx m size hm hsize
  rw [orPanic_apply]
  refine ⟨hm'.congr (by rw [Machine.panicIf_host]) (Machine.panicIf_store _ _), fun err h => ?_⟩
  rcases hr : (x m).1 with (err' | _) | a <;> rw [hr] at h <;> cases h
  · exact GivesUp.of_outside size err' (hfails _ hr)
  · exact (hfails _ hr).elim

theorem replyChecked_confined {x : Action ι WordFault UInt32} (hx : Confined AccessOutside x) :
    Confined GivesUp (replyChecked x) :=
  (orPanic_confined hx).bind fun _ => .pure _

theorem mmap_confined (addr length prot fd : UInt32) :
    Confined GivesUp (mmap addr length prot fd : Action ι Failure UInt32) := by
  rw [mmap]
  split
  · exact notImplemented_confined _
  split
  · exact notImplemented_confined _
  split
  · exact notImplemented_confined _
  · exact .mapError GivesUp.of_outside ((allocateZeroed?_confined length).bind fun _ => .pure _)

theorem openDescriptor_confined : Confined GivesUp (openDescriptor : Action ι Failure UInt32) := by
  intro m size hm _
  rw [openDescriptor]
  split
  · exact ⟨hm.congr rfl rfl, fun _ h => by cases h⟩
  · exact ⟨hm, fun _ h => by cases h⟩

theorem closeDescriptor_confined (fd : Int32) :
    Confined GivesUp (closeDescriptor fd : Action ι Failure UInt32) := by
  intro m size hm _
  rw [closeDescriptor]
  split
  · exact ⟨hm.congr rfl rfl, fun _ h => by cases h⟩
  · exact ⟨hm, fun _ h => by cases h⟩

theorem textAt_confined (ptr : UInt32) : Confined GivesUp (textAt ptr : Action ι Failure String) := by
  rw [textAt]
  split
  · exact .pure _
  · exact (string_confined ptr).bind fun _ => .pure _

theorem failWith_confined (value : UInt32) (err : LinkError) :
    Confined GivesUp (failWith value err : Action ι Failure UInt32) :=
  (Confined.modifyHost fun _ => rfl).bind fun _ => .pure _

theorem growTable_confined (addr : Nat) (f : Func ι) :
    Confined GivesUp (growTable addr f : Action ι Failure (Option UInt32)) := by
  have hset (table : TableInstance ι) : Confined GivesUp
      (modifyStore (·.setTable addr table) : Action ι Failure Unit) := by
    intro m size hm _
    exact ⟨hm, fun _ h => by cases h⟩
  refine Confined.getStore.bind fun store => ?_
  dsimp only
  split
  · exact .pure _
  · exact (hset _).bind fun _ => .pure _

theorem dlsym_confined (caller : Caller ι) (handle symbol : UInt32) :
    Confined GivesUp (dlsym caller handle symbol) := by
  refine (textAt_confined symbol).bind fun name => Confined.getHost.bind fun host => ?_
  dsimp only
  split
  · exact failWith_confined 0 _
  · rw [functionPointer]
    split
    · refine (growTable_confined _ _).bind fun slot => ?_
      rcases slot with _ | slot
      · exact failWith_confined 0 _
      · exact .pure _
    · exact notImplemented_confined _
  · exact Confined.getStore.bind fun _ => .pure _
  · exact failWith_confined 0 _

theorem dlclose_confined (handle : UInt32) :
    Confined GivesUp (dlclose handle : Action ι Failure UInt32) := by
  refine Confined.getHost.bind fun host => ?_
  split
  · exact (Confined.modifyHost fun _ => rfl).bind fun _ => .pure _
  · exact failWith_confined _ _

theorem dlerror_givesUp {m : Machine ι} {size : Nat} (hm : m.HasMemory size)
    (hsize : size < UInt32.size) (hshort : ¬ KeepsOverlong m) {failure : Failure}
    (h : (dlerror m).1 = .error failure) : GivesUp size failure := by
  rcases hpending : m.pendingError with _ | message
  · rw [dlerror_of_none hpending] at h
    cases h
  · rw [dlerror_of_some hpending] at h
    have hmemory : m.forgetting.HasMemory size := hm.congr rfl rfl
    obtain ⟨addr, contents, hactive, -⟩ := hm
    have hlength : message.toUTF8.data.toList.length % UInt32.size ≠ UInt32.size - 1 :=
      fun hlong => hshort ⟨message, hpending, ⟨_, hactive⟩, hlong⟩
    exact (orPanic_confined (allocateString_confined hlength) m.forgetting size hmemory hsize).2
      failure h

/-- Opening a library fails only before a module is loaded. What goes wrong in a load is reported
    by the result. -/
theorem dlopen_givesUp {caller : Caller ι} {filename flags : UInt32} {m : Machine ι} {size : Nat}
    (hm : m.HasMemory size) (hsize : size < UInt32.size) {failure : Failure}
    (h : (dlopen caller filename flags m).1 = .error failure) : GivesUp size failure := by
  rw [dlopen_apply] at h
  split at h
  · cases h
    exact .unimplemented _
  have htext := (textAt_confined filename m size hm hsize).2
  rw [textAt_apply] at htext
  rcases hname : textOf m filename with failure' | name <;> rw [hname] at h htext
  · cases h
    exact htext failure rfl
  · dsimp only at h
    split at h <;> cases h

/-- The functions that end the program: the name they are known by, and the status. -/
inductive Ends (args : List Value) : Function → Failure → Prop where
  | exit (name : String) :
      Ends args (.word (.exit name))
        (.ofFault (.terminate (Args.word args 0).toInt32 (exitReason name (Args.word args 0).toInt32)))
  | abort : Ends args (.word .abort) (.ofFault (.terminate 1 "abort()"))

/-- **A function ends the program or gives up**, if it fails at all, or it is `dlerror` and keeps a
    message that is too long. -/
theorem Function.call_fails {f : Function} {caller : Caller ι} {args : List Value} {m : Machine ι}
    {size : Nat} (hm : m.HasMemory size) (hsize : size < UInt32.size) {failure : Failure}
    (h : (f.call caller args m).1 = .error failure) :
    Ends args f failure ∨ GivesUp size failure ∨ f = .word .dlerror ∧ KeepsOverlong m := by
  have of_confined {x : Action ι Failure Reply} (hx : Confined GivesUp x)
      (h : (x m).1 = .error failure) :
      Ends args f failure ∨ GivesUp size failure ∨ f = .word .dlerror ∧ KeepsOverlong m :=
    .inr (.inl ((hx m size hm hsize).2 failure h))
  have hemit (bytes : List UInt8) : Confined GivesUp (emit bytes : Action ι Failure Unit) :=
    .modifyHost fun _ => rfl
  rcases f with f | _ | f
  · cases h
  · cases h
  cases f with
  | exit name => cases h; exact .inl (.exit name)
  | abort => cases h; exact .inl .abort
  | dlopen =>
      rw [Function.call, WordFunction.call, bind_pure_apply] at h
      rcases hr : (dlopen caller (Args.word args 0) (Args.word args 1) m).1 with failure' | handle <;>
        rw [hr] at h <;> cases h
      exact .inr (.inl (dlopen_givesUp hm hsize hr))
  | charClass | tolower | toupper | abs | constant => cases h
  | query q =>
      exact of_confined (replyWord_confined (.look fun m => q.answer_outside _ m)) h
  | edit e =>
      exact of_confined (replyChecked_confined (.onContents fun m => e.perform_endsInside _)) h
  | malloc => exact of_confined (replyWord_confined (allocate_confined _)) h
  | calloc => exact of_confined (replyWord_confined (calloc_confined _ _)) h
  | realloc => exact of_confined (replyWord_confined (realloc_confined _ _)) h
  | strdup => exact of_confined (replyChecked_confined (strdup_confined _)) h
  | free =>
      have hfree : Confined GivesUp (WordFunction.free.call caller (Args.word args)) := by
        rw [WordFunction.call]
        split
        · exact (free_confined _).bind fun _ => .pure _
        · exact .pure _
      exact of_confined hfree h
  | mmap => exact of_confined ((mmap_confined _ _ _ _).bind fun _ => .pure _) h
  | atoi => exact of_confined ((string_confined _).bind fun _ => .pure _) h
  | putchar => exact of_confined ((hemit _).bind fun _ => .pure _) h
  | puts =>
      exact of_confined (Confined.bind ((string_confined _).bind fun _ => hemit _) fun _ => .pure _) h
  | openFile => exact of_confined (openDescriptor_confined.bind fun _ => .pure _) h
  | closeFile => exact of_confined ((closeDescriptor_confined _).bind fun _ => .pure _) h
  | dlsym => exact of_confined ((dlsym_confined caller _ _).bind fun _ => .pure _) h
  | dlclose => exact of_confined ((dlclose_confined _).bind fun _ => .pure _) h
  | dlerror =>
      by_cases hlong : KeepsOverlong m
      · exact .inr (.inr ⟨rfl, hlong⟩)
      rw [Function.call, WordFunction.call, bind_pure_apply] at h
      rcases hr : (Libc.dlerror m).1 with failure' | ptr <;> rw [hr] at h <;> cases h
      exact .inr (.inl (dlerror_givesUp hm hsize hlong hr))

/-! ## The tables -/

/-- The names of the functions that end the program with a status of its choice. -/
def exitNames : List String := ["exit", "_Exit", "quick_exit", "_exit"]

/-- Whether an entry that ends the program has one of the names for that. -/
def endsByName (entry : String × Stub Function) : Bool :=
  match entry.2 with
  | .implemented (.word (.exit name)) => name == entry.1 && exitNames.contains entry.1
  | .implemented (.word .abort) => entry.1 == "abort"
  | _ => true

theorem libraries_endByName : ∀ lib ∈ libraries, ∀ entry ∈ lib.entries, endsByName entry = true := by
  decide +kernel

/-- How a stub of the library can fail when the active memory has `size` bytes, and the outcome that
    is reported of a program which fails in this way. -/
inductive StubFails (name : String) (args : List Value) (size : Nat) : Failure → Outcome → Prop where
  /-- The status is in argument 0. -/
  | exited (h : name ∈ exitNames) (status : Int32) (hstatus : status = (Args.word args 0).toInt32) :
      StubFails name args size (.ofFault (.terminate status (exitReason name status)))
        (.terminated status (exitReason name status))
  | aborted (h : name = "abort") :
      StubFails name args size (.ofFault (.terminate 1 "abort()")) (.terminated 1 "abort()")
  | unimplemented (what : String) :
      StubFails name args size (.ofFault (.unimplemented what)) (.unimplemented what)
  /-- The `len` bytes at `addr` are not all in the memory. -/
  | outOfBounds (addr len : Nat) (h : size < addr + len) :
      StubFails name args size (.ofMemoryError (.outOfBounds addr len size))
        (.trap .memoryOutOfBounds)

/-- **A failed stub is classified.** -/
theorem callStub_fails [Budget] {lib : StubLibrary Function} (hlib : lib ∈ libraries)
    {entry : String × Stub Function} (hentry : entry ∈ lib.entries) {type : FuncType}
    {caller : Caller Function} {args : List Value} {m : Machine Function} {size : Nat}
    (hm : m.HasMemory size) (hsize : size < UInt32.size) {failure : Failure}
    (h : (engine.callStub entry.1 entry.2 type caller args m).1 = .error failure) :
    StubFails entry.1 args size failure (.classify failure)
      ∨ entry.2 = .implemented (.word .dlerror) ∧ KeepsOverlong m
        ∧ (engine.callStub entry.1 entry.2 type caller args m).2.panicked = true := by
  have hname := libraries_endByName lib hlib entry hentry
  obtain ⟨name, stub⟩ := entry
  rcases stub with f | _
  case placeholder =>
    cases h
    exact .inl (.unimplemented name)
  have hmachine := callStub_machine engine name f type caller args m
  rw [Engine.callStub, bind_pure_apply] at h
  have hcall : (f.call caller args m).1 = .error failure := by
    rcases hr : (f.call caller args m).1 with failure' | reply
    · rw [show (engine.stubs f caller args m).1 = _ from hr] at h
      cases h
      rfl
    · rw [show (engine.stubs f caller args m).1 = _ from hr] at h
      cases h
  rcases Function.call_fails hm hsize hcall with hends | hgives | ⟨rfl, hlong⟩
  · left
    cases hends with
    | exit name' =>
        obtain ⟨heq, hmem⟩ := Bool.and_eq_true_iff.1 hname
        have heq : name' = name := beq_iff_eq.1 heq
        subst heq
        exact .exited (List.contains_iff_mem.1 hmem) _ rfl
    | abort => exact .aborted (beq_iff_eq.1 hname)
  · left
    cases hgives with
    | unimplemented what => exact .unimplemented what
    | outside addr len hlt => exact .outOfBounds addr len hlt
  · refine .inr ⟨rfl, hlong, ?_⟩
    rw [hmachine]
    exact (WordFunction.call_panicked (fun h => (by cases h)) caller).2 (.inr hlong)

/-! ## Runs -/

/-- Every load leaves a memory active. -/
theorem preserves_active [Budget] :
    engine.Preserves loads (fun _ => True) fun m => ∃ addr, m.host.arena.active = .ok addr := by
  refine preserves_of_layout (fun m m' hlayout hm => ?_) (fun l _ w items _ hm => hm)
    (fun l _ w items _ _ m _ _ hm => ?_)
  · rw [hlayout.arena]
    exact hm
  · rw [Machine.finishLoad]
    split
    · exact hm
    · exact ⟨_, rfl⟩

/-- At every moment of a run a memory is active. -/
theorem active_of_moment [Budget] {config : Config} {source : ModuleSource ModuleObject}
    {sink : Sink} {start : Run Function} (hstart : Run.start config source sink = .ok start)
    {requests : List (Run.Request Function)} {m : Machine Function}
    (hm : Run.Moment engine loads requests start m) :
    ∃ addr contents, m.activeMemory = .ok (addr, contents) := by
  have hinitial : ∃ addr, start.machine.host.arena.active = .ok addr := by
    cases Run.start_eq_ok hstart
    exact ⟨0, rfl⟩
  obtain ⟨addr, hactive⟩ := hm.invariant stubs_lawful preserves_active (fun _ _ => trivial) hinitial
  exact ⟨addr, (m.store.memoryAt addr).contents, activeMemory_of_active hactive⟩

/-- **Failures of stubs are classified.** At every moment of a run a memory is active. If it has less
    than 2³² bytes, then a stub of the library, whatever it is called with, fails only by ending the
    program, which `abort` and the functions of the family of `exit` do, for want of an
    implementation, or by an access outside the active memory. Only `dlerror` can make the host
    panic instead, if the size of the block for its message overflows. -/
theorem failures_classified [Budget] {config : Config} {source : ModuleSource ModuleObject}
    {sink : Sink} {start : Run Function} (hstart : Run.start config source sink = .ok start)
    (requests : List (Run.Request Function)) {m : Machine Function}
    (hm : Run.Moment engine loads requests start m) :
    ∃ addr contents, m.activeMemory = .ok (addr, contents)
      ∧ (contents.size < UInt32.size →
          ∀ lib ∈ libraries, ∀ entry ∈ lib.entries, ∀ type caller args failure,
            (engine.callStub entry.1 entry.2 type caller args m).1 = .error failure →
              StubFails entry.1 args contents.size failure (.classify failure)
                ∨ entry.2 = .implemented (.word .dlerror) ∧ KeepsOverlong m
                  ∧ (engine.callStub entry.1 entry.2 type caller args m).2.panicked = true) := by
  obtain ⟨addr, contents, hactive⟩ := active_of_moment hstart hm
  refine ⟨addr, contents, hactive, fun hsize lib hlib entry hentry type caller args failure h => ?_⟩
  exact callStub_fails hlib hentry ⟨addr, contents, hactive, rfl⟩ hsize h

/-- A string at the end of a memory of one page is out of bounds. -/
theorem failures_classified_puts :
    let start : Run Function :=
      ⟨.initial ⟨1, 16384, "main", []⟩ (twoModules openingProgram exitingLibrary) .accepting,
        .initializing, [], none⟩
    let failure : Failure := .ofMemoryError (.outOfBounds 65536 1 65536)
    ∃ addr contents, start.machine.activeMemory = .ok (addr, contents) ∧ contents.size = 65536
      ∧ (engine.callStub "puts" (.implemented (.word .puts)) ⟨[.i32], [.i32]⟩
          ⟨[], loadModule engine.calls⟩ [.i32 65536] start.machine).1 = .error failure
      ∧ StubFails "puts" [.i32 65536] contents.size failure (.classify failure) := by
  intro start failure
  have hstart : Run.start ⟨1, 16384, "main", []⟩ (twoModules openingProgram exitingLibrary)
      .accepting = .ok start := by
    rw [Run.start_eq, if_pos (by decide)]
  have hsize : (start.machine.activeMemory.toOption.map fun active => active.2.size)
      = some 65536 := by
    decide +kernel
  have hfails : failureOf (engine.callStub "puts" (.implemented (.word .puts)) ⟨[.i32], [.i32]⟩
      ⟨[], loadModule engine.calls⟩ [.i32 65536] start.machine).1 = some failure := by
    decide +kernel
  have hrun : (engine.callStub "puts" (.implemented (.word .puts)) ⟨[.i32], [.i32]⟩
      ⟨[], loadModule engine.calls⟩ [.i32 65536] start.machine).1 = .error failure :=
    error_of_failureOf hfails
  obtain ⟨addr, contents, hactive, hfailures⟩ :=
    failures_classified hstart [] (.start : Run.Moment engine loads [] start start.machine)
  rw [hactive] at hsize
  have hsize : contents.size = 65536 := Option.some.inj hsize
  have hlib : Tables.stdio ∈ libraries := by
    rw [libraries]
    simp only [List.mem_cons, true_or, or_true]
  have hentry : ("puts", .implemented (.word .puts)) ∈ Tables.stdio.entries := by
    simp [Tables.stdio, Tables.table, Tables.missing, Tables.word, Tables.stub]
  rcases hfailures (by rw [hsize]; decide) _ hlib _ hentry _ _ _ _ hrun with hfails | ⟨hstub, -⟩
  · exact ⟨addr, contents, hactive, hsize, hrun, hfails⟩
  · cases hstub

end Libc

end WasmHost
