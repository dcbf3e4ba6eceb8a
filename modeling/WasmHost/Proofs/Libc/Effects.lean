import WasmHost.Libc.Function
import WasmHost.Proofs.Engine.Extension
import WasmHost.Proofs.Engine.History
import WasmHost.Proofs.Library.Consistency

set_option autoImplicit false

/-! # What the functions of the C library do to the host

Most functions of the library write no output, unlink nothing and record no library
(`Machine.Serves`). The exceptions are `putchar` and `puts`, which write, and `dlopen`, which loads
modules; what these do is said by equations. Of the others only a few work on the heap; the rest
leaves it as it is (`Machine.Spares`). The library table is touched by the functions of the dynamic
loader only (`Machine.Shelves`), and the descriptors by those that open and close them
(`Machine.Reserves`).

All that the other functions change is the contents of a memory, the descriptors, the heap, tables
and the library table, each function only some of these, so they keep every relation that does not
see what they change (`WordFunction.call_keeps`). -/

namespace WasmHost

open WasmHost.Action

/-- The host has done something for the program, but nothing that is seen from outside. -/
structure Machine.Serves {ι : Type} (m m' : Machine ι) : Prop where
  env : m'.host.env = m.host.env
  source : m'.host.source = m.host.source
  requested : m'.host.requested = m.host.requested
  arena : m'.host.arena = m.host.arena
  instances : m'.store.instances = m.store.instances
  memories : m'.store.memories.size = m.store.memories.size
  tables : m'.store.tables.size = m.store.tables.size
  output : m'.host.output = m.host.output
  libraries : m.host.libraries.Served m'.host.libraries

instance {ι : Type} : IsPreorder (Machine ι) Machine.Serves where
  refl _ := ⟨rfl, rfl, rfl, rfl, rfl, rfl, rfl, rfl, .refl _⟩
  trans _ _ _ h₁ h₂ :=
    { env := h₂.env.trans h₁.env
      source := h₂.source.trans h₁.source
      requested := h₂.requested.trans h₁.requested
      arena := h₂.arena.trans h₁.arena
      instances := h₂.instances.trans h₁.instances
      memories := h₂.memories.trans h₁.memories
      tables := h₂.tables.trans h₁.tables
      output := h₂.output.trans h₁.output
      libraries := h₁.libraries.trans h₂.libraries }

/-- The host has served the program and left the heap alone. -/
structure Machine.Spares {ι : Type} (m m' : Machine ι) : Prop extends Machine.Serves m m' where
  heap : m'.host.heap = m.host.heap

instance {ι : Type} : IsPreorder (Machine ι) Machine.Spares where
  refl m := ⟨refl_of Machine.Serves m, rfl⟩
  trans _ _ _ h₁ h₂ :=
    ⟨trans_of Machine.Serves h₁.toServes h₂.toServes, h₂.heap.trans h₁.heap⟩

/-- The library table has been left alone. -/
def Machine.Shelves {ι : Type} (m m' : Machine ι) : Prop := m'.host.libraries = m.host.libraries

instance {ι : Type} : IsPreorder (Machine ι) Machine.Shelves where
  refl _ := rfl
  trans _ _ _ h₁ h₂ := Eq.trans h₂ h₁

/-- The descriptors have been left alone. -/
def Machine.Reserves {ι : Type} (m m' : Machine ι) : Prop :=
  m'.host.descriptors = m.host.descriptors

instance {ι : Type} : IsPreorder (Machine ι) Machine.Reserves where
  refl _ := rfl
  trans _ _ _ h₁ h₂ := Eq.trans h₂ h₁

/-- Whether the host has panicked has stayed the same. -/
def Machine.Composed {ι : Type} (m m' : Machine ι) : Prop := m'.panicked = m.panicked

instance {ι : Type} : IsPreorder (Machine ι) Machine.Composed where
  refl _ := rfl
  trans _ _ _ h₁ h₂ := Eq.trans h₂ h₁

theorem Machine.Serves.extends {ι : Type} {m m' : Machine ι} (h : m.Serves m') : m.Extends m' :=
  ⟨h.env, h.source, fun _ _ hinst => by rwa [h.instances]⟩

/-! ## What a relation does not see -/

/-- A relation that does not see the contents of memories. -/
def Machine.Lenient {ι : Type} (R : Machine ι → Machine ι → Prop) : Prop :=
  ∀ (m : Machine ι) (addr : Nat) (contents : LinearMemory),
    R m { m with store := m.store.setContents addr contents }

/-- A relation that does not see the descriptors. -/
def Machine.DescriptorLenient {ι : Type} (R : Machine ι → Machine ι → Prop) : Prop :=
  ∀ (m : Machine ι) (descriptors : Descriptors),
    R m { m with host := { m.host with descriptors := descriptors } }

/-- A relation that does not see whether the host has panicked. -/
def Machine.PanicLenient {ι : Type} (R : Machine ι → Machine ι → Prop) : Prop :=
  ∀ m : Machine ι, R m { m with panicked := true }

/-- A relation that sees neither the contents of memories nor the heap. -/
structure Machine.HeapLenient {ι : Type} (R : Machine ι → Machine ι → Prop) : Prop where
  contents : Machine.Lenient R
  heap (m : Machine ι) (heap : Heap) : R m { m with host := { m.host with heap := heap } }

/-- A relation that sees neither tables nor how the open libraries are served. -/
structure Machine.LoaderLenient {ι : Type} (R : Machine ι → Machine ι → Prop) : Prop where
  tables (m : Machine ι) (addr : Nat) (table : TableInstance ι) :
    R m { m with store := m.store.setTable addr table }
  libraries {m : Machine ι} {t : LibraryTable ι} (h : m.host.libraries.Served t) :
    R m (m.withLibraries t)

namespace Machine

variable {ι : Type}

theorem serves_setMemory (m : Machine ι) (addr : Nat) (memory : MemoryInstance) :
    m.Serves { m with store := m.store.setMemory addr memory } :=
  ⟨rfl, rfl, rfl, rfl, rfl, Array.size_setIfInBounds, rfl, rfl, .refl _⟩

theorem serves_setTable (m : Machine ι) (addr : Nat) (table : TableInstance ι) :
    m.Serves { m with store := m.store.setTable addr table } :=
  ⟨rfl, rfl, rfl, rfl, rfl, rfl, Array.size_setIfInBounds, rfl, .refl _⟩

theorem serves_withLibraries {m : Machine ι} {t : LibraryTable ι}
    (h : m.host.libraries.Served t) : m.Serves (m.withLibraries t) :=
  ⟨rfl, rfl, rfl, rfl, rfl, rfl, rfl, rfl, h⟩

theorem Serves.heapLenient : HeapLenient (Serves : Machine ι → Machine ι → Prop) where
  contents m addr _ := m.serves_setMemory addr _
  heap _ _ := ⟨rfl, rfl, rfl, rfl, rfl, rfl, rfl, rfl, .refl _⟩

theorem Serves.descriptorLenient : DescriptorLenient (Serves : Machine ι → Machine ι → Prop) :=
  fun _ _ => ⟨rfl, rfl, rfl, rfl, rfl, rfl, rfl, rfl, .refl _⟩

theorem Serves.panicLenient : PanicLenient (Serves : Machine ι → Machine ι → Prop) :=
  fun _ => ⟨rfl, rfl, rfl, rfl, rfl, rfl, rfl, rfl, .refl _⟩

theorem Serves.loaderLenient : LoaderLenient (Serves : Machine ι → Machine ι → Prop) where
  tables m addr table := m.serves_setTable addr table
  libraries h := serves_withLibraries h

theorem Spares.lenient : Lenient (Spares : Machine ι → Machine ι → Prop) :=
  fun m addr _ => ⟨m.serves_setMemory addr _, rfl⟩

theorem Spares.panicLenient : PanicLenient (Spares : Machine ι → Machine ι → Prop) :=
  fun m => ⟨Serves.panicLenient m, rfl⟩

theorem Spares.descriptorLenient : DescriptorLenient (Spares : Machine ι → Machine ι → Prop) :=
  fun m descriptors => ⟨Serves.descriptorLenient m descriptors, rfl⟩

theorem Spares.loaderLenient : LoaderLenient (Spares : Machine ι → Machine ι → Prop) where
  tables m addr table := ⟨m.serves_setTable addr table, rfl⟩
  libraries h := ⟨serves_withLibraries h, rfl⟩

theorem Shelves.heapLenient : HeapLenient (Shelves : Machine ι → Machine ι → Prop) where
  contents _ _ _ := rfl
  heap _ _ := rfl

theorem Shelves.panicLenient : PanicLenient (Shelves : Machine ι → Machine ι → Prop) :=
  fun _ => rfl

theorem Shelves.descriptorLenient : DescriptorLenient (Shelves : Machine ι → Machine ι → Prop) :=
  fun _ _ => rfl

theorem Composed.heapLenient : HeapLenient (Composed : Machine ι → Machine ι → Prop) where
  contents _ _ _ := rfl
  heap _ _ := rfl

theorem Composed.descriptorLenient : DescriptorLenient (Composed : Machine ι → Machine ι → Prop) :=
  fun _ _ => rfl

theorem Composed.loaderLenient : LoaderLenient (Composed : Machine ι → Machine ι → Prop) where
  tables _ _ _ := rfl
  libraries _ := rfl

theorem Reserves.heapLenient : HeapLenient (Reserves : Machine ι → Machine ι → Prop) where
  contents _ _ _ := rfl
  heap _ _ := rfl

theorem Reserves.panicLenient : PanicLenient (Reserves : Machine ι → Machine ι → Prop) :=
  fun _ => rfl

theorem Reserves.loaderLenient : LoaderLenient (Reserves : Machine ι → Machine ι → Prop) where
  tables _ _ _ := rfl
  libraries _ := rfl

end Machine

namespace Libc

variable {ι α : Type} {R : Machine ι → Machine ι → Prop} [IsPreorder (Machine ι) R]

/-! ## Memory -/

theorem look_keeps (f : LinearMemory → Except MemoryError α) :
    Keeps R (look f : Action ι MemoryError α) :=
  .of_eq fun _ => rfl

theorem onContents_keeps {ε : Type} (hR : Machine.Lenient R) (fail : MemoryError → ε)
    (x : ExceptT ε (StateM LinearMemory) α) : Keeps R (onContents fail x : Action ι ε α) := by
  intro m
  rw [onContents]
  split
  · exact refl_of R m
  · exact hR m _ _

theorem onMemory_keeps (hR : Machine.Lenient R) (x : MemoryAction α) :
    Keeps R (onMemory x : Action ι MemoryError α) :=
  onContents_keeps hR id x

theorem onMemory_spares (x : MemoryAction α) :
    Keeps Machine.Spares (onMemory x : Action ι MemoryError α) :=
  onMemory_keeps Machine.Spares.lenient x

theorem replyWord_keeps {x : Action ι MemoryError UInt32} (hx : Keeps R x) :
    Keeps R (replyWord x) :=
  (hx.mapError _).bind fun _ => .pure _

theorem orPanic_keeps (hR : Machine.PanicLenient R) {x : Action ι WordFault α} (hx : Keeps R x) :
    Keeps R x.orPanic := by
  intro m
  have hm := hx m
  rw [orPanic_apply]
  rcases (x m).1 with (err | _) | a
  · exact hm
  · exact trans_of R hm (hR _)
  · exact hm

theorem replyChecked_keeps (hR : Machine.PanicLenient R) {x : Action ι WordFault UInt32}
    (hx : Keeps R x) : Keeps R (replyChecked x) :=
  (orPanic_keeps hR hx).bind fun _ => .pure _

/-! ## Descriptors -/

theorem openDescriptor_keeps (hR : Machine.DescriptorLenient R) :
    Keeps R (openDescriptor : Action ι Failure UInt32) := by
  intro m
  rw [openDescriptor]
  split
  · exact hR m _
  · exact refl_of R m

theorem closeDescriptor_keeps (hR : Machine.DescriptorLenient R) (fd : Int32) :
    Keeps R (closeDescriptor fd : Action ι Failure UInt32) := by
  intro m
  rw [closeDescriptor]
  split
  · exact hR m _
  · exact refl_of R m

/-! ## The heap -/

section

variable (hR : Machine.HeapLenient R)

include hR

theorem allocate?_keeps (size : UInt32) :
    Keeps R (allocate? size : Action ι MemoryError (Option UInt32)) := by
  intro m
  rw [allocate?]
  split
  · exact refl_of R m
  · split
    · exact hR.heap m _
    · exact refl_of R m

theorem allocate_keeps (size : UInt32) :
    Keeps R (allocate size : Action ι MemoryError UInt32) :=
  (allocate?_keeps hR size).bind fun _ => .pure _

theorem allocateZeroed?_keeps (size : UInt32) :
    Keeps R (allocateZeroed? size : Action ι MemoryError (Option UInt32)) := by
  refine (allocate?_keeps hR size).bind fun block => ?_
  rcases block with _ | ptr
  · exact .pure _
  · exact (onMemory_keeps hR.contents _).bind fun _ => .pure _

theorem storeString_keeps (size : UInt32) (s : List UInt8) :
    Keeps R (storeString size s : Action ι MemoryError UInt32) := by
  refine (allocate?_keeps hR size).bind fun block => ?_
  rcases block with _ | ptr
  · exact .pure _
  · exact (onMemory_keeps hR.contents _).bind fun _ => .pure _

theorem allocateString_keeps (s : List UInt8) :
    Keeps R (allocateString s : Action ι WordFault UInt32) :=
  (look_keeps _).lift.bind fun _ => (Keeps.compute _).bind fun size =>
    (storeString_keeps hR size s).lift

omit [IsPreorder (Machine ι) R] in
theorem free_keeps {ε : Type} (ptr : UInt32) : Keeps R (free ptr : Action ι ε Unit) :=
  .modifyHost fun m => hR.heap m _

theorem realloc_keeps (ptr size : UInt32) :
    Keeps R (realloc ptr size : Action ι MemoryError UInt32) := by
  rw [realloc]
  split
  · exact allocate_keeps hR size
  · refine (look_keeps _).bind fun _ => ?_
    split
    · exact (free_keeps hR ptr).bind fun _ => .pure _
    · refine Keeps.getHost.bind fun host => (allocate?_keeps hR size).bind fun block => ?_
      rcases block with _ | block
      · exact .pure _
      · exact (onMemory_keeps hR.contents _).bind fun _ => (free_keeps hR ptr).bind fun _ => .pure _

theorem calloc_keeps (count size : UInt32) :
    Keeps R (calloc count size : Action ι MemoryError UInt32) := by
  rw [calloc]
  split
  · exact (allocateZeroed?_keeps hR _).bind fun _ => .pure _
  · exact .pure _

theorem mmap_keeps (addr length prot fd : UInt32) :
    Keeps R (mmap addr length prot fd : Action ι Failure UInt32) := by
  rw [mmap]
  split
  · exact .ofExcept _
  split
  · exact .ofExcept _
  split
  · exact .ofExcept _
  · exact .mapError _ ((allocateZeroed?_keeps hR length).bind fun _ => .pure _)

end

/-! ## The dynamic loader -/

theorem textAt_keeps (ptr : UInt32) : Keeps R (textAt ptr : Action ι Failure String) := by
  rw [textAt]
  split
  · exact .pure _
  · exact ((look_keeps _).mapError _).bind fun _ => .pure _

section

variable (hR : Machine.LoaderLenient R)

include hR

theorem failWith_keeps (value : UInt32) (err : LinkError) :
    Keeps R (failWith value err : Action ι Failure UInt32) :=
  .bind (.modifyHost fun _ => hR.libraries (.setError (.refl _) err)) fun _ => .pure _

theorem growTable_keeps (addr : Nat) (f : Func ι) :
    Keeps R (growTable addr f : Action ι Failure (Option UInt32)) := by
  refine Keeps.getStore.bind fun store => ?_
  dsimp only
  split
  · exact .pure _
  · exact .bind (.modifyStore fun m => hR.tables m addr _) fun _ => .pure _

theorem functionPointer_keeps (caller : Caller ι) (symbol : String) (f : Func ι) :
    Keeps R (functionPointer caller symbol f) := by
  rw [functionPointer]
  split
  · refine (growTable_keeps hR _ f).bind fun slot => ?_
    rcases slot with _ | slot
    · exact failWith_keeps hR 0 _
    · exact .pure _
  · exact .ofExcept _

theorem dlsym_keeps (caller : Caller ι) (handle symbol : UInt32) :
    Keeps R (dlsym caller handle symbol) := by
  refine (textAt_keeps symbol).bind fun name => Keeps.getHost.bind fun host => ?_
  dsimp only
  split
  · exact failWith_keeps hR 0 _
  · exact functionPointer_keeps hR caller name _
  · exact Keeps.getStore.bind fun _ => .pure _
  · exact failWith_keeps hR 0 _

theorem dlclose_keeps (handle : UInt32) :
    Keeps R (dlclose handle : Action ι Failure UInt32) := by
  intro m
  rw [dlclose, bind_apply_of_ok (getHost_apply m)]
  rcases hclose : m.host.libraries.close handle with err | ⟨left, libraries⟩
  · exact failWith_keeps hR 0xffffffff err m
  · exact hR.libraries (.close (.refl _) hclose)

theorem dlerror_keeps (hheap : Machine.HeapLenient R) (hpanic : Machine.PanicLenient R) :
    Keeps R (dlerror : Action ι Failure UInt32) := by
  have htake : Keeps R (takeError : Action ι Failure (Option String)) :=
    fun _ => hR.libraries (.takeError (.refl _))
  refine htake.bind fun message => ?_
  rcases message with _ | message
  · exact .pure _
  · exact orPanic_keeps hpanic (allocateString_keeps hheap _)

end

/-! ## All functions -/

namespace WordFunction

/-- Whether a function neither writes output nor loads modules. -/
def isSilent : WordFunction → Bool
  | .putchar | .puts | .dlopen => false
  | _ => true

/-- Whether a function works on the heap. -/
def usesHeap : WordFunction → Bool
  | .malloc | .calloc | .free | .realloc | .strdup | .mmap | .dlerror => true
  | _ => false

/-- Whether a function works on the descriptors. -/
def usesDescriptors : WordFunction → Bool
  | .openFile | .closeFile => true
  | _ => false

/-- Whether a function belongs to the dynamic loader. -/
def isDynamic : WordFunction → Bool
  | .dlopen | .dlsym | .dlclose | .dlerror => true
  | _ => false

/-- Whether a function computes with checked arithmetic. -/
def mayPanic : WordFunction → Bool
  | .edit _ | .strdup | .dlerror => true
  | _ => false

/-- **A silent function** keeps every relation that does not see memory and what else the function
    works on. -/
theorem call_keeps {f : WordFunction} (hf : f.isSilent) (hR : Machine.Lenient R)
    (hheap : f.usesHeap → Machine.HeapLenient R) (hpanic : f.mayPanic → Machine.PanicLenient R)
    (hdescriptors : f.usesDescriptors → Machine.DescriptorLenient R)
    (hloader : f.isDynamic → Machine.LoaderLenient R) (caller : Caller ι) (words : Nat → UInt32) :
    Keeps R (f.call caller words) := by
  cases f with
  | putchar | puts | dlopen => cases hf
  | charClass | tolower | toupper | abs | constant => exact .pure _
  | abort | exit => exact .ofExcept _
  | query => exact replyWord_keeps (look_keeps _)
  | edit => exact replyChecked_keeps (hpanic rfl) (onContents_keeps hR _ _)
  | atoi => exact ((look_keeps _).mapError _).bind fun _ => .pure _
  | openFile => exact (openDescriptor_keeps (hdescriptors rfl)).bind fun _ => .pure _
  | closeFile => exact (closeDescriptor_keeps (hdescriptors rfl) _).bind fun _ => .pure _
  | malloc => exact replyWord_keeps (allocate_keeps (hheap rfl) _)
  | calloc => exact replyWord_keeps (calloc_keeps (hheap rfl) _ _)
  | realloc => exact replyWord_keeps (realloc_keeps (hheap rfl) _ _)
  | strdup =>
      exact replyChecked_keeps (hpanic rfl)
        ((look_keeps _).lift.bind fun _ => allocateString_keeps (hheap rfl) _)
  | free =>
      rw [call]
      split
      · exact (free_keeps (hheap rfl) _).bind fun _ => .pure _
      · exact .pure _
  | mmap => exact (mmap_keeps (hheap rfl) _ _ _ _).bind fun _ => .pure _
  | dlsym => exact (dlsym_keeps (hloader rfl) caller _ _).bind fun _ => .pure _
  | dlclose => exact (dlclose_keeps (hloader rfl) _).bind fun _ => .pure _
  | dlerror => exact (dlerror_keeps (hloader rfl) (hheap rfl) (hpanic rfl)).bind fun _ => .pure _

theorem call_spares {f : WordFunction} (hf : f.isSilent) (hheap : f.usesHeap = false)
    (caller : Caller ι) (words : Nat → UInt32) : Keeps Machine.Spares (f.call caller words) :=
  call_keeps hf Machine.Spares.lenient (fun h => by rw [hheap] at h; cases h)
    (fun _ => Machine.Spares.panicLenient) (fun _ => Machine.Spares.descriptorLenient)
    (fun _ => Machine.Spares.loaderLenient) caller words

/-- **A silent function does nothing that is seen from outside.** -/
theorem call_serves {f : WordFunction} (hf : f.isSilent) (caller : Caller ι)
    (words : Nat → UInt32) : Keeps Machine.Serves (f.call caller words) :=
  call_keeps hf Machine.Serves.heapLenient.contents (fun _ => Machine.Serves.heapLenient)
    (fun _ => Machine.Serves.panicLenient) (fun _ => Machine.Serves.descriptorLenient)
    (fun _ => Machine.Serves.loaderLenient) caller words

/-- A function that writes output keeps what writing keeps. -/
theorem call_keeps_of_emit {f : WordFunction} (hf : f.isSilent = false) (hload : f ≠ .dlopen)
    (hemit : ∀ bytes, Keeps R (emit bytes : Action ι Failure Unit)) (caller : Caller ι)
    (words : Nat → UInt32) : Keeps R (f.call caller words) := by
  cases f with
  | putchar => exact (hemit _).bind fun _ => .pure _
  | puts =>
      exact Keeps.bind (((look_keeps _).mapError _).bind fun _ => hemit _) fun _ => .pure _
  | dlopen => exact absurd rfl hload
  | _ => cases hf

/-- **Only the dynamic loader works on the library table.** -/
theorem call_shelves {f : WordFunction} (hdynamic : f.isDynamic = false) (caller : Caller ι)
    (words : Nat → UInt32) : Keeps Machine.Shelves (f.call caller words) := by
  rcases hf : f.isSilent with _ | _
  · refine call_keeps_of_emit hf (fun hload => ?_) (fun _ => .modifyHost fun _ => rfl) caller words
    rw [hload] at hdynamic
    cases hdynamic
  · exact call_keeps hf Machine.Shelves.heapLenient.contents
      (fun _ => Machine.Shelves.heapLenient) (fun _ => Machine.Shelves.panicLenient)
      (fun _ => Machine.Shelves.descriptorLenient)
      (fun h => by rw [hdynamic] at h; cases h) caller words

/-- **Only opening and closing descriptors works on them.** -/
theorem call_reserves {f : WordFunction} (hdescriptors : f.usesDescriptors = false)
    (hload : f ≠ .dlopen) (caller : Caller ι) (words : Nat → UInt32) :
    Keeps Machine.Reserves (f.call caller words) := by
  rcases hf : f.isSilent with _ | _
  · exact call_keeps_of_emit hf hload (fun _ => .modifyHost fun _ => rfl) caller words
  · exact call_keeps hf Machine.Reserves.heapLenient.contents
      (fun _ => Machine.Reserves.heapLenient) (fun _ => Machine.Reserves.panicLenient)
      (fun h => by rw [hdescriptors] at h; cases h)
      (fun _ => Machine.Reserves.loaderLenient) caller words

end WordFunction

end Libc

end WasmHost
