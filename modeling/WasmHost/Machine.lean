import WasmHost.Config
import WasmHost.Descriptors
import WasmHost.Environment
import WasmHost.Fault
import WasmHost.Heap
import WasmHost.Library.Table
import WasmHost.Memory.Arena
import WasmHost.Memory.Word
import WasmHost.Output
import WasmHost.Source.Basic
import WasmHost.Store.Basic

set_option autoImplicit false

/-! # The machine

The whole state of a run: the store that code works on, and what the host keeps beside it. An
`Action` is a computation on the machine that may fail; what it changed before failing stays
changed. -/

namespace WasmHost

/-- What a module source hands to the loader: the bytes of a binary that is still to be decoded, or
    a module. -/
inductive ModuleObject where
  | binary (bytes : List UInt8)
  | parsed (m : WasmModule)

/-- The state of the host. -/
structure Host (ι : Type) where
  config : Config
  env : Environment ι
  arena : MemoryArena Nat
  libraries : LibraryTable ι
  output : OutputBuffer
  heap : Heap
  descriptors : Descriptors
  source : ModuleSource ModuleObject
  /-- The names that the source has been asked for, latest first. -/
  requested : List String

/-- The host at the start of a run. -/
def Host.new {ι : Type} (config : Config) (source : ModuleSource ModuleObject) (sink : Sink) :
    Host ι where
  config := config
  env := .empty
  arena := .empty
  libraries := .empty
  output := .new sink
  heap := .new config.heapBase
  descriptors := .initial
  source := source
  requested := []

/-- The state of a run. -/
structure Machine (ι : Type) where
  store : Store ι
  host : Host ι
  /-- Whether the host has panicked. A panic cannot be caught: the run is over then, without an
      outcome, and nothing that the machine does afterwards counts. -/
  panicked : Bool := false

/-- A computation on the machine that may fail with an `ε`. -/
abbrev Action (ι ε α : Type) := ExceptT ε (StateM (Machine ι)) α

namespace Action

variable {ι ε ε' α : Type}

/-- The result of a computation that does not look at the machine. -/
def ofExcept (r : Except ε α) : Action ι ε α := fun m => (r, m)

/-- The same computation with its failures renamed. -/
def mapError (f : ε → ε') (x : Action ι ε α) : Action ι ε' α := ExceptT.adapt f x

/-- The outcome of a computation as a value; the combined computation does not fail. -/
def attempt (x : Action ι ε α) : Action ι ε' (Except ε α) := fun m =>
  let (r, m') := x m
  (.ok r, m')

/-- The state of the host. -/
def getHost : Action ι ε (Host ι) := fun m => (.ok m.host, m)

/-- The store. -/
def getStore : Action ι ε (Store ι) := fun m => (.ok m.store, m)

/-- Change the state of the host. -/
def modifyHost (f : Host ι → Host ι) : Action ι ε Unit :=
  fun m => (.ok (), { m with host := f m.host })

/-- Change the store. -/
def modifyStore (f : Store ι → Store ι) : Action ι ε Unit :=
  fun m => (.ok (), { m with store := f m.store })

end Action

/-- The failure that travels out of code. The one of an overflow comes with a panic. -/
def Failure.ofWordFault : WordFault → Failure
  | .memory err => .ofMemoryError err
  | .overflow => .ofCause (.text "attempt to add with overflow")

/-! ## The active memory and the heap -/

namespace Machine

variable {ι : Type}

/-- The address and the contents of the active memory. -/
def activeMemory (m : Machine ι) : Except MemoryError (Nat × LinearMemory) := do
  let addr ← m.host.arena.active
  return (addr, (m.store.memoryAt addr).contents)

/-- The machine after a computation with the given result: an overflow makes the host panic. -/
def panicIf {α : Type} (m : Machine ι) : Except WordFault α → Machine ι
  | .error .overflow => { m with panicked := true }
  | _ => m

end Machine

namespace Action

variable {ι : Type}

/-- Read something of the active memory. -/
def look {α : Type} (f : LinearMemory → Except MemoryError α) : Action ι MemoryError α := fun m =>
  (m.activeMemory.bind fun active => f active.2, m)

/-- Fail if no memory is active. -/
def requireMemory : Action ι MemoryError Unit := look fun _ => .ok ()

/-- A computation on the active memory; `fail` says what it fails with if there is none. -/
def onContents {ε α : Type} (fail : MemoryError → ε) (x : ExceptT ε (StateM LinearMemory) α) :
    Action ι ε α := fun m =>
  match m.activeMemory with
  | .error e => (.error (fail e), m)
  | .ok (addr, contents) =>
      let (result, contents') := x contents
      (result, { m with store := m.store.setContents addr contents' })

/-- A computation on the active memory. -/
def onMemory {α : Type} (x : MemoryAction α) : Action ι MemoryError α := onContents id x

/-- Take a block of `size` bytes from the heap, within the active memory. -/
def allocate? (size : UInt32) : Action ι MemoryError (Option UInt32) := fun m =>
  match m.activeMemory with
  | .error e => (.error e, m)
  | .ok (_, contents) =>
      match m.host.heap.alloc size contents.size with
      | some (ptr, heap) => (.ok (some ptr), { m with host := { m.host with heap := heap } })
      | none => (.ok none, m)

/-- Take a block of `size` bytes from the heap; zero if there is none. -/
def allocate (size : UInt32) : Action ι MemoryError UInt32 := do
  return (← allocate? size).getD 0

/-- Take a block of `size` bytes from the heap and set it to zero. -/
def allocateZeroed? (size : UInt32) : Action ι MemoryError (Option UInt32) := do
  match ← allocate? size with
  | none => return none
  | some ptr =>
      onMemory (.change (·.zero ptr size))
      return some ptr

/-- Put a string into a fresh block of `size` bytes, with a zero byte after it; zero if there is no
    block. -/
def storeString (size : UInt32) (s : List UInt8) : Action ι MemoryError UInt32 := do
  match ← allocate? size with
  | none => return 0
  | some ptr =>
      onMemory (.writeString ptr s)
      return ptr

open WordFault in
/-- Copy a string into a fresh block of the heap. The length of the string is cut to 32 bits, and
    the size of the block is checked. -/
def allocateString (s : List UInt8) : Action ι WordFault UInt32 := do
  lift requireMemory
  let size ← compute (add s.length.toUInt32 1)
  lift (storeString size s)

/-- A computation with checked arithmetic as a part of running code: an overflow makes the host
    panic, and a failed access is a failure like others. -/
def orPanic {α : Type} (x : Action ι WordFault α) : Action ι Failure α := fun m =>
  let (result, m') := x m
  (result.mapError .ofWordFault, m'.panicIf result)

end Action

end WasmHost
