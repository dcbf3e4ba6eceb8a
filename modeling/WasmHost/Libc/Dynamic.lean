import WasmHost.Engine
import WasmHost.Library.Opening
import WasmHost.Text.Latin1

set_option autoImplicit false

/-! # The dynamic loader

`dlopen`, `dlsym`, `dlclose` and `dlerror`. A failure of the loader does not end the program: it is
kept for `dlerror` and reported by the value that the function gives back. -/

namespace WasmHost.Libc

variable {ι : Type}

/-- The name under which a module exports the table for pointers to functions. -/
def functionTable : String := "__indirect_function_table"

/-- Keep a failure for `dlerror` and give back `value`. -/
def failWith (value : UInt32) (err : LinkError) : Action ι Failure UInt32 := do
  Action.modifyHost fun h => { h with libraries := h.libraries.setError err }
  return value

/-- Give up because something is not implemented. -/
def notImplemented {α : Type} (what : String) : Action ι Failure α :=
  Action.ofExcept (.error (.ofFault (.unimplemented what)))

/-- The text at an address; no text at address zero. -/
def textAt (ptr : UInt32) : Action ι Failure String := do
  if ptr = 0 then return ""
  else return latin1 (← (Action.look (·.string ptr)).mapError Failure.ofMemoryError)

/-- Open a library: its handle, or zero. -/
def dlopen (caller : Caller ι) (filename flags : UInt32) : Action ι Failure UInt32 := do
  if filename = 0 then notImplemented "dlopen(NULL, ...)"
  else
    let name ← textAt filename
    match ← (openLibrary caller.load name ⟨flags⟩).attempt with
    | .ok handle => return handle
    | .error err => failWith 0 err

/-- Put a function into a new slot at the end of a table; the slot, if there is room and its number
    is no negative 32-bit integer. -/
def growTable (addr : Nat) (f : Func ι) : Action ι Failure (Option UInt32) := do
  let table := (← Action.getStore).tableAt addr
  match table.push? (some f) with
  | none => return none
  | some grown =>
      Action.modifyStore (·.setTable addr grown)
      return if 2 * table.slots.size < UInt32.size then some table.slots.size.toUInt32 else none

/-- A pointer to a function for the calling module: a new slot in the function table that it
    exports. -/
def functionPointer (caller : Caller ι) (symbol : String) (f : Func ι) :
    Action ι Failure UInt32 := do
  match (caller.exports.find? fun e => e.1 == functionTable).map Prod.snd with
  | some (.table addr) =>
      match ← growTable addr f with
      | some slot => return slot
      | none => failWith 0 (LinkError.ofKind (.functionTableFull symbol))
  | _ => notImplemented "dlsym of a function without an exported function table"

/-- The value of a global as a 32-bit integer; zero for what is no integer. -/
def integerOf : Value → UInt32
  | .i32 v => v
  | .i64 v => v.toUInt32
  | _ => 0

/-- Look up a symbol of a library: a pointer to a function, or the value of a global, or zero. -/
def dlsym (caller : Caller ι) (handle symbol : UInt32) : Action ι Failure UInt32 := do
  let name ← textAt symbol
  let libraries := (← Action.getHost).libraries
  match libraries.lookup handle name with
  | .error err => failWith 0 err
  | .ok (.func f) => functionPointer caller name f
  | .ok (.global addr) => return integerOf ((← Action.getStore).globalAt addr)
  | .ok _ =>
      let library := ((libraries.library? handle).map (·.loaded.name)).getD ""
      failWith 0 (LinkError.ofKind (.symbolNotFound name library))

/-- Drop a reference to a library: zero, or -1 if there is no such library. -/
def dlclose (handle : UInt32) : Action ι Failure UInt32 := do
  match (← Action.getHost).libraries.close handle with
  | .ok (_, libraries) =>
      Action.modifyHost fun h => { h with libraries := libraries }
      return 0
  | .error err => failWith 0xffffffff err

/-- Take the message of the latest failure. -/
def takeError : Action ι Failure (Option String) := fun m =>
  let (message, libraries) := m.host.libraries.takeError
  (.ok message, { m with host := { m.host with libraries := libraries } })

/-- The message of the latest failure in a block of its own; zero if there is none. -/
def dlerror : Action ι Failure UInt32 := do
  match ← takeError with
  | none => return 0
  | some message => (Action.allocateString message.toUTF8.data.toList).orPanic

end WasmHost.Libc
