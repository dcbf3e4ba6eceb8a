import WasmHost.Assoc
import WasmHost.LinkError
import WasmHost.Memory.Error
import WasmHost.Symbol

set_option autoImplicit false

/-! # Loaded modules and open libraries

Modules that are opened while a program runs are kept in a table of their own, by the name that they
were opened with. Each has a handle and a count of references; handles start at 1 and are never used
again. The table also holds the message of the latest failure, for `dlerror`. -/

namespace WasmHost

/-- A module that has been instantiated. -/
structure LoadedModule (ι : Type) where
  /-- The name that it was loaded by. -/
  name : String
  /-- The address of its instance. -/
  instanceAddr : Nat
  /-- Its exports, in the order in which the module declares them. -/
  exports : List (String × Item ι)
  /-- The handle of the memory that it brought, if it exported one. -/
  memory : Option MemoryHandle

namespace LoadedModule

variable {ι : Type}

/-- The exported functions, in order. -/
def funcs (m : LoadedModule ι) : List (String × Func ι) :=
  m.exports.filterMap fun e => e.2.func?.map fun f => (e.1, f)

/-- The export of that name. -/
def lookup? (m : LoadedModule ι) (name : String) : Option (Item ι) :=
  (m.exports.find? fun e => e.1 == name).map Prod.snd

end LoadedModule

/-- The last memory among exports. -/
def lastMemory? {ι : Type} (exports : List (String × Item ι)) : Option Nat :=
  exports.reverse.findSome? fun e => e.2.memory?

/-- A library that is open. -/
structure OpenLibrary (ι : Type) where
  /-- The name that it was opened with. -/
  name : String
  /-- The module. -/
  loaded : LoadedModule ι
  /-- The number of references to it. -/
  refcount : Nat

/-- The open libraries. -/
structure LibraryTable (ι : Type) where
  /-- The libraries by handle. -/
  libraries : Assoc UInt32 (OpenLibrary ι)
  /-- The handles by name. -/
  handles : Assoc String UInt32
  /-- The handle given out last, or zero. -/
  lastHandle : UInt32
  /-- The message of the latest failure that has not been asked for. -/
  pendingError : Option String

namespace LibraryTable

variable {ι : Type}

/-- The table without libraries. -/
def empty : LibraryTable ι := ⟨.empty, .empty, 0, none⟩

/-- The number of open libraries. -/
def size (t : LibraryTable ι) : Nat := t.libraries.size

/-- The handle of a name. -/
def handleOf? (t : LibraryTable ι) (name : String) : Option UInt32 := t.handles.get? name

/-- The open library of a handle. -/
def library? (t : LibraryTable ι) (handle : UInt32) : Option (OpenLibrary ι) :=
  t.libraries.get? handle

/-- Take another reference to the library of a name, if there is one. -/
def retain (t : LibraryTable ι) (name : String) : Option (UInt32 × LibraryTable ι) := do
  let handle ← t.handleOf? name
  let lib ← t.library? handle
  return (handle,
    { t with libraries := t.libraries.insert handle { lib with refcount := lib.refcount + 1 } })

/-- The handle given out next: one more than the last; 1 if that has no 32 bits. -/
def nextHandle (t : LibraryTable ι) : UInt32 :=
  if t.lastHandle + 1 = 0 then 1 else t.lastHandle + 1

/-- Record a library that has just been loaded, with one reference. -/
def insert (t : LibraryTable ι) (name : String) (loaded : LoadedModule ι) :
    UInt32 × LibraryTable ι :=
  let handle := t.nextHandle
  (handle,
    { t with
      libraries := t.libraries.insert handle ⟨name, loaded, 1⟩
      handles := t.handles.insert name handle
      lastHandle := t.lastHandle + 1 })

/-- The export of an open library by name. The handle is looked at first, then whether there is a
    name at all. -/
def lookup (t : LibraryTable ι) (handle : UInt32) (symbol : String) : Except LinkError (Item ι) :=
  match t.library? handle with
  | none => .error (LinkError.ofKind (.invalidHandle handle))
  | some lib =>
      if symbol.isEmpty then .error (LinkError.ofKind .invalidSymbol)
      else
        match lib.loaded.lookup? symbol with
        | some item => .ok item
        | none => .error (LinkError.ofKind (.symbolNotFound symbol lib.name))

/-- Drop a reference to a library, and say how many are left. Without references the library is
    forgotten, and so is its name. -/
def close (t : LibraryTable ι) (handle : UInt32) : Except LinkError (Nat × LibraryTable ι) :=
  match t.library? handle with
  | none => .error (LinkError.ofKind (.invalidHandle handle))
  | some lib =>
      let left := lib.refcount - 1
      if left = 0 then
        .ok (0, { t with
          libraries := t.libraries.erase handle
          handles := t.handles.erase lib.name })
      else
        .ok (left, { t with libraries := t.libraries.insert handle { lib with refcount := left } })

/-- Remember a failure for `dlerror`. -/
def setError (t : LibraryTable ι) (e : LinkError) : LibraryTable ι :=
  { t with pendingError := some e.fullMessage }

/-- Take the message of the latest failure; it is gone afterwards. -/
def takeError (t : LibraryTable ι) : Option String × LibraryTable ι :=
  (t.pendingError, { t with pendingError := none })

end LibraryTable

end WasmHost
