import WasmHost.Library.Flags
import WasmHost.Machine

set_option autoImplicit false

/-! # Opening libraries

A library that is open under a name is opened again by taking another reference to it; only the
first opening loads the module, and only the first looks at the flags. -/

namespace WasmHost

variable {ι : Type}

/-- Take another reference to the library of a name, if there is one. -/
def Action.retainLibrary {ε : Type} (name : String) : Action ι ε (Option UInt32) := fun m =>
  match m.host.libraries.retain name with
  | some (handle, libraries) =>
      (.ok (some handle), { m with host := { m.host with libraries := libraries } })
  | none => (.ok none, m)

/-- Record a library that has just been loaded; the result is its handle. -/
def Action.insertLibrary {ε : Type} (name : String) (loaded : LoadedModule ι) :
    Action ι ε UInt32 := fun m =>
  let (handle, libraries) := m.host.libraries.insert name loaded
  (.ok handle, { m with host := { m.host with libraries := libraries } })

/-- Open the library of a name, loading its module if it is not open. -/
def openLibrary (load : String → Action ι LinkError (LoadedModule ι)) (name : String)
    (flags : DlFlags) : Action ι LinkError UInt32 := do
  match ← Action.retainLibrary name with
  | some handle => return handle
  | none =>
      if !flags.isSupported then
        Action.ofExcept (.error (LinkError.ofKind (.unsupportedFlag flags.bits)))
      Action.insertLibrary name (← load name)

end WasmHost
