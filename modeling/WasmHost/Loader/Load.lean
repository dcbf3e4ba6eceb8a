import WasmHost.Binary.Decode
import WasmHost.Loader.Binding
import WasmHost.Loader.Instantiation
import WasmHost.Module.WellFormed

set_option autoImplicit false

/-! # Loading modules

A module is loaded in steps: fetch it from the source, check that it is well formed, bind its
imports, instantiate it, and make the memory that it exports the active one. A step that fails ends
the load with an error that names the module and holds the failures. Loading never changes the
symbol environment. -/

namespace WasmHost

variable {ι : Type}

/-- The error of a module that could not be loaded for one reason. -/
def LinkError.loadFailed (name : String) (reason : LinkError) : LinkError :=
  .mk (.loadFailure name) [reason]

/-- The module that an object holds; a binary is decoded. -/
def ModuleObject.contents : ModuleObject → Except String WasmModule
  | .binary bytes => Binary.decode bytes
  | .parsed m => .ok m

/-- The well-formed module that an object holds. -/
def ModuleObject.parse (name : String) (object : ModuleObject) : Except LinkError WasmModule :=
  match object.contents with
  | .error reason => .error (LinkError.ofKind (.parseError name reason))
  | .ok m =>
      match m.defect? with
      | some defect => .error (LinkError.ofKind (.parseError name defect))
      | none => .ok m

/-- Make the last memory that a new instance exports the active memory, owned by the module. The
    result is its handle; without an exported memory nothing changes. -/
def Action.installMemory (name : String) (exports : List (String × Item ι)) :
    Action ι LinkError (Option MemoryHandle) := do
  match lastMemory? exports with
  | none => return none
  | some addr =>
      let handle := (← Action.getHost).arena.nextHandle
      Action.modifyHost fun h => { h with arena := h.arena.install addr name }
      return some handle

/-- Load a module that has been fetched. -/
def loadObject (calls : Caller.Calls ι) (name : String) (object : ModuleObject) :
    Action ι LinkError (LoadedModule ι) := do
  let m ← Action.ofExcept ((object.parse name).mapError (.loadFailed name))
  let items ← Action.ofExcept ((← Action.getHost).bindImports name m.imports)
  let addr ← (m.instantiate calls items).mapError fun failure =>
    .loadFailed name (LinkError.ofKind (.instantiateFail name failure.message))
  let exports := ((← Action.getStore).instanceAt addr).exports
  let handle ← Action.installMemory name exports
  return ⟨name, addr, exports, handle⟩

/-- Load the module that the source has under a name. -/
def loadModule (calls : Caller.Calls ι) (name : String) : Action ι LinkError (LoadedModule ι) := do
  Action.modifyHost fun h => { h with requested := name :: h.requested }
  let object ← Action.ofExcept (((← Action.getHost).source name).mapError (.loadFailed name))
  loadObject calls name object

end WasmHost
