import WasmHost.Assoc
import WasmHost.LinkError

set_option autoImplicit false

/-! # Module sources

A module source turns the name of a module into its contents. What the contents are is a parameter:
the loader works on modules, other users on bytes. -/

namespace WasmHost

/-- Where the contents of modules come from, by name. -/
abbrev ModuleSource (α : Type) := String → Except LinkError α

/-- A fixed set of modules; of two with one name the later counts. -/
def ModuleSource.ofList {α : Type} (objects : List (String × α)) : ModuleSource α :=
  let table := Assoc.ofList objects
  fun name =>
    match table.get? name with
    | some object => .ok object
    | none => .error (LinkError.ofKind (.moduleNotFound name))

end WasmHost
