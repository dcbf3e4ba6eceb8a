import WasmHost.Calling
import WasmHost.Machine

set_option autoImplicit false

/-! # Binding imports

Before a module is instantiated each of its imports is bound. Functions are looked up in the symbol
environment by their field name alone; memories are bound to the active memory; tables and globals
are not supported. The imports that cannot be bound are reported together, and binding changes
nothing. -/

namespace WasmHost

variable {ι : Type}

/-- The error of an import that names nothing. -/
def Import.unresolved (imp : Import) : LinkError :=
  LinkError.ofKind (.unresolvedImport imp.moduleName imp.field)

/-- A symbol as a function of the type that an import asks for. A stub takes that type, if it can be
    bound to it; an exported function keeps its own. -/
def Symbol.bind (type : FuncType) : Symbol ι → Except LinkError (Func ι)
  | .stub _ name behaviour =>
      if type.isBindable then .ok (.stub name behaviour type)
      else .error (LinkError.ofKind (.stubSignature name type.show))
  | .exported _ func => .ok func

/-- The item that an import is bound to. -/
def Host.resolveImport (host : Host ι) (imp : Import) : Except LinkError (Item ι) :=
  match imp.desc with
  | .func type =>
      match host.env.lookup? imp.field with
      | some symbol => (symbol.bind type).map .func
      | none => .error imp.unresolved
  | .memory _ =>
      match host.arena.active with
      | .ok addr => .ok (.memory addr)
      | .error _ => .error imp.unresolved
  | desc =>
      .error (LinkError.ofKind (.unsupportedImport imp.moduleName imp.field desc.kind.name))

/-- The items that the imports of a module are bound to, in order, or all the failures. -/
def Host.bindImports (host : Host ι) (name : String) (imports : List Import) :
    Except LinkError (List (Item ι)) :=
  LinkError.collect (.loadFailure name) (imports.map host.resolveImport)

end WasmHost
