import WasmHost.Assoc
import WasmHost.LinkError
import WasmHost.Symbol

set_option autoImplicit false

/-! # The symbol environment

One flat namespace against which the imports of every module are resolved. Names are added in a
fixed order, stub libraries first and then the startup modules; a later symbol takes the place of an
earlier one of the same name, and no name is ever removed. -/

namespace WasmHost

/-- The symbols by name. -/
structure Environment (ι : Type) where
  symbols : Assoc String (Symbol ι)

namespace Environment

variable {ι : Type}

/-- The environment without names. -/
def empty : Environment ι := ⟨.empty⟩

/-- The symbol of a name, if there is one. -/
def lookup? (env : Environment ι) (name : String) : Option (Symbol ι) := env.symbols.get? name

/-- Whether the name has a symbol. -/
def contains (env : Environment ι) (name : String) : Bool := env.symbols.contains name

/-- The number of names. -/
def size (env : Environment ι) : Nat := env.symbols.size

/-- The names in increasing order. -/
def sortedNames (env : Environment ι) : List String :=
  env.symbols.keys.mergeSort fun a b => decide (a ≤ b)

/-- Give a name a symbol, in place of any earlier one. -/
def register (env : Environment ι) (name : String) (symbol : Symbol ι) : Environment ι :=
  ⟨env.symbols.insert name symbol⟩

/-- The symbol of a name. -/
def resolve (env : Environment ι) (name : String) : Except LinkError (Symbol ι) :=
  match env.lookup? name with
  | some symbol => .ok symbol
  | none => .error (LinkError.ofKind (.nameNotFound name))

/-- Register the stubs of one library. -/
def addLibrary (env : Environment ι) (lib : StubLibrary ι) : Environment ι :=
  lib.entries.foldl (fun env e => env.register e.1 (.stub lib.name e.1 e.2)) env

/-- Register the stubs of several libraries, in order. -/
def flatten (env : Environment ι) (libs : List (StubLibrary ι)) : Environment ι :=
  libs.foldl addLibrary env

/-- Register the functions that a module exports, in order. -/
def addExports (env : Environment ι) (moduleName : String) (funcs : List (String × Func ι)) :
    Environment ι :=
  funcs.foldl (fun env e => env.register e.1 (.exported moduleName e.2)) env

theorem lookup?_register (env : Environment ι) (name name' : String) (symbol : Symbol ι) :
    (env.register name symbol).lookup? name'
      = if name = name' then some symbol else env.lookup? name' :=
  Assoc.get?_insert env.symbols name name' symbol

end Environment

end WasmHost
