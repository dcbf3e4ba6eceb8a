import WasmHost.Module.Syntax

set_option autoImplicit false

/-! # Symbols

A name that a module imports resolves to a symbol: a stub of one of the stub libraries, or a
function that a module exports. The parameter `ι` is the type of the implementations that stubs
have; what those do is not part of a symbol. -/

namespace WasmHost

/-- A stub: an implementation, or a placeholder that fails when it is called. -/
inductive Stub (ι : Type) where
  | implemented (f : ι)
  | placeholder

/-- The same stub with another implementation. -/
def Stub.map {ι κ : Type} (f : ι → κ) : Stub ι → Stub κ
  | implemented i => implemented (f i)
  | placeholder => placeholder

/-- How a stub is shown. -/
def Stub.describe {ι : Type} : Stub ι → String
  | implemented _ => "Stub::Func"
  | placeholder => "Stub::Unimplemented"

/-- A named table of stubs. -/
structure StubLibrary (ι : Type) where
  name : String
  entries : List (String × Stub ι)

namespace StubLibrary

variable {ι : Type}

/-- The first stub of that name. -/
def get? (lib : StubLibrary ι) (name : String) : Option (Stub ι) :=
  (lib.entries.find? fun e => e.1 == name).map Prod.snd

/-- Whether the library has a stub of that name. -/
def contains (lib : StubLibrary ι) (name : String) : Bool :=
  lib.entries.any fun e => e.1 == name

/-- The same library with other implementations. -/
def map {κ : Type} (f : ι → κ) (lib : StubLibrary ι) : StubLibrary κ :=
  ⟨lib.name, lib.entries.map fun e => (e.1, e.2.map f)⟩

end StubLibrary

/-- A function: a stub bound to a signature, or a function of an instantiated module, given by the
    instance it belongs to and its definition. -/
inductive Func (ι : Type) where
  | stub (name : String) (stub : Stub ι) (type : FuncType)
  | code (owner : Nat) (defn : FuncDef)

/-- The type of a function. -/
def Func.type {ι : Type} : Func ι → FuncType
  | .stub _ _ type => type
  | .code _ defn => defn.type

/-- Something that a module imports or exports: a function, or the address of a global, a table or
    a memory. -/
inductive Item (ι : Type) where
  | func (f : Func ι)
  | global (addr : Nat)
  | table (addr : Nat)
  | memory (addr : Nat)

namespace Item

variable {ι : Type}

/-- The kind of an item. -/
def kind : Item ι → ItemKind
  | func _ => .func
  | global _ => .global
  | table _ => .table
  | memory _ => .memory

/-- The function, if it is one. -/
def func? : Item ι → Option (Func ι)
  | func f => some f
  | _ => none

/-- The address of the memory, if it is one. -/
def memory? : Item ι → Option Nat
  | memory addr => some addr
  | _ => none

/-- The address of the table, if it is one. -/
def table? : Item ι → Option Nat
  | table addr => some addr
  | _ => none

/-- The address of the global, if it is one. -/
def global? : Item ι → Option Nat
  | global addr => some addr
  | _ => none

end Item

/-- What a name resolves to. -/
inductive Symbol (ι : Type) where
  | stub (library name : String) (stub : Stub ι)
  | exported (moduleName : String) (func : Func ι)

namespace Symbol

variable {ι : Type}

/-- Where the symbol comes from: a stub library or a module. -/
def source : Symbol ι → String
  | stub library _ _ => library
  | exported moduleName _ => moduleName

/-- Whether the symbol is a stub without an implementation. -/
def isUnimplemented : Symbol ι → Bool
  | stub _ _ .placeholder => true
  | _ => false

/-- How a symbol is shown. -/
def describe : Symbol ι → String
  | stub library name behaviour => library ++ "::" ++ name ++ " (" ++ behaviour.describe ++ ")"
  | exported moduleName _ => "export of " ++ moduleName

end Symbol

end WasmHost
