import WasmHost.Value

set_option autoImplicit false

/-! # Modules

The abstract syntax of the WebAssembly modules that the host runs: imports, definitions, exports,
segments and a start function. Function bodies are sequences of stack instructions; blocks, loops
and conditionals hold sequences of their own and have no parameters and no results.

Every index space counts the imports of its kind first. -/

namespace WasmHost

/-- The kinds of things that modules import and export. -/
inductive ItemKind where
  | func
  | global
  | table
  | memory
deriving DecidableEq

/-- The name of a kind. -/
def ItemKind.name : ItemKind → String
  | .func => "func"
  | .global => "global"
  | .table => "table"
  | .memory => "memory"

/-- The kind of a name. -/
def ItemKind.ofName? (name : String) : Option ItemKind :=
  [ItemKind.func, .global, .table, .memory].find? fun k => k.name == name

/-- The least and the greatest size of a memory (in pages) or a table (in slots). -/
structure Limits where
  min : Nat
  max : Option Nat
deriving DecidableEq

/-- The type of a global: what it holds, and whether code may change it. -/
structure GlobalType where
  content : ValueType
  isMutable : Bool
deriving DecidableEq

/-! ## Instructions -/

/-- The operations on two 32-bit integers. -/
inductive WordOp where
  | eq | ne | ltS | ltU | gtS | gtU | leS | leU | geS | geU
  | add | sub | mul | divS | divU | remS | remU
  | and | or | xor | shl | shrS | shrU
deriving DecidableEq

/-- The name of an operation. -/
def WordOp.name : WordOp → String
  | .eq => "eq" | .ne => "ne"
  | .ltS => "lt_s" | .ltU => "lt_u" | .gtS => "gt_s" | .gtU => "gt_u"
  | .leS => "le_s" | .leU => "le_u" | .geS => "ge_s" | .geU => "ge_u"
  | .add => "add" | .sub => "sub" | .mul => "mul"
  | .divS => "div_s" | .divU => "div_u" | .remS => "rem_s" | .remU => "rem_u"
  | .and => "and" | .or => "or" | .xor => "xor"
  | .shl => "shl" | .shrS => "shr_s" | .shrU => "shr_u"

/-- The operations that compare, in the order of the binary format. -/
def WordOp.comparisons : List WordOp :=
  [.eq, .ne, .ltS, .ltU, .gtS, .gtU, .leS, .leU, .geS, .geU]

/-- The operations that compute a number, in the order of the binary format. -/
def WordOp.computations : List WordOp :=
  [.add, .sub, .mul, .divS, .divU, .remS, .remU, .and, .or, .xor, .shl, .shrS, .shrU]

/-- The operation of a name. -/
def WordOp.ofName? (name : String) : Option WordOp :=
  (comparisons ++ computations).find? fun op => op.name == name

/-- The operations on two 64-bit integers. -/
inductive LongOp where
  | add | sub | mul | divS
deriving DecidableEq

/-- The name of an operation. -/
def LongOp.name : LongOp → String
  | .add => "add" | .sub => "sub" | .mul => "mul" | .divS => "div_s"

/-- The operation of a name. -/
def LongOp.ofName? (name : String) : Option LongOp :=
  [LongOp.add, .sub, .mul, .divS].find? fun op => op.name == name

/-- The instructions. Operands are taken from the stack. -/
inductive Instr where
  | const (v : Value)
  | localGet (i : Nat)
  | localSet (i : Nat)
  | globalGet (i : Nat)
  | globalSet (i : Nat)
  | call (f : Nat)
  /-- Call through table 0. -/
  | callIndirect (type : FuncType)
  | drop
  | ret
  | unreachable
  | ifElse (thenBody elseBody : List Instr)
  | block (body : List Instr)
  | loop (body : List Instr)
  | br (depth : Nat)
  | brIf (depth : Nat)
  | wordEqz
  | word (op : WordOp)
  | long (op : LongOp)
  /-- Keep the low word of a 64-bit integer. -/
  | wrap
  /-- Truncate a double-precision number to a 32-bit integer. -/
  | truncToWord
  | load
  | loadByte
  | store
  | storeByte
  | memorySize
  | memoryGrow
  | tableSize (t : Nat)

/-- A function that a module defines. -/
structure FuncDef where
  type : FuncType
  locals : List ValueType
  body : List Instr

/-- A global that a module defines, with its first value. -/
structure GlobalDef where
  isMutable : Bool
  initial : Value

/-- The type of a global. -/
def GlobalDef.type (g : GlobalDef) : GlobalType := ⟨g.initial.type, g.isMutable⟩

/-! ## Modules -/

/-- What an import asks for. -/
inductive ImportDesc where
  | func (type : FuncType)
  | memory (limits : Limits)
  | table (limits : Limits)
  | global (type : GlobalType)

/-- The kind of thing that an import asks for. -/
def ImportDesc.kind : ImportDesc → ItemKind
  | .func _ => .func
  | .memory _ => .memory
  | .table _ => .table
  | .global _ => .global

/-- An import: what is asked for, under which module and field name. -/
structure Import where
  moduleName : String
  field : String
  desc : ImportDesc

/-- An export: an index of one of the index spaces under a name. -/
structure Export where
  name : String
  kind : ItemKind
  index : Nat

/-- Functions to be put into table 0 from a slot on. -/
structure ElementSegment where
  offset : Nat
  funcs : List Nat

/-- Bytes to be put into memory 0 from an address on. -/
structure DataSegment where
  offset : Nat
  bytes : List UInt8

/-- A module. -/
structure WasmModule where
  imports : List Import
  tables : List Limits
  memories : List Limits
  globals : List GlobalDef
  funcs : List FuncDef
  exports : List Export
  elements : List ElementSegment
  data : List DataSegment
  start : Option Nat

/-- The module without contents. -/
def WasmModule.empty : WasmModule := ⟨[], [], [], [], [], [], [], [], none⟩

/-- The number of imports of a kind. -/
def WasmModule.importCount (m : WasmModule) (kind : ItemKind) : Nat :=
  m.imports.countP fun i => i.desc.kind == kind

/-- The size of the index space of a kind. -/
def WasmModule.itemCount (m : WasmModule) (kind : ItemKind) : Nat :=
  m.importCount kind + match kind with
    | .func => m.funcs.length
    | .global => m.globals.length
    | .table => m.tables.length
    | .memory => m.memories.length

end WasmHost
