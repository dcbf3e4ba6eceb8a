import WasmHost.Module.Typing

set_option autoImplicit false

/-! # Well-formed modules

A module is well formed if every index in it exists, if no two exports have one name, if its
function bodies are well typed, and if nothing passes the limits of the format. Modules that are not
are refused before anything else is done with them. -/

namespace WasmHost

/-! ## Limits -/

/-- The most pages that a memory can have. -/
def maxPages : Nat := 65536

/-- The most slots that a table can start with. -/
def maxInitialSlots : Nat := 10000000

/-- The greatest number of tables, and of memories, that a module can have. -/
def maxTables : Nat := 100

/-- The greatest number of parameters, and of results, that a function can have. -/
def maxParams : Nat := 1000

/-- The greatest number of locals of a function, its parameters included. -/
def maxLocals : Nat := 50000

/-- The greatest number of bytes of a name. -/
def maxNameBytes : Nat := 100000

/-- Whether a size range is not empty and stays below `bound`. -/
def Limits.fitIn (l : Limits) (bound : Nat) : Bool :=
  decide (l.min ≤ bound) && l.max.all fun max => decide (l.min ≤ max) && decide (max ≤ bound)

/-- Whether a function can have so many parameters and results. -/
def FuncType.inLimits (t : FuncType) : Bool :=
  decide (t.params.length ≤ maxParams) && decide (t.results.length ≤ maxParams)

/-- Whether a function can have the parameters, results and locals of this one. -/
def FuncDef.inLimits (f : FuncDef) : Bool :=
  f.type.inLimits && decide (f.type.params.length + f.locals.length ≤ maxLocals)

/-- Whether a name is not too long. -/
def nameInLimits (name : String) : Bool := decide (name.utf8ByteSize ≤ maxNameBytes)

/-! ## Modules -/

namespace WasmModule

/-- The size ranges of all memories, imported ones included. -/
def memoryLimits (m : WasmModule) : List Limits :=
  (m.imports.filterMap fun i =>
    match i.desc with
    | .memory l => some l
    | _ => none) ++ m.memories

/-- The size ranges of all tables, imported ones included. -/
def tableLimits (m : WasmModule) : List Limits :=
  (m.imports.filterMap fun i =>
    match i.desc with
    | .table l => some l
    | _ => none) ++ m.tables

/-- The types of all functions, imported ones first. -/
def funcTypes (m : WasmModule) : List FuncType :=
  (m.imports.filterMap fun i =>
    match i.desc with
    | .func type => some type
    | _ => none) ++ m.funcs.map FuncDef.type

/-- The types of all globals, imported ones first. -/
def globalTypes (m : WasmModule) : List GlobalType :=
  (m.imports.filterMap fun i =>
    match i.desc with
    | .global type => some type
    | _ => none) ++ m.globals.map GlobalDef.type

/-- What all functions of the module can refer to: no locals and no results. -/
def scope (m : WasmModule) : Scope where
  funcs := m.funcTypes.toArray
  globals := m.globalTypes.toArray
  tables := m.itemCount .table
  memories := m.itemCount .memory
  locals := #[]
  results := []

/-- What is wrong with a module, if anything. -/
def defect? (m : WasmModule) : Option String :=
  let scope := m.scope
  if ¬ (m.exports.map Export.name).Nodup then some "duplicate export name"
  else if !(m.exports.all fun e => decide (e.index < m.itemCount e.kind)) then
    some "export of an unknown index"
  else if !(m.imports.all fun i => nameInLimits i.moduleName && nameInLimits i.field)
      || !(m.exports.all fun e => nameInLimits e.name) then
    some "name is too long"
  else if !(m.funcTypes.all FuncType.inLimits) then some "too many parameters or results"
  else if !(m.funcs.all FuncDef.inLimits) then some "too many locals"
  else if !(m.funcs.all scope.accepts) then some "function body is not well typed"
  else if !(m.start.all fun f => scope.funcs[f]? == some ⟨[], []⟩) then
    some "start function of the wrong type"
  else if !(m.elements.all fun s =>
      decide (0 < m.itemCount .table) && s.funcs.all fun f => decide (f < m.itemCount .func)) then
    some "unknown index in an element segment"
  else if !(m.data.isEmpty || decide (0 < m.itemCount .memory)) then
    some "data segment without a memory"
  else if maxTables < m.itemCount .memory then some "too many memories"
  else if maxTables < m.itemCount .table then some "too many tables"
  else if !(m.memoryLimits.all (·.fitIn maxPages)) then some "memory limits out of range"
  else if !(m.tableLimits.all fun l =>
      l.fitIn (UInt32.size - 1) && decide (l.min ≤ maxInitialSlots)) then
    some "table limits out of range"
  else none

end WasmModule

end WasmHost
