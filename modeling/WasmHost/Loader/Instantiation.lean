import WasmHost.Exec.Instr

set_option autoImplicit false

/-! # Instantiation

A module and the items that its imports are bound to become an instance in the store. The types of
the bound items are checked first. Then the instance is allocated, its table and memory segments
are written in order, and its start function is called. Whatever was done before a failure stays
done: earlier segments stay written. -/

namespace WasmHost

variable {ι : Type}

/-- How functions are called on behalf of a module, given the exports of that module. -/
abbrev Caller.Calls (ι : Type) := List (String × Item ι) → Call ι

/-- Whether a memory can stand in for an import with these limits: it is large enough now and, if
    the import has a maximum, can never grow beyond it. -/
def MemoryInstance.satisfies (m : MemoryInstance) (limits : Limits) : Bool :=
  decide (limits.min ≤ m.pages) && limits.max.all fun max => m.maxPages.any fun own => own ≤ max

/-- Whether an item has the type that an import asks for. -/
def ImportDesc.accepts (store : Store ι) : ImportDesc → Item ι → Bool
  | .func type, .func f => f.type == type
  | .memory limits, .memory addr => (store.memoryAt addr).satisfies limits
  | _, _ => false

/-- Whether the bound items are as many as the imports and have their types. -/
def WasmModule.acceptsImports (m : WasmModule) (store : Store ι) (items : List (Item ι)) : Bool :=
  m.imports.length == items.length
    && (m.imports.zip items).all fun e => e.1.desc.accepts store e.2

/-- What the indices of a module stand for when it becomes the next instance of the store. -/
def WasmModule.newInstance (m : WasmModule) (store : Store ι) (items : List (Item ι)) :
    Instance ι :=
  let inst : Instance ι :=
    { funcs := items.filterMap Item.func? ++ m.funcs.map (.code store.instances.size)
      globals := items.filterMap Item.global?
        ++ List.range' store.globals.size m.globals.length
      tables := items.filterMap Item.table? ++ List.range' store.tables.size m.tables.length
      memories := items.filterMap Item.memory?
        ++ List.range' store.memories.size m.memories.length
      exports := [] }
  { inst with
    exports := m.exports.filterMap fun e =>
      (inst.item? e.kind e.index).map fun item => (e.name, item) }

/-- The store with the module's own memories, tables and globals and with the new instance. -/
def WasmModule.allocate (m : WasmModule) (store : Store ι) (inst : Instance ι) : Store ι :=
  { instances := store.instances.push inst
    memories := store.memories ++ (m.memories.map MemoryInstance.new).toArray
    tables := store.tables ++ (m.tables.map TableInstance.new).toArray
    globals := store.globals ++ (m.globals.map GlobalDef.initial).toArray }

namespace Exec

/-- Put the functions of a segment into table 0. -/
def writeElements (inst : Instance ι) (segment : ElementSegment) : Action ι Failure Unit := do
  let addr ← addressOf inst.tables 0
  let funcs := segment.funcs.filterMap fun f => inst.funcs[f]?
  match ((← Action.getStore).tableAt addr).setRange? segment.offset funcs with
  | some table => Action.modifyStore (·.setTable addr table)
  | none => trap .tableOutOfBounds

/-- Put the bytes of a segment into memory 0. -/
def writeData (inst : Instance ι) (segment : DataSegment) : Action ι Failure Unit := do
  let (addr, memory) ← memoryOf inst
  match memory.contents.write segment.offset.toUInt32 segment.bytes with
  | .ok contents => Action.modifyStore (·.setContents addr contents)
  | .error _ => trap .memoryOutOfBounds

/-- Call the start function of a module, if it has one. -/
def runStart (calls : Caller.Calls ι) (m : WasmModule) (inst : Instance ι) :
    Action ι Failure Unit := do
  match m.start with
  | none => return ()
  | some f =>
      let func ← addressOf inst.funcs f
      let _ ← calls inst.exports func []
      return ()

end Exec

/-- Instantiate a module with bound imports; the result is the address of the instance. -/
def WasmModule.instantiate (m : WasmModule) (calls : Caller.Calls ι) (items : List (Item ι)) :
    Action ι Failure Nat := do
  let store ← Action.getStore
  if !m.acceptsImports store items then
    Action.ofExcept (.error (.ofCause (.text "incompatible import type")))
  let inst := m.newInstance store items
  Action.modifyStore (m.allocate · inst)
  m.elements.forM (Exec.writeElements inst)
  m.data.forM (Exec.writeData inst)
  Exec.runStart calls m inst
  return store.instances.size

end WasmHost
