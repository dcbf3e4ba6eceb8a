import WasmHost.Binary.Reader
import WasmHost.Module.WellFormed

set_option autoImplicit false

/-! # The binary format of modules

A binary module is a header and then sections, each at most once and in a fixed order, with custom
sections anywhere between them. Modules that use more of the format than the abstract syntax has
are refused: other instructions, blocks with results, offsets of memory accesses, tables of anything
but functions, and segments that are not written at instantiation. -/

namespace WasmHost.Binary

open ByteReader

/-! ## Types -/

/-- A type of values. -/
def valueType : ByteReader ValueType := do
  match ← byte with
  | 0x7f => return .i32
  | 0x7e => return .i64
  | 0x7d => return .f32
  | 0x7c => return .f64
  | 0x7b => return .v128
  | 0x70 => return .funcref
  | 0x6f => return .externref
  | _ => throw "unknown type"

/-- A type of functions. -/
def funcType : ByteReader FuncType := do
  expect 0x60 "a function type"
  let type : FuncType := ⟨← vector valueType, ← vector valueType⟩
  ensure type.inLimits "too many parameters or results"
  return type

/-- Whether a global may be changed. -/
def mutability : ByteReader Bool := do
  match ← byte with
  | 0 => return false
  | 1 => return true
  | _ => throw "malformed mutability"

/-- A size range. -/
def limits : ByteReader Limits := do
  match ← byte with
  | 0 => return ⟨← unsigned, none⟩
  | 1 => return ⟨← unsigned, some (← unsigned)⟩
  | _ => throw "unknown form of limits"

/-- A type of tables, whose elements are functions. -/
def tableType : ByteReader Limits := do
  expect 0x70 "a table of functions"
  limits

/-- What a list of entities has at an index. -/
def entry {α : Type} (entries : List α) (index : Nat) : ByteReader α :=
  match entries[index]? with
  | some a => return a
  | none => throw "unknown index"

/-! ## Instructions -/

/-- The alignment and the offset of a memory access. Alignments are given as logarithms; that of
    an access is at most the number of bytes accessed. -/
def memoryAccess (maxAlignment : Nat) : ByteReader Unit := do
  ensure ((← unsigned) ≤ maxAlignment) "alignment is too large"
  ensure ((← unsigned) == 0) "offsets of memory accesses are not supported"

/-- A constant, after its opcode. -/
def constant? (op : UInt8) : Option (ByteReader Value) :=
  match op with
  | 0x41 => some do return .i32 (UInt32.ofInt (← signed 32))
  | 0x42 => some do return .i64 (UInt64.ofInt (← signed 64))
  | 0x43 => some do return .f32 (← littleEndian 4).toUInt32
  | 0x44 => some do return .f64 (← littleEndian 8).toUInt64
  | _ => none

/-- An operation of a family whose opcodes follow each other from `first` on. -/
def family {α : Type} (ops : List α) (first op : UInt8) : Option α :=
  if first ≤ op then ops[op.toNat - first.toNat]? else none

/-- An instruction without a body, after its opcode. -/
def plainInstr (types : List FuncType) (op : UInt8) : ByteReader Instr := do
  match op with
  -- Control.
  | 0x00 => return .unreachable
  | 0x0c => return .br (← unsigned)
  | 0x0d => return .brIf (← unsigned)
  | 0x0f => return .ret
  | 0x10 => return .call (← unsigned)
  | 0x11 =>
      let type ← entry types (← unsigned)
      expect 0 "table 0"
      return .callIndirect type
  -- Variables.
  | 0x1a => return .drop
  | 0x20 => return .localGet (← unsigned)
  | 0x21 => return .localSet (← unsigned)
  | 0x23 => return .globalGet (← unsigned)
  | 0x24 => return .globalSet (← unsigned)
  -- Memory.
  | 0x28 => do memoryAccess 2; return .load
  | 0x2d => do memoryAccess 0; return .loadByte
  | 0x36 => do memoryAccess 2; return .store
  | 0x3a => do memoryAccess 0; return .storeByte
  | 0x3f => do expect 0 "memory 0"; return .memorySize
  | 0x40 => do expect 0 "memory 0"; return .memoryGrow
  -- Numbers.
  | 0x45 => return .wordEqz
  | 0xa7 => return .wrap
  | 0xaa => return .truncToWord
  -- The size of a table is the only instruction of this group.
  | 0xfc =>
      ensure ((← unsigned) == 16) "unsupported instruction"
      return .tableSize (← unsigned)
  | _ =>
      match constant? op, family WordOp.comparisons 0x46 op, family WordOp.computations 0x6a op,
        family [LongOp.add, .sub, .mul, .divS] 0x7c op with
      | some value, _, _, _ => return .const (← value)
      | _, some w, _, _ => return .word w
      | _, _, some w, _ => return .word w
      | _, _, _, some l => return .long l
      | _, _, _, _ => throw "unsupported instruction"

/-- What ended a sequence of instructions. -/
inductive BodyEnd where
  | finished
  | elseFollows
deriving DecidableEq

/-- A sequence of instructions and what ended it. The fuel bounds the number of instructions. -/
def body (types : List FuncType) : (fuel : Nat) → ByteReader (List Instr × BodyEnd)
  | 0 => throw "unexpected end"
  | fuel + 1 => do
      let block : ByteReader (List Instr × BodyEnd) := do
        expect 0x40 "a block without results"
        body types fuel
      let closed : ByteReader (List Instr) := do
        let (is, stop) ← block
        ensure (stop == .finished) "unexpected else"
        return is
      let continueWith (i : Instr) : ByteReader (List Instr × BodyEnd) := do
        let (is, stop) ← body types fuel
        return (i :: is, stop)
      match ← byte with
      | 0x0b => return ([], .finished)
      | 0x05 => return ([], .elseFollows)
      -- An instruction that does nothing is left out.
      | 0x01 => body types fuel
      | 0x02 => continueWith (.block (← closed))
      | 0x03 => continueWith (.loop (← closed))
      | 0x04 =>
          let (thenBody, stop) ← block
          if stop == .finished then continueWith (.ifElse thenBody [])
          else
            let (elseBody, stop) ← body types fuel
            ensure (stop == .finished) "unexpected else"
            continueWith (.ifElse thenBody elseBody)
      | op => continueWith (← plainInstr types op)

/-- A sequence of instructions up to its end. -/
def expression (types : List FuncType) : ByteReader (List Instr) := do
  let (is, stop) ← body types (← get).length
  ensure (stop == .finished) "unexpected else"
  return is

/-- An expression that is a constant and nothing else. -/
def constantExpression : ByteReader Value := do
  match constant? (← byte) with
  | some value =>
      let value ← value
      expect 0x0b "the end of a constant expression"
      return value
  | none => throw "unsupported constant expression"

/-- The constant address or slot at which a segment starts. -/
def segmentOffset : ByteReader Nat := do
  expect 0 "a segment that is written at instantiation"
  match ← constantExpression with
  | .i32 v => return v.toNat
  | _ => throw "unsupported offset of a segment"

/-! ## Sections -/

/-- An import. -/
def importEntry (types : List FuncType) : ByteReader Import := do
  let moduleName ← text
  let field ← text
  let desc : ImportDesc ← match ← byte with
    | 0 => do pure (.func (← entry types (← unsigned)))
    | 1 => do pure (.table (← tableType))
    | 2 => do pure (.memory (← limits))
    | 3 => do pure (.global ⟨← valueType, ← mutability⟩)
    | _ => throw "unknown kind of import"
  return ⟨moduleName, field, desc⟩

/-- A global with its first value. -/
def globalEntry : ByteReader GlobalDef := do
  let type : GlobalType := ⟨← valueType, ← mutability⟩
  let g : GlobalDef := ⟨type.isMutable, ← constantExpression⟩
  ensure (g.type == type) "global of another type than its value"
  return g

/-- An export. -/
def exportEntry : ByteReader Export := do
  let name ← text
  let kind : ItemKind ← match ← byte with
    | 0 => pure .func
    | 1 => pure .table
    | 2 => pure .memory
    | 3 => pure .global
    | _ => throw "unknown kind of export"
  return ⟨name, kind, ← unsigned⟩

/-- The locals of a function, given as counts of equal types. -/
def locals : ByteReader (List ValueType) := do
  let groups ← vector do return (← unsigned, ← valueType)
  ensure (groups.foldl (fun n g => n + g.1) 0 ≤ maxLocals) "too many locals"
  return groups.flatMap fun g => List.replicate g.1 g.2

/-- The locals and the body of a function. -/
def code (types : List FuncType) : ByteReader (List ValueType × List Instr) := do
  let bytes ← block
  match ByteReader.all (do return (← locals, ← expression types)) bytes with
  | .ok c => return c
  | .error e => throw e

/-- The sections after the header: numbers and contents. -/
def sections : (fuel : Nat) → ByteReader (List (UInt8 × List UInt8))
  | 0 => return []
  | fuel + 1 => do
      if ← atEnd then return []
      let id ← byte
      let contents ← block
      return (id, contents) :: (← sections fuel)

/-- The numbers of the sections in the order in which they must come; 12, a count of data segments,
    stands before the code. -/
def sectionOrder : List UInt8 := [1, 2, 3, 4, 5, 6, 7, 8, 9, 12, 10, 11]

/-- Whether every number occurs in the second list, in its order and not twice. -/
def inOrder : List UInt8 → List UInt8 → Bool
  | [], _ => true
  | _ :: _, [] => false
  | id :: ids, o :: order => if id == o then inOrder ids order else inOrder (id :: ids) order

/-- The contents of a section, if there is one of that number. -/
def readSection {α : Type} (all : List (UInt8 × List UInt8)) (id : UInt8) (absent : α)
    (d : ByteReader α) : Except String α :=
  match all.find? fun s => s.1 == id with
  | some s => d.all s.2
  | none => .ok absent

/-- The first eight bytes of a binary module. -/
def header : List UInt8 := [0x00, 0x61, 0x73, 0x6d, 0x01, 0x00, 0x00, 0x00]

/-- The module that a byte sequence is. -/
def decode (bytes : List UInt8) : Except String WasmModule := do
  if bytes.take header.length != header then throw "not a binary module"
  let all ← (sections bytes.length).all (bytes.drop header.length)
  let custom := all.filter fun s => s.1 == 0
  let all := all.filter fun s => s.1 != 0
  for s in custom do
    let (name, _) ← text.run s.2
    if !nameInLimits name then throw "name is too long"
  if !inOrder (all.map Prod.fst) sectionOrder then throw "unexpected section"
  let types ← readSection all 1 [] (vector funcType)
  let imports ← readSection all 2 [] (vector (importEntry types))
  let funcTypes ← readSection all 3 [] (vector do entry types (← unsigned))
  let codes ← readSection all 10 [] (vector (code types))
  if funcTypes.length != codes.length then throw "functions and bodies differ in number"
  let data ← readSection all 11 [] (vector do return ⟨← segmentOffset, ← block⟩)
  let dataCount ← readSection all 12 data.length unsigned
  if dataCount != data.length then throw "data segments are not as many as announced"
  return {
    imports := imports
    tables := ← readSection all 4 [] (vector tableType)
    memories := ← readSection all 5 [] (vector limits)
    globals := ← readSection all 6 [] (vector globalEntry)
    funcs := (funcTypes.zip codes).map fun f => ⟨f.1, f.2.1, f.2.2⟩
    exports := ← readSection all 7 [] (vector exportEntry)
    start := ← readSection all 8 none do return some (← unsigned)
    elements := ← readSection all 9 [] (vector do return ⟨← segmentOffset, ← vector unsigned⟩)
    data := data }

end WasmHost.Binary
