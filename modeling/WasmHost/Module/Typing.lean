import WasmHost.Module.Syntax

set_option autoImplicit false

/-! # Operand types

The validation of function bodies. The types of the operands on the stack are followed through the
code: an instruction takes the operands of its signature and leaves its results, a block sees none
of the operands around it and leaves none, and a jump takes what its target asks for. After a jump
the code cannot be reached, and there whatever is asked for is found below the operands that the
code itself has put on the stack.

Code that is well typed never lacks an operand when it runs, and every index in it exists. -/

namespace WasmHost

/-- What a function body can refer to. -/
structure Scope where
  funcs : Array FuncType
  globals : Array GlobalType
  /-- The number of tables. -/
  tables : Nat
  /-- The number of memories. -/
  memories : Nat
  locals : Array ValueType
  /-- The results of the function. -/
  results : List ValueType

/-! ## Stacks -/

/-- What is known of the operands on the stack. -/
structure OperandTypes where
  /-- The types of the operands, top first. -/
  types : List ValueType
  /-- Whether the code is out of reach, so that any operand can be taken when these are used up. -/
  unreachable : Bool

namespace OperandTypes

/-- The stack at the start of a block. -/
def nothing : OperandTypes := ⟨[], false⟩

/-- The stack behind a jump. -/
def anything : OperandTypes := ⟨[], true⟩

/-- Put an operand on the stack. -/
def push (s : OperandTypes) (t : ValueType) : OperandTypes := { s with types := t :: s.types }

/-- Put operands on the stack, the last of them on top. -/
def pushAll (s : OperandTypes) (ts : List ValueType) : OperandTypes := ts.foldl push s

/-- Take an operand of any type. -/
def popAny? (s : OperandTypes) : Option OperandTypes :=
  match s.types with
  | _ :: rest => some { s with types := rest }
  | [] => if s.unreachable then some s else none

/-- Take an operand of type `t`. -/
def pop? (s : OperandTypes) (t : ValueType) : Option OperandTypes :=
  match s.types with
  | top :: rest => if top = t then some { s with types := rest } else none
  | [] => if s.unreachable then some s else none

/-- Take operands of these types, the last of them from the top. -/
def popAll? (s : OperandTypes) (ts : List ValueType) : Option OperandTypes :=
  ts.foldrM (fun t s => s.pop? t) s

/-- Whether the operands are exactly of these types, the last of them on top. -/
def isExactly (s : OperandTypes) (ts : List ValueType) : Bool :=
  (s.popAll? ts).any fun rest => rest.types.isEmpty

end OperandTypes

/-! ## Instructions -/

/-- The types of the operands that an instruction takes and of the results that it leaves, inside
    blocks that take `labels` from a jump to them, innermost first. Instructions that an index makes
    meaningless have none, and neither do those that are not typed by themselves. -/
def Instr.signature? (s : Scope) (labels : List (List ValueType)) : Instr → Option FuncType
  | .const v => some ⟨[], [v.type]⟩
  | .localGet i => s.locals[i]?.map fun t => ⟨[], [t]⟩
  | .localSet i => s.locals[i]?.map fun t => ⟨[t], []⟩
  | .globalGet i => s.globals[i]?.map fun g => ⟨[], [g.content]⟩
  | .globalSet i =>
      s.globals[i]?.bind fun g => if g.isMutable then some ⟨[g.content], []⟩ else none
  | .call f => s.funcs[f]?
  | .callIndirect type =>
      if 0 < s.tables then some ⟨type.params ++ [.i32], type.results⟩ else none
  | .brIf depth => labels[depth]?.map fun ts => ⟨ts ++ [.i32], ts⟩
  | .wordEqz => some ⟨[.i32], [.i32]⟩
  | .word _ => some ⟨[.i32, .i32], [.i32]⟩
  | .long _ => some ⟨[.i64, .i64], [.i64]⟩
  | .wrap => some ⟨[.i64], [.i32]⟩
  | .truncToWord => some ⟨[.f64], [.i32]⟩
  | .load | .loadByte | .memoryGrow => if 0 < s.memories then some ⟨[.i32], [.i32]⟩ else none
  | .store | .storeByte => if 0 < s.memories then some ⟨[.i32, .i32], []⟩ else none
  | .memorySize => if 0 < s.memories then some ⟨[], [.i32]⟩ else none
  | .tableSize t => if t < s.tables then some ⟨[], [.i32]⟩ else none
  | .drop | .ret | .unreachable | .br _ | .ifElse .. | .block _ | .loop _ => none

/-- The stack behind an instruction that always jumps and takes operands of these types with it. -/
def OperandTypes.jump? (stack : OperandTypes) (ts : List ValueType) : Option OperandTypes :=
  (stack.popAll? ts).map fun _ => .anything

mutual

/-- The stack behind an instruction; none if the instruction is not well typed there. -/
def Instr.typed? (s : Scope) (labels : List (List ValueType)) :
    Instr → OperandTypes → Option OperandTypes
  | .drop, stack => stack.popAny?
  | .ret, stack => stack.jump? s.results
  | .unreachable, stack => stack.jump? []
  | .br depth, stack => do stack.jump? (← labels[depth]?)
  | .ifElse thenBody elseBody, stack => do
      let stack ← stack.pop? .i32
      guard ((← bodyTyped? s ([] :: labels) thenBody .nothing).isExactly [])
      guard ((← bodyTyped? s ([] :: labels) elseBody .nothing).isExactly [])
      return stack
  | .block body, stack => do
      guard ((← bodyTyped? s ([] :: labels) body .nothing).isExactly [])
      return stack
  | .loop body, stack => do
      guard ((← bodyTyped? s ([] :: labels) body .nothing).isExactly [])
      return stack
  | i, stack => do
      let type ← i.signature? s labels
      return (← stack.popAll? type.params).pushAll type.results

/-- The stack behind a sequence of instructions; none if it is not well typed there. -/
def bodyTyped? (s : Scope) (labels : List (List ValueType)) :
    List Instr → OperandTypes → Option OperandTypes
  | [], stack => some stack
  | i :: is, stack =>
      match i.typed? s labels stack with
      | some stack => bodyTyped? s labels is stack
      | none => none

end

/-- Whether the body of a function is well typed and leaves the results of the function, given what
    all functions of the module can refer to. The body is itself the outermost block. -/
def Scope.accepts (s : Scope) (f : FuncDef) : Bool :=
  let s := { s with
    locals := (f.type.params ++ f.locals).toArray
    results := f.type.results }
  (bodyTyped? s [s.results] f.body .nothing).any fun stack => stack.isExactly s.results

end WasmHost
