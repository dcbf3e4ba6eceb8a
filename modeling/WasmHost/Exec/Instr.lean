import WasmHost.Exec.Frame
import WasmHost.Machine
import WasmHost.Module.Numeric

set_option autoImplicit false

/-! # Executing instructions

Instructions work on the frame of the running function and on the store; they never touch the state
of the host. The only way out of a function is `call`, which is a parameter: `invoke` for the calls
that are still allowed on the call stack.

Execution is total. Bodies are executed by recursion on their syntax; a loop repeats at most as
often as its fuel allows and then traps. -/

namespace WasmHost

/-- Call a function with arguments. -/
abbrev Call (ι : Type) := Func ι → List Value → Action ι Failure (List Value)

/-! ## Access to the store -/

namespace Exec

variable {ι : Type}

/-- Fail by a trap. -/
def trap {α : Type} (t : Trap) : Action ι Failure α := Action.ofExcept (.error (.ofTrap t))

/-- What an index stands for; code without such an index is stuck. -/
def addressOf {α : Type} (addrs : List α) (index : Nat) : Action ι Failure α :=
  Action.ofExcept (match addrs[index]? with
    | some addr => .ok addr
    | none => .error stuck)

/-- The memory that instructions work on. -/
def memoryOf (inst : Instance ι) : Action ι Failure (Nat × MemoryInstance) := do
  let addr ← addressOf inst.memories 0
  return (addr, (← Action.getStore).memoryAt addr)

/-- The `count` bytes at `addr` as a little-endian number. -/
def loadBytes (inst : Instance ι) (addr : UInt32) (count : Nat) : Action ι Failure Nat := do
  let (_, memory) ← memoryOf inst
  if memory.contents.InBounds addr.toNat count then
    return (memory.contents.slice addr.toNat count).foldr (fun b n => b.toNat + 256 * n) 0
  else trap .memoryOutOfBounds

/-- Put the low `count` bytes of `n` at `addr`, least significant first. -/
def storeBytes (inst : Instance ι) (addr : UInt32) (count n : Nat) : Action ι Failure Unit := do
  let (memAddr, memory) ← memoryOf inst
  if memory.contents.InBounds addr.toNat count then
    let contents := memory.contents.overlay addr.toNat (addr.toNat + count)
      (fun i => (n >>> (8 * (i - addr.toNat))).toUInt8)
    Action.modifyStore (·.setContents memAddr contents)
  else trap .memoryOutOfBounds

/-- Grow the memory by some pages. The result is the size before in pages, or -1 if it cannot
    grow. -/
def growMemory (inst : Instance ι) (delta : UInt32) : Action ι Failure UInt32 := do
  let (memAddr, memory) ← memoryOf inst
  match memory.grow? delta.toNat with
  | some grown =>
      Action.modifyStore (·.setMemory memAddr grown)
      return memory.pages.toUInt32
  | none => return 0xffffffff

/-- The function in a slot of table 0, which must be of the given type. -/
def tableFunc (inst : Instance ι) (type : FuncType) (slot : UInt32) :
    Action ι Failure (Func ι) := do
  let addr ← addressOf inst.tables 0
  match ((← Action.getStore).tableAt addr).slots[slot.toNat]? with
  | none => trap .tableOutOfBounds
  | some none => trap .indirectCallToNull
  | some (some f) => if f.type = type then return f else trap .badSignature

/-- Call a function with operands from the stack and put its results there. -/
def callFrom (call : Call ι) (f : Func ι) (fr : Frame) : Action ι Failure Flow := do
  let (args, fr) ← Action.ofExcept (fr.popMany f.type.params.length)
  let results ← call f args
  return .next (fr.pushMany results)

/-- Repeat a body as long as it ends by a branch to its loop; each round starts with the operands
    with which the loop was entered. -/
def repeatLoop (body : Frame → Action ι Failure Flow) (stack : List Value) :
    (fuel : Nat) → Frame → Action ι Failure Flow
  | 0, _ => trap .outOfFuel
  | fuel + 1, fr => do
      match ← body fr with
      | .branch 0 fr' => repeatLoop body stack fuel { fr' with stack := stack }
      | .branch (d + 1) fr' => return .branch d fr'
      | flow => return flow

end Exec

/-! ## Instructions -/

section

open Exec

variable {ι : Type}

mutual

/-- Execute one instruction of a function of `inst`. -/
def Instr.exec (fuel : Nat) (call : Call ι) (inst : Instance ι) :
    Instr → Frame → Action ι Failure Flow
  | .const v, fr => return .next (fr.push v)
  | .localGet i, fr => return .next (fr.push (fr.locals.getD i default))
  | .localSet i, fr => do
      let (v, fr) ← Action.ofExcept fr.pop
      return .next { fr with locals := fr.locals.setIfInBounds i v }
  | .globalGet i, fr => do
      let addr ← addressOf inst.globals i
      return .next (fr.push ((← Action.getStore).globalAt addr))
  | .globalSet i, fr => do
      let (v, fr) ← Action.ofExcept fr.pop
      let addr ← addressOf inst.globals i
      Action.modifyStore (·.setGlobal addr v)
      return .next fr
  | .call f, fr => do callFrom call (← addressOf inst.funcs f) fr
  | .callIndirect type, fr => do
      let (slot, fr) ← Action.ofExcept fr.popWord
      callFrom call (← tableFunc inst type slot) fr
  | .drop, fr => do
      let (_, fr) ← Action.ofExcept fr.pop
      return .next fr
  | .ret, fr => return .ret fr
  | .unreachable, _ => trap .unreachableCodeReached
  | .ifElse thenBody elseBody, fr => do
      let (c, fr) ← Action.ofExcept fr.popWord
      let flow ← if c ≠ 0 then execBody fuel call inst thenBody fr
        else execBody fuel call inst elseBody fr
      return flow.leaveBlock fr.stack
  | .block body, fr => do
      let flow ← execBody fuel call inst body fr
      return flow.leaveBlock fr.stack
  | .loop body, fr => repeatLoop (execBody fuel call inst body) fr.stack fuel fr
  | .br d, fr => return .branch d fr
  | .brIf d, fr => do
      let (c, fr) ← Action.ofExcept fr.popWord
      return if c ≠ 0 then .branch d fr else .next fr
  | .wordEqz, fr => do
      let (a, fr) ← Action.ofExcept fr.popWord
      return .next (fr.push (.i32 (wordOfBool (a == 0))))
  | .word op, fr => do
      let (b, fr) ← Action.ofExcept fr.popWord
      let (a, fr) ← Action.ofExcept fr.popWord
      match op.apply a b with
      | .ok r => return .next (fr.push (.i32 r))
      | .error t => trap t
  | .long op, fr => do
      let (b, fr) ← Action.ofExcept fr.popLong
      let (a, fr) ← Action.ofExcept fr.popLong
      match op.apply a b with
      | .ok r => return .next (fr.push (.i64 r))
      | .error t => trap t
  | .wrap, fr => do
      let (a, fr) ← Action.ofExcept fr.popLong
      return .next (fr.push (.i32 a.toUInt32))
  | .truncToWord, fr => do
      let (a, fr) ← Action.ofExcept fr.popReal
      match WasmHost.truncToWord a with
      | .ok r => return .next (fr.push (.i32 r))
      | .error t => trap t
  | .load, fr => do
      let (addr, fr) ← Action.ofExcept fr.popWord
      return .next (fr.push (.i32 (← loadBytes inst addr 4).toUInt32))
  | .loadByte, fr => do
      let (addr, fr) ← Action.ofExcept fr.popWord
      return .next (fr.push (.i32 (← loadBytes inst addr 1).toUInt32))
  | .store, fr => do
      let (v, fr) ← Action.ofExcept fr.popWord
      let (addr, fr) ← Action.ofExcept fr.popWord
      storeBytes inst addr 4 v.toNat
      return .next fr
  | .storeByte, fr => do
      let (v, fr) ← Action.ofExcept fr.popWord
      let (addr, fr) ← Action.ofExcept fr.popWord
      storeBytes inst addr 1 v.toNat
      return .next fr
  | .memorySize, fr => do
      let (_, memory) ← memoryOf inst
      return .next (fr.push (.i32 memory.pages.toUInt32))
  | .memoryGrow, fr => do
      let (delta, fr) ← Action.ofExcept fr.popWord
      return .next (fr.push (.i32 (← growMemory inst delta)))
  | .tableSize t, fr => do
      let addr ← addressOf inst.tables t
      return .next (fr.push (.i32 ((← Action.getStore).tableAt addr).slots.size.toUInt32))

/-- Execute a sequence of instructions. -/
def execBody (fuel : Nat) (call : Call ι) (inst : Instance ι) :
    List Instr → Frame → Action ι Failure Flow
  | [], fr => return .next fr
  | i :: is, fr => do
      match ← i.exec fuel call inst fr with
      | .next fr' => execBody fuel call inst is fr'
      | flow => return flow

end

/-- Run a function of `inst`: its locals are the arguments and then zeros, its results the values
    that its body leaves on top of the stack. -/
def FuncDef.run (fuel : Nat) (call : Call ι) (inst : Instance ι) (f : FuncDef)
    (args : List Value) : Action ι Failure (List Value) := do
  let locals := args ++ f.locals.map Value.zero
  match ← execBody fuel call inst f.body ⟨locals.toArray, []⟩ with
  | .next fr | .branch _ fr | .ret fr => do
      let (results, _) ← Action.ofExcept (fr.popMany f.type.results.length)
      return results

end

end WasmHost
