import WasmHost.Memory.Error

set_option autoImplicit false

/-! # Faults, traps and failures

Running code ends early in one of four ways: a fault raised on purpose by a host function (`exit`,
a function without an implementation), a failed memory access of the host, a trap of the execution
engine, or a failure that is only a text. `Failure` is what travels out through the frames of
running code: the cause, and the contexts added on the way. -/

namespace WasmHost

/-- The traps that are told apart in reports. -/
inductive TrapKind where
  | unreachable
  | memoryOutOfBounds
  | divideByZero
  | divideResultUnrepresentable
  | remainderByZero
  | integerResultUnrepresentable
  | invalidFunction
  | signatureMismatch
deriving DecidableEq

namespace TrapKind

/-- Every kind, in order. -/
def all : List TrapKind :=
  [.unreachable, .memoryOutOfBounds, .divideByZero, .divideResultUnrepresentable, .remainderByZero,
    .integerResultUnrepresentable, .invalidFunction, .signatureMismatch]

/-- The name of a kind. -/
def name : TrapKind → String
  | .unreachable => "Unreachable"
  | .memoryOutOfBounds => "MemoryOutOfBounds"
  | .divideByZero => "DivideByZero"
  | .divideResultUnrepresentable => "DivideResultUnrepresentable"
  | .remainderByZero => "RemainderByZero"
  | .integerResultUnrepresentable => "IntegerResultUnrepresentable"
  | .invalidFunction => "InvalidFunction"
  | .signatureMismatch => "SignatureMismatch"

/-- The text of a trap. -/
def message : TrapKind → String
  | .unreachable => "unreachable"
  | .memoryOutOfBounds => "memory access out of bounds"
  | .divideByZero => "divide by zero"
  | .divideResultUnrepresentable => "divide result unrepresentable"
  | .remainderByZero => "remainder by zero"
  | .integerResultUnrepresentable => "integer result unrepresentable"
  | .invalidFunction => "invalid function"
  | .signatureMismatch => "function signature mismatch"

end TrapKind

/-- The traps of the execution engine. -/
inductive Trap where
  | stackOverflow
  | memoryOutOfBounds
  | heapMisaligned
  | tableOutOfBounds
  | indirectCallToNull
  | badSignature
  | integerOverflow
  | integerDivisionByZero
  | badConversionToInteger
  | unreachableCodeReached
  | interrupt
  | alwaysTrapAdapter
  | outOfFuel
  | atomicWaitNonSharedMemory
  | nullReference
  | arrayOutOfBounds
  | allocationTooLarge
  | castFailure
  | cannotEnterComponent
deriving DecidableEq

/-- Every trap. -/
def Trap.all : List Trap :=
  [.stackOverflow, .memoryOutOfBounds, .heapMisaligned, .tableOutOfBounds, .indirectCallToNull,
    .badSignature, .integerOverflow, .integerDivisionByZero, .badConversionToInteger,
    .unreachableCodeReached, .interrupt, .alwaysTrapAdapter, .outOfFuel,
    .atomicWaitNonSharedMemory, .nullReference, .arrayOutOfBounds, .allocationTooLarge,
    .castFailure, .cannotEnterComponent]

/-- The name of a trap. -/
def Trap.name : Trap → String
  | .stackOverflow => "StackOverflow"
  | .memoryOutOfBounds => "MemoryOutOfBounds"
  | .heapMisaligned => "HeapMisaligned"
  | .tableOutOfBounds => "TableOutOfBounds"
  | .indirectCallToNull => "IndirectCallToNull"
  | .badSignature => "BadSignature"
  | .integerOverflow => "IntegerOverflow"
  | .integerDivisionByZero => "IntegerDivisionByZero"
  | .badConversionToInteger => "BadConversionToInteger"
  | .unreachableCodeReached => "UnreachableCodeReached"
  | .interrupt => "Interrupt"
  | .alwaysTrapAdapter => "AlwaysTrapAdapter"
  | .outOfFuel => "OutOfFuel"
  | .atomicWaitNonSharedMemory => "AtomicWaitNonSharedMemory"
  | .nullReference => "NullReference"
  | .arrayOutOfBounds => "ArrayOutOfBounds"
  | .allocationTooLarge => "AllocationTooLarge"
  | .castFailure => "CastFailure"
  | .cannotEnterComponent => "CannotEnterComponent"

/-- The trap of a name. -/
def Trap.ofName? (name : String) : Option Trap := Trap.all.find? fun t => t.name == name

/-- The kind under which a trap is reported. Exhausted stacks, interrupts and the traps of features
    that programs here do not use have none. A remainder by zero traps as a division by zero. -/
def TrapKind.ofTrap? : Trap → Option TrapKind
  | .unreachableCodeReached => some .unreachable
  | .memoryOutOfBounds | .heapMisaligned => some .memoryOutOfBounds
  | .integerDivisionByZero => some .divideByZero
  | .integerOverflow => some .divideResultUnrepresentable
  | .badConversionToInteger => some .integerResultUnrepresentable
  | .indirectCallToNull | .tableOutOfBounds => some .invalidFunction
  | .badSignature => some .signatureMismatch
  | _ => none

/-- What the engine says about a trap. -/
def Trap.message : Trap → String
  | .stackOverflow => "call stack exhausted"
  | .memoryOutOfBounds => "out of bounds memory access"
  | .heapMisaligned => "misaligned memory access"
  | .tableOutOfBounds => "undefined element: out of bounds table access"
  | .indirectCallToNull => "uninitialized element"
  | .badSignature => "indirect call type mismatch"
  | .integerOverflow => "integer overflow"
  | .integerDivisionByZero => "integer divide by zero"
  | .badConversionToInteger => "invalid conversion to integer"
  | .unreachableCodeReached => "unreachable instruction executed"
  | .interrupt => "interrupt"
  | .alwaysTrapAdapter => "degenerate component adapter called"
  | .outOfFuel => "all fuel consumed"
  | .atomicWaitNonSharedMemory => "atomic wait on non-shared memory"
  | .nullReference => "null reference"
  | .arrayOutOfBounds => "out of bounds array access"
  | .allocationTooLarge => "allocation size too large"
  | .castFailure => "cast failure"
  | .cannotEnterComponent => "cannot enter component instance"

/-- The fatal conditions that host functions raise. -/
inductive Fault where
  /-- `exit`, `abort` and friends. -/
  | terminate (status : Int32) (reason : String)
  /-- A function without an implementation was called. -/
  | unimplemented (what : String)
  /-- A trap raised by the host in place of the engine. -/
  | trap (kind : TrapKind)
deriving DecidableEq

/-- The text of a fault. -/
def Fault.message : Fault → String
  | .terminate _ reason => "Terminating WebAssembly: " ++ reason
  | .unimplemented what => "Not yet implemented: " ++ what
  | .trap kind => kind.message

/-- A failed memory access of the host counts as the engine's out-of-bounds trap. -/
def Fault.ofMemoryError (_ : MemoryError) : Fault := .trap .memoryOutOfBounds

/-- Why running code failed. -/
inductive Cause where
  | fault (f : Fault)
  | memory (e : MemoryError)
  | trap (t : Trap)
  | text (message : String)
deriving DecidableEq

/-- The text of a cause. -/
def Cause.message : Cause → String
  | .fault f => f.message
  | .memory e => e.message
  | .trap t => t.message
  | .text message => message

/-- A cause and the contexts added to it on the way out, outermost first. -/
structure Failure where
  cause : Cause
  contexts : List String
deriving DecidableEq

namespace Failure

/-- A failure without contexts. -/
def ofCause (cause : Cause) : Failure := ⟨cause, []⟩

/-- A failure by a fault. -/
def ofFault (f : Fault) : Failure := ofCause (.fault f)

/-- A failure by a failed memory access. -/
def ofMemoryError (e : MemoryError) : Failure := ofCause (.memory e)

/-- A failure by a trap of the engine. -/
def ofTrap (t : Trap) : Failure := ofCause (.trap t)

/-- Add an outermost context. -/
def addContext (f : Failure) (context : String) : Failure :=
  { f with contexts := context :: f.contexts }

/-- The contexts, outermost first, and the text of the cause. -/
def message (f : Failure) : String :=
  String.intercalate ": " (f.contexts ++ [f.cause.message])

end Failure

end WasmHost
