import WasmHost.Libc.Allocation
import WasmHost.Libc.Bytes
import WasmHost.Libc.Dynamic
import WasmHost.Libc.Integer
import WasmHost.Libc.Real

set_option autoImplicit false

/-! # The functions of the C library

All functions of the library that are implemented, and what a call of each does. Outside `math.h`
and `llabs` a function sees its arguments only as 32-bit words: `WordFunction.call` is given a word
for each index, and nothing else of the arguments. -/

namespace WasmHost.Libc

/-- The functions whose arguments are 32-bit words. -/
inductive WordFunction where
  | charClass (k : CharClass)
  | tolower
  | toupper
  | query (q : MemoryQuery)
  | edit (e : MemoryEdit)
  | malloc
  | calloc
  | free
  | realloc
  | strdup
  | mmap
  | abs
  | atoi
  | abort
  /-- Ends the program with the status in argument 0; the text is the name it was called by. -/
  | exit (name : String)
  | putchar
  | puts
  | openFile
  | closeFile
  | dlopen
  | dlsym
  | dlclose
  | dlerror
  /-- Does nothing and gives back a fixed number. -/
  | constant (value : UInt32)
deriving DecidableEq

/-- The functions of the library. -/
inductive Function where
  | math (f : MathFunction)
  | llabs
  | word (f : WordFunction)
deriving DecidableEq

section

variable {ι : Type}

/-- Add bytes to the output of the program. -/
def emit {ε : Type} (bytes : List UInt8) : Action ι ε Unit :=
  Action.modifyHost fun h => { h with output := h.output.push bytes }

/-- Open the lowest free descriptor; -1 if there is none. -/
def openDescriptor : Action ι Failure UInt32 := fun m =>
  match m.host.descriptors.openLowest with
  | some (fd, descriptors) =>
      (.ok fd.val.toUInt32, { m with host := { m.host with descriptors := descriptors } })
  | none => (.ok 0xffffffff, m)

/-- Close a descriptor: zero, or -1 if it is not open. -/
def closeDescriptor (fd : Int32) : Action ι Failure UInt32 := fun m =>
  match m.host.descriptors.close fd.toInt with
  | some descriptors => (.ok 0, { m with host := { m.host with descriptors := descriptors } })
  | none => (.ok 0xffffffff, m)

/-- End the program. -/
def terminate (status : Int32) (reason : String) : Action ι Failure Reply :=
  Action.ofExcept (.error (.ofFault (.terminate status reason)))

/-- The reason of an ending with a status: the function that was called, and its argument. -/
def exitReason (name : String) (status : Int32) : String :=
  name ++ "(" ++ toString status.toInt ++ ")"

/-- Write a string and a line end. The string is read in full before anything is written. -/
def puts (ptr : UInt32) : Action ι Failure Unit := do
  let s ← (Action.look (·.string ptr)).mapError Failure.ofMemoryError
  emit (s ++ [10])

/-- A new block of zeros. Only private anonymous memory for reading and writing at an address of the
    host's choice can be had. -/
def mmap (addr length prot fd : UInt32) : Action ι Failure UInt32 :=
  if addr ≠ 0 then notImplemented ("mmap addr " ++ toString addr.toNat)
  else if prot ≠ 3 then notImplemented ("mmap prot " ++ toString prot.toInt32.toInt)
  else if fd ≠ 0xffffffff then notImplemented ("mmap fd " ++ toString fd.toInt32.toInt)
  else (mapAnonymous length).mapError Failure.ofMemoryError

/-- A reply by a 32-bit integer that a computation on the memory gives. -/
def replyWord (x : Action ι MemoryError UInt32) : Action ι Failure Reply := do
  return .i32 (← x.mapError Failure.ofMemoryError)

/-- The same with checked arithmetic. -/
def replyChecked (x : Action ι WordFault UInt32) : Action ι Failure Reply := do
  return .i32 (← x.orPanic)

/-- Call a function with the arguments `words`; those that are missing are zero. -/
def WordFunction.call (f : WordFunction) (caller : Caller ι) (words : Nat → UInt32) :
    Action ι Failure Reply := do
  match f with
  | .charClass k => return .ofBool (k.has (words 0).toUInt8)
  | .tolower => return .i32 (toLower (words 0))
  | .toupper => return .i32 (toUpper (words 0))
  | .query q => replyWord (Action.look (q.answer words))
  | .edit e => replyChecked (Action.onContents .memory (e.perform words))
  | .malloc => replyWord (Libc.malloc (words 0))
  | .calloc => replyWord (Libc.calloc (words 0) (words 1))
  | .free =>
      if words 0 ≠ 0 then Libc.free (words 0)
      return .void
  | .realloc => replyWord (Libc.realloc (words 0) (words 1))
  | .strdup => replyChecked (Libc.strdup (words 0))
  | .mmap => return .i32 (← Libc.mmap (words 0) (words 1) (words 2) (words 4))
  | .abs => return .i32 (absWord (words 0))
  | .atoi =>
      return .i64 (parseInteger
        (← (Action.look (·.string (words 0))).mapError Failure.ofMemoryError))
  | .abort => terminate 1 "abort()"
  | .exit name => terminate (words 0).toInt32 (exitReason name (words 0).toInt32)
  | .putchar =>
      emit [(words 0).toUInt8]
      return .i32 (words 0).toUInt8.toUInt32
  | .puts =>
      Libc.puts (words 0)
      return .i32 0
  | .openFile => return .i32 (← openDescriptor)
  | .closeFile => return .i32 (← closeDescriptor (words 0).toInt32)
  | .dlopen => return .i32 (← Libc.dlopen caller (words 0) (words 1))
  | .dlsym => return .i32 (← Libc.dlsym caller (words 0) (words 1))
  | .dlclose => return .i32 (← Libc.dlclose (words 0))
  | .dlerror => return .i32 (← Libc.dlerror)
  | .constant value => return .i32 value

/-- Call a function of the library. -/
def Function.call (f : Function) (caller : Caller ι) (args : List Value) :
    Action ι Failure Reply :=
  match f with
  | .math f => return f.reply (Args.real args)
  | .llabs => return .i64 (absLong (Args.long args 0))
  | .word f => f.call caller (Args.word args)

end

/-- The engine for programs that are linked against the library alone. -/
def engine [Budget] : Engine Function := .ofStubs Function.call

end WasmHost.Libc
