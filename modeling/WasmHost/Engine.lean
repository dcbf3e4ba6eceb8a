import WasmHost.Loader.Load

set_option autoImplicit false

/-! # Running functions

Code, stubs and the loader call each other: code calls stubs, a stub may load a module, and a module
that is being instantiated runs its start function. `invoke` closes the circle. It recurses on the
number of calls that may still be nested, so that it is total; code that nests deeper exhausts the
call stack.

What the stubs do is a parameter. -/

namespace WasmHost

variable {ι : Type}

/-- What a stub sees of the module whose code calls it: the exports of that module, none if the stub
    is called from outside, and a way to load further modules. -/
structure Caller (ι : Type) where
  exports : List (String × Item ι)
  load : String → Action ι LinkError (LoadedModule ι)

/-- What the implementations of stubs do when they are called with arguments. -/
abbrev StubSemantics (ι : Type) := ι → Caller ι → List Value → Action ι Failure Reply

/-- How far code may run. -/
class Budget where
  /-- How many calls may be nested. -/
  callDepth : Nat
  /-- How often a loop may repeat. -/
  loopFuel : Nat

/-- 10000 nested calls, and more rounds of a loop than can ever be run. -/
instance Budget.standard : Budget := ⟨10000, 1 <<< 62⟩

/-- A way to run functions. -/
structure Engine (ι : Type) extends Budget where
  /-- What stubs do. -/
  stubs : StubSemantics ι

namespace Engine

/-- The engine for a set of stubs. -/
def ofStubs [budget : Budget] (stubs : StubSemantics ι) : Engine ι := ⟨budget, stubs⟩

/-- Call a stub that has been bound to a signature. -/
def callStub (e : Engine ι) (name : String) (stub : Stub ι) (type : FuncType) (caller : Caller ι)
    (args : List Value) : Action ι Failure (List Value) :=
  match stub with
  | .placeholder => Action.ofExcept (.error (.ofFault (.unimplemented name)))
  | .implemented f => do return type.resultsOf (← e.stubs f caller args)

/-- Call a function on behalf of a module with the given exports. -/
def invoke (e : Engine ι) : (depth : Nat) → Caller.Calls ι
  | 0, _, _, _ => Exec.trap .stackOverflow
  | depth + 1, exports, f, args =>
      match f with
      | .stub name stub type =>
          e.callStub name stub type ⟨exports, loadModule (e.invoke depth)⟩ args
      | .code owner defn => do
          let inst := (← Action.getStore).instanceAt owner
          defn.run e.loopFuel (e.invoke depth inst.exports) inst args

/-- Call functions on an empty call stack. -/
def calls (e : Engine ι) : Caller.Calls ι := e.invoke e.callDepth

/-- Call a function from outside. The arguments must have the types of its parameters. -/
def call (e : Engine ι) (f : Func ι) (args : List Value) : Action ι Failure (List Value) :=
  if args.map Value.type = f.type.params then e.calls [] f args
  else Action.ofExcept (.error (.ofCause (.text "arguments do not match the parameters")))

/-- Load the module that the source has under a name. -/
def load (e : Engine ι) (name : String) : Action ι LinkError (LoadedModule ι) :=
  loadModule e.calls name

end Engine

end WasmHost
