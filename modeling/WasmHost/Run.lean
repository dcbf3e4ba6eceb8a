import WasmHost.Engine
import WasmHost.Outcome

set_option autoImplicit false

/-! # Runs

A run goes through phases, and each step is allowed in some of them only: first the stub libraries
are added, then the startup modules are loaded, then the main module, and at last its entry point
is called. A step that is not allowed changes nothing. A step that fails midway leaves the run in
its new phase, in which no further step is allowed. -/

namespace WasmHost

/-- The phases of a run. -/
inductive Phase where
  | initializing
  | loadingStubs
  /-- Loading startup modules, of which `remaining` are not yet loaded. -/
  | loadingModules (remaining : Nat)
  | loadingMain
  | running
  | terminated
deriving DecidableEq

/-- The text of a phase. -/
def Phase.text : Phase → String
  | .initializing => "initializing"
  | .loadingStubs => "loading stubs"
  | .loadingModules remaining => "loading modules (" ++ toString remaining ++ " remaining)"
  | .loadingMain => "loading main"
  | .running => "running"
  | .terminated => "terminated"

/-- The state of a run. -/
structure Run (ι : Type) where
  machine : Machine ι
  phase : Phase
  /-- The startup modules, in the order in which they were loaded. -/
  modules : List (LoadedModule ι)
  /-- The main module and its entry point, once that has been accepted. -/
  main : Option (LoadedModule ι × Func ι)

/-- A step of a run. -/
abbrev Run.Step (ι α : Type) := ExceptT LinkError (StateM (Run ι)) α

namespace Run

variable {ι α : Type}

/-- The type of entry points: no parameters, and a status as result. -/
def entryType : FuncType := ⟨[], [.i32]⟩

/-- The name under which the host owns the initial memory. -/
def hostName : String := "host"

/-- Set up a run: a memory of the configured size becomes the active memory. It may grow without a
    limit of its own. -/
def start (config : Config) (source : ModuleSource ModuleObject) (sink : Sink) :
    Except LinkError (Run ι) :=
  if config.initialPages ≤ maxPages then
    let host : Host ι := .new config source sink
    .ok
      { machine :=
          { store := Store.empty.addMemory (.new ⟨config.initialPages, none⟩)
            host := { host with arena := host.arena.install 0 hostName } }
        phase := .initializing
        modules := []
        main := none }
  else .error (LinkError.ofKind (.memoryCreateFail config.initialPages))

/-! ## Steps -/

/-- Go on only if the phase allows it. -/
def require (action : String) (allowed : Run ι → Bool) : Step ι Unit := do
  let r ← get
  if !allowed r then
    throw (LinkError.ofKind (.invalidState r.phase.text action))

/-- Enter a phase. -/
def enter (phase : Phase) : Step ι Unit := modify fun r => { r with phase := phase }

/-- Do something on the machine. -/
def onMachine (x : Action ι LinkError α) : Step ι α := fun r =>
  let (result, machine) := x r.machine
  (result, { r with machine := machine })

/-- Register the stubs of some libraries, in order. -/
def addStubs (libs : List (StubLibrary ι)) : Step ι Unit := do
  require "load stubs" fun r => r.phase == .initializing
  enter .loadingStubs
  onMachine (Action.modifyHost fun h => { h with env := h.env.flatten libs })

/-- Load one startup module and register the functions that it exports; `remaining` modules are
    left after it. -/
def loadStartupModule (e : Engine ι) (name : String) (remaining : Nat) : Step ι Unit := do
  let loaded ← onMachine (e.load name)
  onMachine (Action.modifyHost fun h => { h with env := h.env.addExports loaded.name loaded.funcs })
  modify fun r =>
    { r with modules := r.modules ++ [loaded], phase := .loadingModules remaining }

/-- Load startup modules in the order given. -/
def loadInOrder (e : Engine ι) : List String → Step ι Unit
  | [] => return ()
  | name :: names => do
      loadStartupModule e name names.length
      loadInOrder e names

/-- Load the startup modules of a run from the last one to the first, so that each can use those
    listed after it. -/
def loadModules (e : Engine ι) (names : List String) : Step ι Unit := do
  require "load modules" fun r => r.phase == .loadingStubs
  enter (.loadingModules names.length)
  loadInOrder e names.reverse

/-- The entry point of a module: an exported function without parameters whose result is a
    status. -/
def entryPoint (loaded : LoadedModule ι) (entry : String) : Except LinkError (Func ι) :=
  match loaded.lookup? entry with
  | none => .error (LinkError.ofKind (.missingEntry loaded.name entry))
  | some (.func f) =>
      if f.type = entryType then .ok f
      else .error (LinkError.ofKind (.badEntrySignature loaded.name entry))
  | some _ => .error (LinkError.ofKind (.badEntrySignature loaded.name entry))

/-- Load the main module and accept its entry point. The functions that it exports are not
    registered. -/
def loadMain (e : Engine ι) (name : String) : Step ι Unit := do
  require "load the main module" fun r =>
    r.phase == .loadingStubs || r.phase == .loadingModules 0
  enter .loadingMain
  let loaded ← onMachine (e.load name)
  let f ← ExceptT.mk (pure (entryPoint loaded (← get).machine.host.config.entry))
  modify fun r => { r with main := some (loaded, f) }

/-- The status in the results of an entry point. -/
def statusOf : List Value → Int32
  | .i32 v :: _ => v.toInt32
  | _ => 0

/-- Call an entry point and say how that ended. -/
def callEntry (e : Engine ι) (moduleName entry : String) (f : Func ι) : Step ι Outcome :=
  onMachine fun m =>
    match e.call f [] m with
    | (.ok results, m') => (.ok (.returned moduleName entry (statusOf results)), m')
    | (.error failure, m') => (.ok (.classify failure), m')

/-- Write what the program left in the output buffer, and then the line that says how the run ended.
    Failed writes are ignored. -/
def report (outcome : Outcome) : Step ι Unit :=
  onMachine (Action.modifyHost fun h =>
    { h with output := (h.output.flush.2.writeLine outcome.text).2 })

/-- Call the entry point of the main module. -/
def execute (e : Engine ι) : Step ι Outcome := do
  require "run" fun r => r.phase == .loadingMain && r.main.isSome
  match (← get).main with
  | none => throw (LinkError.ofKind (.invalidState (← get).phase.text "run"))
  | some (loaded, f) =>
      enter .running
      let outcome ← callEntry e loaded.name (← get).machine.host.config.entry f
      report outcome
      enter .terminated
      return outcome

/-- All steps of a run in order. -/
def all (e : Engine ι) (libs : List (StubLibrary ι)) (main : String) (extra : List String) :
    Step ι Outcome := do
  addStubs libs
  loadModules e extra
  loadMain e main
  execute e

end Run

/-- What is left of a run when it is over. -/
structure Completed where
  /-- How the program ended, or why it could not be started; nothing if the host panicked. -/
  result : Option (Except LinkError Outcome)
  /-- What has been written to the sink. -/
  sink : Sink
  /-- The names of the modules that the source has been asked for, latest first. -/
  requested : List String

/-- What is left of a run on a machine. Output is written when the program has ended, so nothing has
    been written to the sink if the host panicked. -/
def Completed.of {ι : Type} (sink : Sink) (result : Except LinkError Outcome) (m : Machine ι) :
    Completed :=
  if m.panicked then ⟨none, sink, m.host.requested⟩
  else ⟨some result, m.host.output.sink, m.host.requested⟩

/-- Load and run a program. -/
def runProgram {ι : Type} (e : Engine ι) (config : Config) (source : ModuleSource ModuleObject)
    (sink : Sink) (libs : List (StubLibrary ι)) (main : String) (extra : List String) :
    Completed :=
  match Run.start config source sink with
  | .error err => ⟨some (.error err), sink, []⟩
  | .ok r =>
      let (result, r') := Run.all e libs main extra r
      .of sink result r'.machine

end WasmHost
