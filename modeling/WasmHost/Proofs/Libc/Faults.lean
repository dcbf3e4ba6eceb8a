import WasmHost.Proofs.Libc.Calls
import WasmHost.Proofs.Run.History

set_option autoImplicit false

/-! # Where the faults of a program go

A fault that a stub raises ends the program with the outcome of its kind if the call is made by the
entry point, however deeply. It does not if the call is made while a module is loaded: then only the
text of the fault is left. A module that is loaded at the start takes the program with it, and a
module that is opened by `dlopen` only makes `dlopen` return zero. -/

namespace WasmHost.Libc

/-- A call that fails while `dlopen` loads a module makes `dlopen` return zero, with the text of the
    failure kept for `dlerror`. -/
theorem run_of_inner_failure [Budget] {c d : StubCall Function}
    (hd : d.inner = engine.innerHistory loads d)
    (hc : c ∈ d.inner) {failure : Failure} (hrun : (c.run engine).1 = .error failure) :
    d.stub = .implemented (.word .dlopen)
      ∧ (d.run engine).1 = .ok (d.type.resultsOf (.i32 0))
      ∧ ∃ name, (d.run engine).2.host.libraries.pendingError
          = some (LinkError.instantiationFailed name failure).fullMessage := by
  rw [hd] at hc
  rcases hname : d.stub.loaded? loads d.args d.before with _ | name
  · rw [Engine.innerHistory_of_none hname] at hc
    cases hc
  · rw [Engine.innerHistory_of_some hname] at hc
    have hload := Engine.loadModule_of_failure hc hrun
    rw [run_of_loads hname]
    rcases hr : loadModule (engine.invoke d.depth) name d.before with ⟨err | loaded, m⟩ <;>
      rw [hr] at hload <;> cases hload
    exact ⟨(stub_of_loads hname).1, rfl, name, rfl⟩

/-- **What becomes of a fault.** Every call that a program makes is made by its entry point, while a
    module is loaded at the start, or while `dlopen` loads a module. If it fails, the program ends
    with the outcome of the failure in the first case only; in the second it is not run at all, and
    in the third `dlopen` returns zero. -/
theorem program_faults [Budget] (config : Config) (source : ModuleSource ModuleObject) (sink : Sink)
    (libs : List (StubLibrary Function)) (main : String) (extra : List String) :
    let start : Machine Function := .initial config source sink
    let entry := engine.recordEntry loads libs main extra start
    let prepare := engine.recordPrepare loads libs main extra start
    let calls := flattenAll (engine.recordProgram loads libs main extra start)
    let result := (engine.program libs main extra start).1
    (∀ c ∈ calls, c ∈ entry ∨ c ∈ prepare ∨ ∃ d ∈ calls, c ∈ d.inner)
      ∧ (∀ c ∈ entry, ∀ failure, (c.run engine).1 = .error failure →
          result = .ok (.classify failure))
      ∧ (∀ c ∈ prepare, ∀ failure, (c.run engine).1 = .error failure →
          ∃ name ∈ main :: extra, result = .error (.instantiationFailed name failure))
      ∧ ∀ d ∈ calls, ∀ c ∈ d.inner, ∀ failure, (c.run engine).1 = .error failure →
          d.stub = .implemented (.word .dlopen)
            ∧ (d.run engine).1 = .ok (d.type.resultsOf (.i32 0))
            ∧ ∃ name, (d.run engine).2.host.libraries.pendingError
                = some (LinkError.instantiationFailed name failure).fullMessage := by
  intro start entry prepare calls result
  refine ⟨fun c hc => ?_, fun c hc failure hrun => ?_, fun c hc failure hrun => ?_,
    fun d hd c hc failure hrun => ?_⟩
  · rcases mem_flattenAll hc with hc | hc
    · rcases List.mem_append.1 hc with hc | hc
      · exact .inr (.inl hc)
      · exact .inl hc
    · exact .inr (.inr hc)
  · exact Engine.program_of_entry_failure hc hrun
  · exact Engine.program_of_prepare_failure hc hrun
  · have hinner := engine.inner_of_mem_recordProgram loads libs main extra start d hd
    exact run_of_inner_failure hinner hc hrun

/-! ## A program that survives `exit` -/

/-- A library whose start function ends the program with status 3. -/
def exitingLibrary : WasmModule :=
  { WasmModule.empty with
    imports := [⟨"env", "exit", .func ⟨[.i32], []⟩⟩]
    funcs := [⟨⟨[], []⟩, [], [.const (.i32 3), .call 0]⟩]
    start := some 1 }

/-- A main module that returns what opening the library `lib` gives. -/
def openingProgram : WasmModule :=
  { WasmModule.empty with
    imports :=
      [⟨"env", "memory", .memory ⟨1, none⟩⟩, ⟨"env", "dlopen", .func ⟨[.i32, .i32], [.i32]⟩⟩]
    data := [⟨1024, [108, 105, 98, 0]⟩]
    funcs := [⟨⟨[], [.i32]⟩, [], [.const (.i32 1024), .const (.i32 2), .call 0]⟩]
    exports := [⟨"main", .func, 1⟩] }

/-- Two modules under the names `main` and `lib`. -/
def twoModules (main lib : WasmModule) : ModuleSource ModuleObject := fun name =>
  if name = "main" then .ok (.parsed main)
  else if name = "lib" then .ok (.parsed lib)
  else .error (LinkError.ofKind (.moduleNotFound name))

/-- The functions of the library that the sample programs use. -/
def sampleLibraries : List (StubLibrary Function) :=
  [⟨"sample",
    [("dlopen", .implemented (.word .dlopen)), ("dlclose", .implemented (.word .dlclose)),
      ("exit", .implemented (.word (.exit "exit")))]⟩]

/-- `exit` is called with status 3, and the program returns zero. -/
theorem exit_in_start_function_survived :
    let start : Machine Function :=
      .initial ⟨1, 16384, "main", []⟩ (twoModules openingProgram exitingLibrary) .accepting
    let calls := flattenAll (engine.recordProgram loads sampleLibraries "main" [] start)
    (∃ c ∈ calls, (c.run engine).1 = .error (.ofFault (.terminate 3 "exit(3)")))
      ∧ (engine.program sampleLibraries "main" [] start).1 = .ok (.returned "main" "main" 0) := by
  intro start calls
  have hcalls : (calls.any fun c =>
      failureOf (c.run engine).1 == some (.ofFault (.terminate 3 "exit(3)"))) = true := by
    decide +kernel
  have hresult : (engine.program sampleLibraries "main" [] start).1.toOption
      = some (.returned "main" "main" 0) := by
    decide +kernel
  constructor
  · obtain ⟨c, hc, hrun⟩ := List.any_eq_true.1 hcalls
    refine ⟨c, hc, ?_⟩
    rcases hr : (c.run engine).1 with failure | values <;> rw [hr] at hrun
    · rw [beq_iff_eq] at hrun
      rw [Option.some.inj hrun]
    · cases hrun
  · rcases hr : (engine.program sampleLibraries "main" [] start).1 with err | outcome <;>
      rw [hr] at hresult <;> cases hresult
    rfl

end WasmHost.Libc
