import WasmHost.Proofs.Libc.Faults

set_option autoImplicit false

/-! # The library table of a program

Opening a library is not one step: whether its name is open is looked up before its module is
loaded, and the library is recorded afterwards, in the table that the start function of the module
leaves. The table stays consistent throughout a program just if that table admits the name each
time. A module whose start function opens the module itself and keeps it open breaks it. -/

namespace WasmHost.Libc

section

variable [Budget]

/-- The library table is consistent before and after the call. -/
def FindsConsistent (c : StubCall Function) : Prop :=
  c.before.host.libraries.Consistent ∧ (c.run engine).2.host.libraries.Consistent

/-- If the call loads a module, the table that the load leaves admits its name. -/
def OpensAdmitted (c : StubCall Function) : Prop :=
  ∀ name loaded m, c.stub.loaded? loads c.args c.before = some name →
    loadModule (engine.invoke c.depth) name c.before = (.ok loaded, m) →
      m.host.libraries.Admits name

/-- From a consistent table on, all calls of a history find it consistent just if they are admitted
    to open what they open, and then it is consistent at the end. -/
def LibraryTrace : Trace Function (StubCall Function) := fun m cs _ m' =>
  m.host.libraries.Consistent →
    ((∀ c ∈ flattenAll cs, FindsConsistent c) ↔ ∀ c ∈ flattenAll cs, OpensAdmitted c)
      ∧ ((∀ c ∈ flattenAll cs, FindsConsistent c) → m'.host.libraries.Consistent)

theorem LibraryTrace.steady : LibraryTrace.Steady where
  calm _ h := by
    intro hm
    have hnone (P : StubCall Function → Prop) : ∀ c ∈ flattenAll [], P c :=
      fun _ hc => absurd hc List.not_mem_nil
    exact ⟨⟨fun _ => hnone _, fun _ => hnone _⟩, fun _ => h.libraries ▸ hm⟩
  append {m m' m'' cs ds _} h h' := by
    intro hm
    obtain ⟨hiff, hend⟩ := h hm
    -- either side gives a consistent table in between, and that starts the second run
    rw [forall_flattenAll_append, forall_flattenAll_append]
    constructor
    · constructor
      · rintro ⟨hcs, hds⟩
        exact ⟨hiff.1 hcs, (h' (hend hcs)).1.1 hds⟩
      · rintro ⟨hcs, hds⟩
        have hsound := hiff.2 hcs
        exact ⟨hsound, (h' (hend hsound)).1.2 hds⟩
    · rintro ⟨hcs, hds⟩
      exact (h' (hend hcs)).2 hds

/-- **One call.** A call that loads nothing keeps the table consistent; a call that loads a module
    does so just if the name is admitted afterwards. -/
theorem LibraryTrace.stubs : engine.TracesStubs loads LibraryTrace := by
  intro c hinner hloads hm
  rw [forall_flattenAll_singleton, forall_flattenAll_singleton]
  refine ⟨?_, fun h => h.2.2⟩
  rcases hname : c.stub.loaded? loads c.args c.before with _ | name
  · have hfinds : FindsConsistent c := ⟨hm, (run_of_not_loads hname).2 hm⟩
    have hopens : OpensAdmitted c := fun name loaded m h => by
      rw [hname] at h
      cases h
    have hnil (P : StubCall Function → Prop) : ∀ d ∈ flattenAll c.inner, P d := by
      rw [hinner, Engine.innerHistory_of_none hname]
      exact fun _ hc => absurd hc List.not_mem_nil
    exact ⟨fun _ => ⟨hnil _, hopens⟩, fun _ => ⟨hnil _, hfinds⟩⟩
  · obtain ⟨failure, htrace, -⟩ := (hloads name c.before).trace LibraryTrace.steady
    rw [← Engine.innerHistory_of_some hname, ← hinner] at htrace
    obtain ⟨hiff, hend⟩ := htrace hm
    have hrun := run_of_loads hname
    rcases hloaded : loadModule (engine.invoke c.depth) name c.before with ⟨err | loaded, m⟩ <;>
      rw [hloaded] at hrun hend
    · have hopens : OpensAdmitted c := fun name' loaded m' h h' => by
        rw [hname] at h
        cases h
        rw [hloaded] at h'
        cases h'
      -- a load that fails records nothing, whatever its start function did before
      refine ⟨fun h => ⟨hiff.1 h.1, hopens⟩, fun h => ⟨hiff.2 h.1, hm, ?_⟩⟩
      rw [hrun]
      exact (hend (hiff.2 h.1)).setError err
    · have hinsert (hm' : m.host.libraries.Consistent) : FindsConsistent c ↔ OpensAdmitted c := by
        have hiff' : (m.host.libraries.insert name loaded).2.Consistent
            ↔ m.host.libraries.Admits name := LibraryTable.consistent_insert_iff hm' loaded
        constructor
        · rintro ⟨-, hafter⟩ name' loaded' m' h h'
          rw [hname] at h
          cases h
          rw [hloaded] at h'
          cases h'
          rw [hrun] at hafter
          exact hiff'.1 hafter
        · intro h
          refine ⟨hm, ?_⟩
          rw [hrun]
          exact hiff'.2 (h name loaded m hname hloaded)
      constructor
      · rintro ⟨h, hc⟩
        exact ⟨hiff.1 h, (hinsert (hend h)).1 hc⟩
      · rintro ⟨h, hc⟩
        exact ⟨hiff.2 h, (hinsert (hend (hiff.2 h))).2 hc⟩

/-- **When the library table of a program is consistent.** The name index and the handle table are
    inverse to each other before and after every call that a program makes, wherever it is made,
    just if each time a library is recorded neither its name nor its handle is in use. -/
theorem libraries_consistent_iff (config : Config) (source : ModuleSource ModuleObject)
    (sink : Sink) (libs : List (StubLibrary Function)) (main : String) (extra : List String) :
    let start : Machine Function := .initial config source sink
    let calls := flattenAll (engine.recordProgram loads libs main extra start)
    ((∀ c ∈ calls, FindsConsistent c) ↔ ∀ c ∈ calls, OpensAdmitted c)
      ∧ ((∀ c ∈ calls, OpensAdmitted c) →
          (engine.program libs main extra start).2.host.libraries.Consistent) := by
  intro start calls
  obtain ⟨failure, m', htrace, hend⟩ := Engine.program_trace LibraryTrace.steady LibraryTrace.stubs
    libs main extra start
  obtain ⟨hiff, hconsistent⟩ := htrace .empty
  refine ⟨hiff, fun h => ?_⟩
  have hm' := hconsistent (hiff.2 h)
  rcases hrun : engine.program libs main extra start with ⟨err | outcome, m''⟩ <;>
    rw [hrun] at hend
  · rwa [show m'' = m' from hend]
  · rw [show m'' = m'.reporting outcome from hend]
    exact hm'

/-! ## A library that opens itself -/

end

/-- A library whose start function opens the library `lib` once. -/
def selfOpeningLibrary : WasmModule :=
  { WasmModule.empty with
    imports :=
      [⟨"env", "memory", .memory ⟨1, none⟩⟩, ⟨"env", "dlopen", .func ⟨[.i32, .i32], [.i32]⟩⟩]
    funcs :=
      [⟨⟨[], []⟩, [],
        [.const (.i32 2000), .loadByte, .wordEqz,
          .ifElse
            [.const (.i32 2000), .const (.i32 1), .storeByte,
              .const (.i32 1024), .const (.i32 2), .call 0, .drop]
            []]⟩]
    start := some 1 }

/-- After the library `lib` has been opened, two handles have its name. -/
theorem libraries_inconsistent :
    let start : Machine Function :=
      .initial ⟨1, 16384, "main", []⟩ (twoModules openingProgram selfOpeningLibrary) .accepting
    ∃ c ∈ flattenAll (engine.recordProgram loads sampleLibraries "main" [] start),
      ¬ FindsConsistent c := by
  intro start
  have hcalls : ((flattenAll (engine.recordProgram loads sampleLibraries "main" [] start)).any
      fun c =>
        ((c.run engine).2.host.libraries.library? 1).map OpenLibrary.name == some "lib"
          && ((c.run engine).2.host.libraries.library? 2).map OpenLibrary.name == some "lib")
      = true := by
    decide +kernel
  obtain ⟨c, hc, hnames⟩ := List.any_eq_true.1 hcalls
  rw [Bool.and_eq_true, beq_iff_eq, beq_iff_eq, Option.map_eq_some_iff,
    Option.map_eq_some_iff] at hnames
  obtain ⟨⟨lib, hlib, hname⟩, lib', hlib', hname'⟩ := hnames
  refine ⟨c, hc, fun h => ?_⟩
  have hsame := h.2.handle_unique hlib hlib' (hname.trans hname'.symm)
  exact absurd hsame (by decide)

end WasmHost.Libc
