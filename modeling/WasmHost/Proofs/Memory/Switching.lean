import WasmHost.Proofs.Loader.Exports
import WasmHost.Proofs.Memory.Handles
import WasmHost.Proofs.Memory.Sharing

set_option autoImplicit false

/-! # Which memory is active after a load

The arena changes only when a load installs a memory, and each installation issues the next handle.
A load installs its memory when it comes to its end, so the memories that its start function has had
installed come first.

The main result is `Libc.memory_switched`: what a load that succeeds does to the arena. -/

namespace WasmHost

variable {ι : Type}

/-! ## Loads -/

/-- The handle of the memory that a load has installed, if it has. -/
def handleOf? (result : Except LinkError (LoadedModule ι)) : Option MemoryHandle :=
  result.toOption.bind LoadedModule.memory

/-- The handles that loads have been issued. -/
def handlesOf (e : Engine ι) (ls : List (ModuleLoad ι)) : List MemoryHandle :=
  ls.filterMap fun l => handleOf? (l.run e).1

theorem handlesOf_append (e : Engine ι) (ls ls' : List (ModuleLoad ι)) :
    handlesOf e (ls ++ ls') = handlesOf e ls ++ handlesOf e ls' :=
  List.filterMap_append

section

variable {m m' : Machine ι} {name : String} {addr : Nat} {loaded : LoadedModule ι}

theorem Machine.finishLoad_exports (hfinish : m.finishLoad name addr = (loaded, m')) :
    loaded.exports = (m.store.instanceAt addr).exports := by
  rw [← (m.finishLoad_fst name addr).2.2, hfinish]

/-- A load comes to its end with a memory to install. -/
theorem Machine.finishLoad_of_memory (hfinish : m.finishLoad name addr = (loaded, m'))
    {memory : Nat} (h : lastMemory? loaded.exports = some memory) :
    loaded.memory = some m.host.arena.nextHandle
      ∧ m'.host.arena = m.host.arena.install memory name := by
  rw [finishLoad_exports hfinish] at h
  rw [finishLoad, h] at hfinish
  cases hfinish
  exact ⟨rfl, rfl⟩

/-- A load comes to its end without one. -/
theorem Machine.finishLoad_of_no_memory (hfinish : m.finishLoad name addr = (loaded, m'))
    (h : lastMemory? loaded.exports = none) : loaded.memory = none ∧ m' = m := by
  rw [finishLoad_exports hfinish] at h
  rw [finishLoad, h] at hfinish
  cases hfinish
  exact ⟨rfl, rfl⟩

theorem Machine.finishLoad_issues (hfinish : m.finishLoad name addr = (loaded, m')) :
    m.host.arena.Issues loaded.memory.toList m'.host.arena := by
  rcases h : lastMemory? loaded.exports with _ | memory
  · obtain ⟨hmemory, rfl⟩ := finishLoad_of_no_memory hfinish h
    rw [hmemory]
    exact .nil _
  · obtain ⟨hmemory, harena⟩ := finishLoad_of_memory hfinish h
    rw [hmemory, harena]
    exact .install memory name (.nil _)

end

/-- A run changes the arena only by the memories that its loads install. -/
def Engine.Installs (e : Engine ι) (loads : Loads ι) : Trace ι (StubCall ι) := fun m cs _ m' =>
  m.host.arena.Issues (handlesOf e (loadsIn loads cs)) m'.host.arena

theorem Engine.Installs.sequential (e : Engine ι) (loads : Loads ι) :
    (e.Installs loads).Sequential where
  quiet _ h := by
    rw [Installs, h.host]
    exact .nil _
  append h h' := by
    rw [Installs, loadsIn_append, handlesOf_append]
    exact h.append h'

/-- A load itself is the last one that installs a memory. -/
theorem LoadRun.issues {e : Engine ι} {loads : Loads ι} {name : String} {m m' : Machine ι}
    {log : List (StubCall ι)} {result : Except LinkError (LoadedModule ι)}
    (h : LoadRun (e.Installs loads) name m log result m') :
    m.host.arena.Issues (handlesOf e (loadsIn loads log) ++ (handleOf? result).toList)
      m'.host.arena := by
  cases h with
  | refused | mistyped => exact .nil _
  | failed w items log failure m' _ hrun =>
      rw [handleOf?, Except.toOption, Option.bind_none, Option.toList_none, List.append_nil]
      exact hrun
  | loaded w items log m' _ hrun => exact hrun.append (Machine.finishLoad_issues rfl)

namespace Libc

/-- A stub of the library changes the arena only by the load that it makes. -/
theorem stubs_install [Budget] : engine.TracesStubs loads (engine.Installs loads) := by
  intro c hinner hloads
  rw [Engine.Installs, loadsIn_singleton, handlesOf_append, hinner]
  rcases hname : c.stub.loaded? loads c.args c.before with _ | name
  · rw [Engine.innerHistory_of_none hname, (run_sameLayout hname).arena, StubCall.load?, hname]
    exact .nil _
  · have hload : c.load? loads = some ⟨name, c.depth, c.before⟩ := by
      rw [StubCall.load?, hname]
      rfl
    have hissues := (hloads name c.before).issues
    rw [Engine.innerHistory_of_some hname, (run_sameLayout_of_load hload).arena, hload]
    have hlast : handlesOf engine (some (⟨name, c.depth, c.before⟩ : ModuleLoad Function)).toList
        = (handleOf? (loadModule (engine.invoke c.depth) name c.before).1).toList := by
      rw [Option.toList_some, handlesOf, List.filterMap_cons, List.filterMap_nil, ModuleLoad.run]
      rcases handleOf? (loadModule (engine.invoke c.depth) name c.before).1 <;> rfl
    rw [hlast]
    exact hissues

/-- The stages of a load that succeeds: what its start function has had installed comes before the
    memory of the module itself. -/
theorem load_stages [Budget] {depth : Nat} {name : String} {m m' : Machine Function}
    {loaded : LoadedModule Function}
    (h : loadModule (engine.invoke depth) name m = (.ok loaded, m')) :
    ∃ m₁ : Machine Function, m.host.arena.Issues
          (handlesOf engine (loadsIn loads (recordLoad (engine.record loads depth) name m)))
          m₁.host.arena
      ∧ (m₁.finishLoad name m.store.instances.size) = (loaded, m') := by
  have hrun := Engine.loadModule_traces (Engine.Installs.sequential engine loads) stubs_install
    depth name m
  rw [h] at hrun
  generalize recordLoad (engine.record loads depth) name m = log,
    hresult : Except.ok loaded = result at hrun
  cases hrun with
  | refused | mistyped | failed => cases hresult
  | loaded w items log m₁ _ hissues =>
      cases hresult
      exact ⟨m₁, hissues, rfl⟩

/-- The exports of a module that loads are those of its instance, in the same order. -/
theorem load_exports [Budget] {depth : Nat} {name : String} {m m' : Machine Function}
    {loaded : LoadedModule Function}
    (h : loadModule (engine.invoke depth) name m = (.ok loaded, m')) :
    ∃ w items, m.host.accept name = .ok (w, items)
      ∧ (loaded.exports.map fun e => (e.1, e.2.kind))
        = w.exports.map fun ex => (ex.name, ex.kind) := by
  obtain ⟨w, items, haccept, -, hexports, -⟩ := Engine.loadModule_ok stubs_lawful h
  obtain ⟨object, -, hparse, hbind⟩ := Host.accept_eq_ok haccept
  refine ⟨w, items, haccept, ?_⟩
  rw [hexports]
  exact w.exports_newInstance (Host.bindImports_kinds hbind) (ModuleObject.exports_lt hparse)
    m.store

/-- **The active memory after a load.** If a module that has been loaded exports a memory, then the
    last memory that it exports is active, in its name and with the handle that the module gets.
    That handle is new: it comes after all that were issued before the load and while the start
    function ran, and none of them names a memory any more. If the module exports no memory, it gets
    no handle, and only its start function can have changed the arena. -/
theorem memory_switched [Budget] {depth : Nat} {name : String} {m m' : Machine Function}
    {loaded : LoadedModule Function}
    (h : loadModule (engine.invoke depth) name m = (.ok loaded, m')) :
    let started := handlesOf engine
      (loadsIn loads ((⟨name, depth, m⟩ : ModuleLoad Function).record engine loads))
    ∃ w items, m.host.accept name = .ok (w, items)
      ∧ (∀ before ex after, w.exports = before ++ ex :: after → ex.kind = .memory →
          (∀ later ∈ after, later.kind ≠ .memory) →
          ∃ addr handle, (ex.name, .memory addr) ∈ loaded.exports ∧ loaded.memory = some handle
            ∧ m'.host.arena.Latest addr name handle
            ∧ ∀ earlier, m.host.arena.Issued earlier ∨ earlier ∈ started →
                earlier.generation < handle.generation
                  ∧ m'.host.arena.get earlier = .error (.staleHandle earlier))
      ∧ ((∀ ex ∈ w.exports, ex.kind ≠ .memory) →
          loaded.memory = none ∧ m.host.arena.Issues started m'.host.arena
            ∧ (w.start = none → m'.host.arena = m.host.arena)) := by
  intro started
  obtain ⟨w, items, haccept, hexports⟩ := load_exports h
  obtain ⟨m₁, hissues, hfinish⟩ := load_stages h
  change m.host.arena.Issues started m₁.host.arena at hissues
  refine ⟨w, items, haccept, ?_, ?_⟩
  · intro before ex after hsplit hkind hlast
    rw [hsplit] at hexports
    obtain ⟨addr, hmem, hmemory⟩ := lastMemory?_of_exports hexports hkind hlast
    obtain ⟨hhandle, harena⟩ := Machine.finishLoad_of_memory hfinish hmemory
    refine ⟨addr, m₁.host.arena.nextHandle, hmem, hhandle, ?_, fun earlier hearlier => ?_⟩
    · rw [harena]
      exact MemoryArena.latest_install _ _ _
    · rw [harena]
      exact hissues.stale_of_install addr name hearlier
  · intro hnone
    have hmemory : lastMemory? loaded.exports = none :=
      lastMemory?_eq_none_iff.2 (kind_ne_of_exports hexports hnone)
    obtain ⟨hhandle, rfl⟩ := Machine.finishLoad_of_no_memory hfinish hmemory
    refine ⟨hhandle, hissues, fun hstart => ?_⟩
    have hstarted : started = [] := by
      show handlesOf engine (loadsIn loads (recordLoad (engine.record loads depth) name m)) = []
      rw [recordLoad_of_startless fun w' items' haccept' => ?_]
      · rfl
      · cases haccept.symm.trans haccept'
        exact hstart
    rw [hstarted] at hissues
    exact hissues.eq_of_nil

/-- A module that exports first a memory of its own and then the memory that it imports. Its start
    function opens the library `lib`. -/
def switchingProgram : WasmModule :=
  { openingProgram with
    funcs := [⟨⟨[], []⟩, [], [.const (.i32 1024), .const (.i32 2), .call 0, .drop]⟩]
    memories := [⟨2, none⟩]
    exports := [⟨"own", .memory, 1⟩, ⟨"memory", .memory, 0⟩]
    start := some 1 }

/-- The library has the first memory installed again, with handle 2, and the module then has it
    installed with handle 3. -/
theorem memory_switched_nested :
    let m := (Machine.initial ⟨1, 16384, "main", []⟩ (twoModules switchingProgram memoryLibrary)
      .accepting).linking sampleLibraries
    ∃ loaded m', loadModule (engine.invoke engine.callDepth) "main" m = (.ok loaded, m')
      ∧ loaded.memory = some ⟨3⟩ ∧ m'.host.arena.Latest 0 "main" ⟨3⟩
      ∧ ∀ earlier ∈ [⟨1⟩, ⟨2⟩], m'.host.arena.get earlier = .error (.staleHandle earlier) := by
  intro m
  have hhandle : handleOf? (loadModule (engine.invoke engine.callDepth) "main" m).1 = some ⟨3⟩ := by
    decide +kernel
  have hactive : (loadModule (engine.invoke engine.callDepth) "main" m).2.host.arena.active.toOption
      = some 0 := by
    decide +kernel
  have hstarted : handlesOf engine (loadsIn loads
      ((⟨"main", engine.callDepth, m⟩ : ModuleLoad Function).record engine loads)) = [⟨2⟩] := by
    decide +kernel
  rcases h : loadModule (engine.invoke engine.callDepth) "main" m with ⟨err | loaded, m'⟩ <;>
    rw [h] at hhandle hactive
  · cases hhandle
  obtain ⟨w, items, haccept, hmemory, -⟩ := memory_switched h
  have hw : w = switchingProgram := by
    obtain ⟨object, hsource, hparse, -⟩ := Host.accept_eq_ok haccept
    cases hsource
    cases hparse
    rfl
  subst hw
  obtain ⟨addr, handle, -, hloaded, hlatest, hstale⟩ :=
    hmemory [⟨"own", .memory, 1⟩] ⟨"memory", .memory, 0⟩ [] rfl rfl fun _ h => nomatch h
  cases hloaded.symm.trans hhandle
  rw [hlatest.active] at hactive
  cases hactive
  refine ⟨loaded, m', rfl, hhandle, hlatest, fun earlier hearlier => (hstale earlier ?_).2⟩
  rw [hstarted]
  rcases List.mem_cons.1 hearlier with rfl | hsecond
  · exact .inl ⟨by decide, by decide⟩
  · exact .inr hsecond

end Libc

end WasmHost
