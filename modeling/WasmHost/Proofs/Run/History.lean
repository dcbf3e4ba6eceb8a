import WasmHost.Proofs.Engine.History
import WasmHost.Proofs.Run.Steps

set_option autoImplicit false

/-! # The history of a program

A program calls stubs from the start functions of its startup modules and of its main module, and
from its entry point. What the host itself does in between, and at the start and the end of a load,
leaves the open libraries, the output, the heap and the descriptors alone and never panics
(`Machine.Calm`). So a property of runs that holds of calm steps holds of a whole program with its
history (`Engine.program_trace`), up to the report at its end. -/

namespace WasmHost

variable {ι κ : Type}

/-! ## Calm steps -/

/-- Nothing has happened that a program could notice through the C library. -/
structure Machine.Calm (m m' : Machine ι) : Prop where
  config : m'.host.config = m.host.config
  libraries : m'.host.libraries = m.host.libraries
  output : m'.host.output = m.host.output
  heap : m'.host.heap = m.host.heap
  descriptors : m'.host.descriptors = m.host.descriptors
  panicked : m'.panicked = m.panicked

theorem Machine.Quiet.calm {m m' : Machine ι} (h : m.Quiet m') : m.Calm m' where
  config := by rw [h.host]
  libraries := by rw [h.host]
  output := by rw [h.host]
  heap := by rw [h.host]
  descriptors := by rw [h.host]
  panicked := h.panicked

theorem Machine.calm_requesting (m : Machine ι) (name : String) : m.Calm (m.requesting name) :=
  ⟨rfl, rfl, rfl, rfl, rfl, rfl⟩

theorem Machine.calm_allocating (m : Machine ι) (w : WasmModule) (items : List (Item ι)) :
    m.Calm (m.allocating w items) :=
  ⟨rfl, rfl, rfl, rfl, rfl, rfl⟩

theorem Machine.calm_finishLoad (m : Machine ι) (name : String) (addr : Nat) :
    m.Calm (m.finishLoad name addr).2 := by
  obtain ⟨arena, h⟩ := m.finishLoad_eq name addr
  rw [h]
  exact ⟨rfl, rfl, rfl, rfl, rfl, rfl⟩

theorem Machine.calm_merging (m : Machine ι) (loaded : LoadedModule ι) :
    m.Calm (m.merging loaded) :=
  ⟨rfl, rfl, rfl, rfl, rfl, rfl⟩

/-- The property holds of calm steps, however they end, and of a run that goes on after another
    one. -/
structure Trace.Steady (Q : Trace ι κ) : Prop where
  calm {m m' : Machine ι} (failure : Option Failure) (h : m.Calm m') : Q m [] failure m'
  append {m m' m'' : Machine ι} {log log' : List κ} {failure : Option Failure}
    (h : Q m log none m') (h' : Q m' log' failure m'') : Q m (log ++ log') failure m''

theorem Trace.Steady.sequential {Q : Trace ι κ} (hQ : Q.Steady) : Q.Sequential where
  quiet failure h := hQ.calm failure h.calm
  append := hQ.append

/-- A steady property of the start function is one of the whole load. -/
theorem LoadRun.trace {Q : Trace ι κ} (hQ : Q.Steady) {name : String} {m m' : Machine ι}
    {log : List κ} {result : Except LinkError (LoadedModule ι)}
    (h : LoadRun Q name m log result m') :
    ∃ failure, Q m log failure m' ∧ ∀ loaded, result = .ok loaded → failure = none := by
  cases h with
  | refused => exact ⟨none, hQ.calm none (m.calm_requesting name), fun _ _ => rfl⟩
  | mistyped => exact ⟨none, hQ.calm none (m.calm_requesting name), fun _ _ => rfl⟩
  | failed w items log failure m' _ hrun =>
      refine ⟨some failure, ?_, fun _ h => by cases h⟩
      have hbefore := hQ.append (hQ.calm none (m.calm_requesting name))
        (hQ.calm none ((m.requesting name).calm_allocating w items))
      exact hQ.append hbefore hrun
  | loaded w items log m₁ _ hrun =>
      refine ⟨none, ?_, fun _ _ => rfl⟩
      have hbefore := hQ.append (hQ.calm none (m.calm_requesting name))
        (hQ.calm none ((m.requesting name).calm_allocating w items))
      have hafter := hQ.append (hQ.append hbefore hrun)
        (hQ.calm none (m₁.calm_finishLoad name m.store.instances.size))
      rwa [List.append_nil] at hafter

/-! ## Programs -/

namespace Engine

/-- The history of the loads of startup modules. -/
def recordStartup (e : Engine ι) (loads : Loads ι) : List String → Machine ι → List (StubCall ι)
  | [], _ => []
  | name :: names, m =>
      recordLoad (e.record loads e.callDepth) name m
        ++ (e.load name).andThen (fun loaded m' =>
            e.recordStartup loads names (m'.merging loaded)) m

/-- The history of all loads before the program runs. -/
def recordPrepare (e : Engine ι) (loads : Loads ι) (libs : List (StubLibrary ι)) (main : String)
    (extra : List String) (m : Machine ι) : List (StubCall ι) :=
  let linked := { m with host := { m.host with env := m.host.env.flatten libs } }
  e.recordStartup loads extra.reverse linked
    ++ (e.startup extra.reverse).andThen
        (fun _ m' => recordLoad (e.record loads e.callDepth) main m') linked

/-- The history of the call of the entry point. -/
def recordEntry (e : Engine ι) (loads : Loads ι) (libs : List (StubLibrary ι)) (main : String)
    (extra : List String) (m : Machine ι) : List (StubCall ι) :=
  (e.prepare libs main extra).andThen
    (fun found m' => e.record loads e.callDepth [] found.2 [] m') m

/-- The history of a program. -/
def recordProgram (e : Engine ι) (loads : Loads ι) (libs : List (StubLibrary ι)) (main : String)
    (extra : List String) (m : Machine ι) : List (StubCall ι) :=
  e.recordPrepare loads libs main extra m ++ e.recordEntry loads libs main extra m

variable {e : Engine ι} {loads : Loads ι} {Q : Trace ι (StubCall ι)}

theorem load_trace (hQ : Q.Steady) (hstubs : e.TracesStubs loads Q) (name : String)
    (m : Machine ι) :
    ∃ failure, Q m (recordLoad (e.record loads e.callDepth) name m) failure (e.load name m).2
      ∧ ∀ loaded, (e.load name m).1 = .ok loaded → failure = none :=
  (loadModule_traces hQ.sequential hstubs e.callDepth name m).trace hQ

theorem startup_trace (hQ : Q.Steady) (hstubs : e.TracesStubs loads Q) (names : List String)
    (m : Machine ι) :
    ∃ failure, Q m (e.recordStartup loads names m) failure (e.startup names m).2
      ∧ ∀ loaded, (e.startup names m).1 = .ok loaded → failure = none := by
  induction names generalizing m with
  | nil => exact ⟨none, hQ.calm none ⟨rfl, rfl, rfl, rfl, rfl, rfl⟩, fun _ _ => rfl⟩
  | cons name names ih =>
      obtain ⟨failure, hload, hfailure⟩ := load_trace hQ hstubs name m
      rw [recordStartup, startup_cons, Action.andThen]
      rcases hr : e.load name m with ⟨err | loaded, m₁⟩ <;> rw [hr] at hload hfailure
      · rw [List.append_nil]
        exact ⟨failure, hload, fun _ h => by cases h⟩
      · dsimp only
        rw [hfailure loaded rfl] at hload
        obtain ⟨failure', hrest, hfailure'⟩ := ih (m₁.merging loaded)
        -- between two loads the exports are merged, which is calm
        have hmerged := hQ.append (hQ.append hload (hQ.calm none (m₁.calm_merging loaded))) hrest
        rw [List.append_nil] at hmerged
        refine ⟨failure', hmerged, fun loaded' h => ?_⟩
        rcases hs : (e.startup names (m₁.merging loaded)).1 with err | rest
        · rw [hs] at h
          cases h
        · exact hfailure' rest hs

theorem entryPoint_type {loaded : LoadedModule ι} {entry : String} {f : Func ι}
    (h : Run.entryPoint loaded entry = .ok f) : f.type = Run.entryType := by
  rw [Run.entryPoint] at h
  split at h
  · cases h
  · split at h <;> cases h
    assumption
  · cases h

theorem prepareMain_machine (e : Engine ι) (main : String) (m : Machine ι) :
    (e.prepareMain main m).2 = (e.load main m).2 := by
  rw [prepareMain_apply]
  rcases e.load main m with ⟨err | loaded, m'⟩ <;> rfl

/-- The entry point of a main module can be called. -/
theorem call_of_params {f : Func ι} (h : f.type.params = []) : e.call f [] = e.calls [] f [] := by
  rw [call, if_pos (by rw [h]; rfl)]

/-- Without arguments nothing happens in a call of a function with parameters. -/
theorem call_of_params_ne {f : Func ι} (h : f.type.params ≠ []) (m : Machine ι) :
    (e.call f [] m).2 = m := by
  rw [call, if_neg fun hparams : [].map Value.type = f.type.params => h hparams.symm]
  rfl

theorem prepare_params {libs : List (StubLibrary ι)} {main : String} {extra : List String}
    {m m' : Machine ι} {loaded : LoadedModule ι} {f : Func ι}
    (h : e.prepare libs main extra m = (.ok (loaded, f), m')) : f.type.params = [] := by
  rw [prepare, bind_apply_of_ok (Action.modifyHost_apply _ m), bind_apply] at h
  rcases hr : e.startup extra.reverse _ with ⟨err | modules, m₁⟩ <;> rw [hr] at h
  · cases h
  · rw [entryPoint_type (prepareMain_eq_ok h).2]
    rfl

theorem prepare_trace (hQ : Q.Steady) (hstubs : e.TracesStubs loads Q)
    (libs : List (StubLibrary ι)) (main : String) (extra : List String) (m : Machine ι) :
    ∃ failure, Q m (e.recordPrepare loads libs main extra m) failure
        (e.prepare libs main extra m).2
      ∧ ∀ found, (e.prepare libs main extra m).1 = .ok found → failure = none := by
  have hlinked : Q m [] none { m with host := { m.host with env := m.host.env.flatten libs } } :=
    hQ.calm none ⟨rfl, rfl, rfl, rfl, rfl, rfl⟩
  rw [recordPrepare, prepare, bind_apply_of_ok (Action.modifyHost_apply _ m)]
  dsimp only
  generalize ({ m with host := { m.host with env := m.host.env.flatten libs } } : Machine ι) = m₀
    at hlinked ⊢
  obtain ⟨failure, hstartup, hfailure⟩ := startup_trace hQ hstubs extra.reverse m₀
  rw [bind_apply, Action.andThen]
  rcases hr : e.startup extra.reverse m₀ with ⟨err | modules, m₁⟩ <;> rw [hr] at hstartup hfailure
  · rw [List.append_nil]
    exact ⟨failure, hQ.append hlinked hstartup, fun _ h => by cases h⟩
  rw [hfailure modules rfl] at hstartup
  obtain ⟨failure', hload, hfailure'⟩ := load_trace hQ hstubs main m₁
  rw [← prepareMain_machine] at hload
  have hall := hQ.append hlinked (hQ.append hstartup hload)
  refine ⟨failure', hall, ?_⟩
  rintro ⟨loaded, f⟩ hfound
  obtain ⟨hloaded, -⟩ := prepareMain_eq_ok (Prod.ext hfound rfl)
  exact hfailure' loaded (by rw [hloaded])

/-- **A steady property of the calls of stubs is one of programs**, up to the report at the end. -/
theorem program_trace (hQ : Q.Steady) (hstubs : e.TracesStubs loads Q)
    (libs : List (StubLibrary ι)) (main : String) (extra : List String) (m : Machine ι) :
    ∃ failure m', Q m (e.recordProgram loads libs main extra m) failure m'
      ∧ match e.program libs main extra m with
        | (.ok outcome, m'') => m'' = m'.reporting outcome
        | (.error _, m'') => m'' = m' := by
  obtain ⟨failure, hprepare, hfound⟩ := prepare_trace hQ hstubs libs main extra m
  rw [recordProgram, recordEntry, program, bind_apply, Action.andThen]
  rcases hr : e.prepare libs main extra m with ⟨err | ⟨loaded, f⟩, m₁⟩ <;>
    rw [hr] at hprepare hfound
  · rw [List.append_nil]
    exact ⟨failure, m₁, hprepare, rfl⟩
  rw [hfound _ rfl] at hprepare
  have hparams := prepare_params hr
  have hcall := invoke_traces hQ.sequential hstubs e.callDepth [] f [] m₁
  dsimp only
  rw [execute_apply, call_of_params hparams]
  exact ⟨_, _, hQ.append hprepare hcall, rfl⟩

/-- If the report at the end makes no difference to the property, it holds up to the very end. -/
theorem program_trace_of_reporting (hQ : Q.Steady) (hstubs : e.TracesStubs loads Q)
    (hreporting : ∀ {m m' : Machine ι} {cs : List (StubCall ι)} {failure : Option Failure}
      (outcome : Outcome), Q m cs failure m' → Q m cs failure (m'.reporting outcome))
    (libs : List (StubLibrary ι)) (main : String) (extra : List String) (m : Machine ι) :
    ∃ failure, Q m (e.recordProgram loads libs main extra m) failure
      (e.program libs main extra m).2 := by
  obtain ⟨failure, m', htrace, hend⟩ := program_trace hQ hstubs libs main extra m
  refine ⟨failure, ?_⟩
  rcases hrun : e.program libs main extra m with ⟨err | outcome, m''⟩ <;> rw [hrun] at hend <;>
    rw [show m'' = _ from hend]
  · exact htrace
  · exact hreporting outcome htrace

/-- The calls inside a call of a program are those that its module makes, at any depth. -/
theorem inner_of_mem_recordProgram (e : Engine ι) (loads : Loads ι) (libs : List (StubLibrary ι))
    (main : String) (extra : List String) (m : Machine ι) :
    ∀ c ∈ flattenAll (e.recordProgram loads libs main extra m),
      c.inner = e.innerHistory loads c := by
  let Q : Trace ι (StubCall ι) := fun _ cs _ _ =>
    ∀ c ∈ flattenAll cs, c.inner = e.innerHistory loads c
  have hnil : ∀ c ∈ flattenAll [], c.inner = e.innerHistory loads c :=
    fun _ hc => absurd hc List.not_mem_nil
  have hQ : Q.Steady :=
    { calm := fun _ _ => hnil
      append := fun h h' => forall_flattenAll_append.2 ⟨h, h'⟩ }
  have hstubs : e.TracesStubs loads Q := by
    intro c hinner hloads
    refine forall_flattenAll_singleton.2 ⟨?_, hinner⟩
    rw [hinner, innerHistory]
    rcases c.stub.loaded? loads c.args c.before with _ | name
    · exact hnil
    · obtain ⟨failure, htrace, -⟩ := (hloads name c.before).trace hQ
      exact htrace
  obtain ⟨failure, m', htrace, -⟩ := program_trace hQ hstubs libs main extra m
  exact htrace

/-! ## Where a failure goes -/

section

variable {c : StubCall ι} {failure : Failure}

theorem startup_of_failure {names : List String} {m : Machine ι}
    (hc : c ∈ e.recordStartup loads names m) (hrun : (c.run e).1 = .error failure) :
    ∃ name ∈ names, (e.startup names m).1 = .error (.instantiationFailed name failure) := by
  induction names generalizing m with
  | nil => cases hc
  | cons name names ih =>
      rw [recordStartup, Action.andThen, List.mem_append] at hc
      rw [startup_cons]
      rcases hr : e.load name m with ⟨err | loaded, m₁⟩ <;> rw [hr] at hc
      · rcases hc with hc | hc
        · have hload := loadModule_of_failure hc hrun
          rw [show loadModule (e.invoke e.callDepth) name m = _ from hr] at hload
          cases hload
          exact ⟨name, List.mem_cons_self, rfl⟩
        · cases hc
      · rcases hc with hc | hc
        · have hload := loadModule_of_failure hc hrun
          rw [show loadModule (e.invoke e.callDepth) name m = _ from hr] at hload
          cases hload
        · obtain ⟨name', hname', hfailed⟩ := ih hc
          refine ⟨name', List.mem_cons_of_mem _ hname', ?_⟩
          dsimp only
          rw [hfailed]
          rfl

/-- A failure in the start function of a module that is loaded at the start is not classified: the
    program is not run, and the error holds its text. -/
theorem program_of_prepare_failure {libs : List (StubLibrary ι)} {main : String}
    {extra : List String} {m : Machine ι} (hc : c ∈ e.recordPrepare loads libs main extra m)
    (hrun : (c.run e).1 = .error failure) :
    ∃ name ∈ main :: extra,
      (e.program libs main extra m).1 = .error (.instantiationFailed name failure) := by
  have hprepare : ∃ name ∈ main :: extra,
      (e.prepare libs main extra m).1 = .error (.instantiationFailed name failure) := by
    rw [recordPrepare, Action.andThen, List.mem_append] at hc
    rw [prepare, bind_apply_of_ok (Action.modifyHost_apply _ m), bind_apply]
    dsimp only at hc
    generalize ({ m with host := { m.host with env := m.host.env.flatten libs } } : Machine ι) = m₀
      at hc ⊢
    rcases hr : e.startup extra.reverse m₀ with ⟨err | modules, m₁⟩ <;> rw [hr] at hc
    · rcases hc with hc | hc
      · obtain ⟨name, hname, hfailed⟩ := startup_of_failure hc hrun
        rw [hr] at hfailed
        cases hfailed
        exact ⟨name, List.mem_cons_of_mem _ (List.mem_reverse.1 hname), rfl⟩
      · cases hc
    · rcases hc with hc | hc
      · obtain ⟨name, hname, hfailed⟩ := startup_of_failure hc hrun
        rw [hr] at hfailed
        cases hfailed
      · have hload : (e.load main m₁).1 = _ := loadModule_of_failure hc hrun
        refine ⟨main, List.mem_cons_self, ?_⟩
        dsimp only
        rw [prepareMain_apply]
        rcases hl : e.load main m₁ with ⟨err | loaded, m₂⟩ <;> rw [hl] at hload <;> cases hload
        rfl
  obtain ⟨name, hname, hfailed⟩ := hprepare
  refine ⟨name, hname, ?_⟩
  rw [program, bind_apply]
  rcases hr : e.prepare libs main extra m with ⟨err | found, m₁⟩ <;> rw [hr] at hfailed <;>
    cases hfailed
  rfl

/-- A failure in a call of the entry point is what the run reports. -/
theorem program_of_entry_failure {libs : List (StubLibrary ι)} {main : String}
    {extra : List String} {m : Machine ι} (hc : c ∈ e.recordEntry loads libs main extra m)
    (hrun : (c.run e).1 = .error failure) :
    (e.program libs main extra m).1 = .ok (.classify failure) := by
  rw [recordEntry, Action.andThen] at hc
  rw [program, bind_apply]
  rcases hr : e.prepare libs main extra m with ⟨err | ⟨loaded, f⟩, m₁⟩ <;> rw [hr] at hc
  · cases hc
  · have hparams := prepare_params hr
    have hcall : (e.call f [] m₁).1 = .error failure := by
      rw [call_of_params hparams]
      exact invoke_of_failure hc hrun
    dsimp only
    rw [execute_apply, hcall]
    rfl

end

end Engine

end WasmHost
