import WasmHost.Proofs.Engine.History
import WasmHost.Proofs.Libc.Calls
import WasmHost.Proofs.Linking.Binding
import WasmHost.Proofs.Run.History
import WasmHost.Proofs.Run.Transcript

set_option autoImplicit false

/-! # The environment is fixed by startup

The symbol environment changes in two places only: when stub libraries are added, and when the
exports of a startup module are merged after it has been loaded. Loads and calls leave it alone,
and every call of a stub that is made meanwhile, at any depth, finds it unchanged
(`EnvironmentTrace`). So it is fixed once the startup modules have been loaded. -/

namespace WasmHost

variable {ι : Type}

/-! ## What startup registers -/

/-- The environment after the functions that some modules export have been registered, in the order
    in which the modules were loaded. -/
def Environment.registering (env : Environment ι) (loaded : List (LoadedModule ι)) :
    Environment ι :=
  loaded.foldl (fun env l => env.addExports l.name l.funcs) env

/-- The module that was loaded last counts. -/
theorem Environment.lookup?_registering {loaded : List (LoadedModule ι)}
    (hloaded : ∀ l ∈ loaded, (l.exports.map Prod.fst).Nodup) (env : Environment ι)
    (name : String) :
    (env.registering loaded).lookup? name
      = (loaded.reverse.findSome? fun l => (l.function? name).map (.exported l.name)).or
          (env.lookup? name) := by
  unfold registering
  induction loaded generalizing env with
  | nil => rfl
  | cons l loaded ih =>
      rw [List.forall_mem_cons] at hloaded
      rw [List.foldl_cons, ih hloaded.2, lookup?_addExports hloaded.1, List.reverse_cons,
        List.findSome?_append, Option.or_assoc, List.findSome?_singleton]

/-! ## Loads and calls -/

/-- The environment is the same at the end, and before and after every call of a stub, at any
    depth. -/
def KeepsEnvironment (e : Engine ι) (m : Machine ι) (cs : List (StubCall ι)) (m' : Machine ι) :
    Prop :=
  m'.host.env = m.host.env ∧ ∀ c ∈ flattenAll cs,
    c.before.host.env = m.host.env ∧ (c.run e).2.host.env = m.host.env

/-- However a run ends, it keeps the environment. -/
def EnvironmentTrace (e : Engine ι) : Trace ι (StubCall ι) := fun m cs _ m' =>
  KeepsEnvironment e m cs m'

namespace EnvironmentTrace

variable {e : Engine ι} {loads : Loads ι}

theorem sequential : (EnvironmentTrace e).Sequential where
  quiet _ h := ⟨by rw [h.host], fun _ hc => absurd hc List.not_mem_nil⟩
  append h h' := by
    obtain ⟨henv, hcs⟩ := h
    obtain ⟨henv', hds⟩ := h'
    rw [henv] at henv' hds
    exact ⟨henv', forall_flattenAll_append.2 ⟨hcs, hds⟩⟩

/-- What goes before and after the start function of a module leaves the environment alone. -/
theorem of_loadRun {name : String} {m m' : Machine ι} {cs : List (StubCall ι)}
    {result : Except LinkError (LoadedModule ι)}
    (h : LoadRun (EnvironmentTrace e) name m cs result m') : KeepsEnvironment e m cs m' := by
  cases h with
  | refused | mistyped => exact ⟨rfl, fun _ hc => absurd hc List.not_mem_nil⟩
  | failed w items cs failure m' _ hstart => exact hstart
  | loaded w items cs m₁ _ hstart =>
      exact ⟨(m₁.extends_finishLoad name m.store.instances.size).env.trans hstart.1, hstart.2⟩

/-- A stub has no access to the environment, and the modules that it loads have none. -/
theorem stubs (he : e.stubs.Lawful) : e.TracesStubs loads (EnvironmentTrace e) := by
  intro c hinner hloads
  have hrun : (c.run e).2.host.env = c.before.host.env :=
    (Engine.callStub_extends he c.name c.stub c.type
      (fun name => Engine.loadModule_extends he c.depth name) c.args c.before).env
  refine ⟨hrun, forall_flattenAll_singleton.2 ⟨?_, rfl, hrun⟩⟩
  rw [hinner, Engine.innerHistory]
  rcases c.stub.loaded? loads c.args c.before with _ | name
  · exact fun _ hc => absurd hc List.not_mem_nil
  · exact (of_loadRun (hloads name c.before)).2

theorem invoke (he : e.stubs.Lawful) (depth : Nat) (exports : List (String × Item ι)) (f : Func ι)
    (args : List Value) :
    Action.Traces (EnvironmentTrace e) (e.invoke depth exports f args)
      (e.record loads depth exports f args) :=
  Engine.invoke_traces sequential (stubs he) depth exports f args

theorem loadModule (he : e.stubs.Lawful) (depth : Nat) (name : String) (m : Machine ι) :
    KeepsEnvironment e m (recordLoad (e.record loads depth) name m)
      (WasmHost.loadModule (e.invoke depth) name m).2 :=
  of_loadRun (Engine.loadModule_traces sequential (stubs he) depth name m)

end EnvironmentTrace

namespace Engine

variable {e : Engine ι}

theorem load_env (he : e.stubs.Lawful) (name : String) (m : Machine ι) :
    (e.load name m).2.host.env = m.host.env :=
  (loadModule_extends he e.callDepth name m).env

theorem call_env (he : e.stubs.Lawful) (f : Func ι) (args : List Value) (m : Machine ι) :
    (e.call f args m).2.host.env = m.host.env := by
  unfold call
  split
  · exact (invoke_visits he e.callDepth [] f args m).1.env
  · rfl

/-- Startup registers the modules that load, in order. -/
theorem startup_registers (he : e.stubs.Lawful) {names : List String} {m m' : Machine ι}
    {loaded : List (LoadedModule ι)} (h : e.startup names m = (.ok loaded, m')) :
    m'.host.env = m.host.env.registering loaded
      ∧ ∀ l ∈ loaded, (l.exports.map Prod.fst).Nodup := by
  induction names generalizing m loaded with
  | nil =>
      cases h
      exact ⟨rfl, fun _ hl => absurd hl List.not_mem_nil⟩
  | cons name names ih =>
      obtain ⟨l, m₁, rest, hload, hrest, rfl⟩ := startup_cons_eq_ok h
      obtain ⟨henv, hnodup⟩ := ih hrest
      have hkept : m₁.host.env = m.host.env := by
        rw [← load_env he name m, hload]
      refine ⟨?_, List.forall_mem_cons.2 ⟨loadModule_exports_nodup he hload, hnodup⟩⟩
      rw [henv, ← hkept]
      rfl

end Engine

/-! ## Runs -/

namespace Run

variable {e : Engine ι} {r r' : Run ι} {q : Request ι} {names : List String}
  {answer : Except LinkError (Option Outcome)}

/-- Of the startup modules, in the order of loading, the first ones have been loaded, and what is new
    in the environment is the functions that these modules export. -/
structure Registers (e : Engine ι) (names : List String) (r r' : Run ι)
    (loaded : List (LoadedModule ι)) : Prop where
  names_eq : ∃ rest, names.reverse = loaded.map LoadedModule.name ++ rest
  startup : (e.startup (loaded.map LoadedModule.name) r.machine).1 = .ok loaded
  modules : r'.modules = r.modules ++ loaded
  env : r'.machine.host.env = r.machine.host.env.registering loaded
  lookup (name : String) :
    r'.machine.host.env.lookup? name
      = (loaded.reverse.findSome? fun l => (l.function? name).map (.exported l.name)).or
          (r.machine.host.env.lookup? name)
  /-- No name ever disappears. -/
  kept (name : String) (h : (r.machine.host.env.lookup? name).isSome) :
    (r'.machine.host.env.lookup? name).isSome

theorem Registers.of_startup (he : e.stubs.Lawful) {done rest : List String}
    (hnames : names.reverse = done ++ rest) {loaded : List (LoadedModule ι)} {m : Machine ι}
    (hstartup : e.startup done r.machine = (.ok loaded, m))
    (hmodules : r'.modules = r.modules ++ loaded) (henv : r'.machine.host.env = m.host.env) :
    Registers e names r r' loaded := by
  obtain ⟨hregistered, hnodup⟩ := Engine.startup_registers he hstartup
  have hdone := Engine.names_of_startup hstartup
  rw [hregistered] at henv
  have hlookup (name : String) := Environment.lookup?_registering hnodup r.machine.host.env name
  rw [← henv] at hlookup
  refine
    { names_eq := ⟨rest, by rw [hdone, hnames]⟩
      startup := by rw [hdone, hstartup]
      modules := hmodules
      env := henv
      lookup := hlookup
      kept := fun name h => ?_ }
  rw [hlookup, Option.isSome_or, h, Bool.or_true]

/-- What a request to load startup modules registers is what it has loaded: nothing if it is
    refused, and not the module that fails. -/
theorem Answered.registers (he : e.stubs.Lawful)
    (h : Answered e r (.loadModules names) answer r') :
    ∃ loaded, Registers e names r r' loaded
      ∧ (answer = .ok none → loaded.map LoadedModule.name = names.reverse) := by
  cases h with
  | refused =>
      have hnone : e.startup [] r.machine = (.ok [], r.machine) := rfl
      exact ⟨[], .of_startup he (List.nil_append _).symm hnone (List.append_nil _).symm rfl,
        fun h => by cases h⟩
  | modulesLoaded _ hphase loaded m hstartup =>
      exact ⟨loaded, .of_startup he (List.append_nil _).symm hstartup rfl rfl,
        fun _ => Engine.names_of_startup hstartup⟩
  | moduleFailed _ hphase done name rest hnames loaded m hstartup err m' hload =>
      have hkept : m'.host.env = m.host.env := by
        rw [← Engine.load_env he name m, hload]
      exact ⟨loaded, .of_startup he hnames hstartup rfl hkept, fun h => by cases h⟩

/-- Only the first two steps change the environment. -/
theorem Answered.env_eq (he : e.stubs.Lawful) (h : Answered e r q answer r')
    (hq : q.Allowed r → 2 ≤ q.rank) : r'.machine.host.env = r.machine.host.env := by
  cases h with
  | refused => rfl
  | stubsAdded libs hallowed => exact absurd (hq hallowed) (by simp)
  | modulesLoaded names hallowed => exact absurd (hq hallowed) (by simp)
  | moduleFailed names hallowed => exact absurd (hq hallowed) (by simp)
  | mainLoaded name hallowed loaded f m hload =>
      rw [← Engine.load_env he name r.machine, hload]
  | mainFailed name hallowed err m hprepare =>
      rw [← Engine.load_env he name r.machine, ← Engine.prepareMain_machine, hprepare]
  | executed loaded f => exact Engine.call_env he f [] r.machine

/-- From the loading of startup modules on, the environment stays as it is. -/
theorem env_of_mem_transcript (he : e.stubs.Lawful) {requests : List (Request ι)}
    (hstage : 2 ≤ r.phase.stage) {ev : Event ι} (hev : ev ∈ transcript e requests r) :
    ev.after.machine.host.env = r.machine.host.env := by
  induction requests generalizing r with
  | nil => cases hev
  | cons q requests ih =>
      have ha := answered e q r
      have henv := ha.env_eq he fun hq => Nat.le_trans hstage hq.stage_le
      rw [transcript] at hev
      rcases List.mem_cons.1 hev with rfl | hev
      · exact henv
      · rw [ih (Nat.le_trans hstage ha.stage_le) hev, henv]

end Run

/-! ## What changes the environment -/

/-- The environment changes only when stub libraries are added and when startup modules are
    loaded. -/
structure EnvironmentFixed (e : Engine ι) (loads : Loads ι) : Prop where
  /-- No stub changes it, whatever it is called with. -/
  stubs (c : StubCall ι) : (c.run e).2.host.env = c.before.host.env
  /-- No call changes it, and all calls of stubs that are made meanwhile find it unchanged. -/
  calls (depth : Nat) (exports : List (String × Item ι)) (f : Func ι) (args : List Value)
    (m : Machine ι) :
    KeepsEnvironment e m (e.record loads depth exports f args m)
      (e.invoke depth exports f args m).2
  /-- Neither does a load, whether it fails or not. -/
  modules (depth : Nat) (name : String) (m : Machine ι) :
    KeepsEnvironment e m (recordLoad (e.record loads depth) name m)
      (loadModule (e.invoke depth) name m).2
  opens (depth : Nat) (name : String) (flags : DlFlags) (m : Machine ι) :
    (openLibrary (loadModule (e.invoke depth)) name flags m).2.host.env = m.host.env
  /-- Between two startup modules it has what the modules so far export. -/
  startup (names : List String) (m m' : Machine ι) (loaded : List (LoadedModule ι))
    (h : e.startup names m = (.ok loaded, m')) :
    m'.host.env = m.host.env.registering loaded
  registers (r : Run ι) (requests : List (Run.Request ι)) (earlier : List (Run.Event ι))
    (ev : Run.Event ι) (later : List (Run.Event ι))
    (h : Run.transcript e requests r = earlier ++ ev :: later) (names : List String)
    (hrequest : ev.request = .loadModules names) :
    ∃ loaded, Run.Registers e names ev.before ev.after loaded
      ∧ (ev.answer = .ok none → loaded.map LoadedModule.name = names.reverse)
  /-- The main module is not registered, and running the program changes nothing. -/
  unchanged (r : Run ι) (requests : List (Run.Request ι)) (earlier : List (Run.Event ι))
    (ev : Run.Event ι) (later : List (Run.Event ι))
    (h : Run.transcript e requests r = earlier ++ ev :: later)
    (hrequest : (∃ name, ev.request = .loadMain name) ∨ ev.request = .execute ∨ ev.IsRefused) :
    ev.after.machine.host.env = ev.before.machine.host.env
  /-- Once startup modules have been loaded, no request changes it again. -/
  fixed (r : Run ι) (requests : List (Run.Request ι)) (earlier : List (Run.Event ι))
    (ev : Run.Event ι) (later : List (Run.Event ι))
    (h : Run.transcript e requests r = earlier ++ ev :: later) (names : List String)
    (hrequest : ev.request = .loadModules names) (htaken : ¬ ev.IsRefused) :
    ∀ ev' ∈ later, ev'.after.machine.host.env = ev.after.machine.host.env

theorem EnvironmentFixed.of_lawful {e : Engine ι} (he : e.stubs.Lawful) (loads : Loads ι) :
    EnvironmentFixed e loads where
  stubs c :=
    (Engine.callStub_extends he c.name c.stub c.type
      (fun name => Engine.loadModule_extends he c.depth name) c.args c.before).env
  calls depth exports f args m := EnvironmentTrace.invoke he depth exports f args m
  modules depth name m := EnvironmentTrace.loadModule he depth name m
  opens depth name flags m := by
    have hload := (Engine.loadModule_extends he depth name m).env
    rw [openLibrary_apply]
    rcases m.host.libraries.retain name with _ | ⟨handle, libraries⟩
    · dsimp only
      split
      · rcases hrun : loadModule (e.invoke depth) name m with ⟨err | loaded, m'⟩ <;>
          rw [hrun] at hload <;> exact hload
      · rfl
    · rfl
  startup names m m' loaded h := (Engine.startup_registers he h).1
  registers r requests earlier ev later h names hrequest := by
    have ha := (Run.transcript_split h).1
    rw [hrequest] at ha
    exact ha.registers he
  unchanged r requests earlier ev later h hrequest := by
    have ha := (Run.transcript_split h).1
    refine ha.env_eq he fun hallowed => ?_
    rcases hrequest with ⟨name, hrequest⟩ | hrequest | hrefused
    · rw [hrequest]
      simp
    · rw [hrequest]
      simp
    · exact absurd hallowed (ha.refused_iff.1 hrefused)
  fixed r requests earlier ev later h names hrequest htaken ev' hev' := by
    obtain ⟨ha, -, rest, rfl⟩ := Run.transcript_split h
    have hallowed : ev.request.Allowed ev.before :=
      Classical.not_not.1 fun hnot => htaken (ha.refused_iff.2 hnot)
    have hstage : 2 ≤ ev.after.phase.stage := by
      have hrank := ha.rank_lt hallowed
      rwa [hrequest] at hrank
    exact Run.env_of_mem_transcript he hstage hev'

/-- **The environment is fixed by startup:** nothing that code does with the C library changes it,
    and neither does any step of a run after the loading of startup modules. -/
theorem Libc.environment_fixed [Budget] : EnvironmentFixed Libc.engine Libc.loads :=
  .of_lawful Libc.stubs_lawful Libc.loads

end WasmHost
