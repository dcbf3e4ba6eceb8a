import WasmHost.Proofs.Action
import WasmHost.Run

set_option autoImplicit false

/-! # A run as one computation on the machine

The steps of a run check its phase and keep a list of the modules. What they do to the machine does
not depend on either, as long as they are taken in order: `Engine.program` does the same without
phases, and `Run.all_eq` says so. Facts about whole runs are proved about `Engine.program`. -/

namespace WasmHost

variable {ι α β : Type}

/-! ## The computation -/

/-- The machine after the exports of a module have been merged into the environment. -/
def Machine.merging (m : Machine ι) (loaded : LoadedModule ι) : Machine ι :=
  { m with host := { m.host with env := m.host.env.addExports loaded.name loaded.funcs } }

/-- The machine after the output has been handed to the sink, followed by the line of an outcome. -/
def Machine.reporting (m : Machine ι) (outcome : Outcome) : Machine ι :=
  { m with host := { m.host with output := (m.host.output.flush.2.writeLine outcome.text).2 } }

/-- How a call of an entry point ended. -/
def Outcome.ofCall (moduleName entry : String) : Except Failure (List Value) → Outcome
  | .ok results => .returned moduleName entry (Run.statusOf results)
  | .error failure => .classify failure

namespace Engine

/-- Load modules one after the other and merge the exports of each. -/
def startup (e : Engine ι) : List String → Action ι LinkError (List (LoadedModule ι))
  | [] => return []
  | name :: names => do
      let loaded ← e.load name
      Action.modifyHost fun h => { h with env := h.env.addExports loaded.name loaded.funcs }
      return loaded :: (← startup e names)

theorem startup_cons (e : Engine ι) (name : String) (names : List String) (m : Machine ι) :
    e.startup (name :: names) m
      = match e.load name m with
        | (.error err, m') => (.error err, m')
        | (.ok loaded, m') =>
            ((e.startup names (m'.merging loaded)).1.map (loaded :: ·),
              (e.startup names (m'.merging loaded)).2) := by
  rw [startup, bind_apply]
  rcases e.load name m with ⟨err | loaded, m'⟩
  · rfl
  · dsimp only
    rw [bind_apply_of_ok (Action.modifyHost_apply _ m'), bind_pure_apply]
    rfl

theorem startup_cons_eq_ok {e : Engine ι} {name : String} {names : List String} {m m' : Machine ι}
    {loaded : List (LoadedModule ι)} (h : e.startup (name :: names) m = (.ok loaded, m')) :
    ∃ l m₁ rest, e.load name m = (.ok l, m₁) ∧ e.startup names (m₁.merging l) = (.ok rest, m')
      ∧ loaded = l :: rest := by
  rw [startup_cons] at h
  rcases hload : e.load name m with ⟨err | l, m₁⟩ <;> rw [hload] at h
  · cases h
  · dsimp only at h
    rcases hrest : e.startup names (m₁.merging l) with ⟨err | rest, m₂⟩ <;> rw [hrest] at h <;>
      cases h
    exact ⟨l, m₁, rest, rfl, hrest, rfl⟩

/-- Load the main module and find its entry point. -/
def prepareMain (e : Engine ι) (main : String) : Action ι LinkError (LoadedModule ι × Func ι) := do
  let loaded ← e.load main
  let f ← Action.ofExcept (Run.entryPoint loaded (← Action.getHost).config.entry)
  return (loaded, f)

/-- Looking for an entry point changes nothing. -/
theorem prepareMain_apply (e : Engine ι) (main : String) (m : Machine ι) :
    e.prepareMain main m
      = match e.load main m with
        | (.error err, m') => (.error err, m')
        | (.ok loaded, m') =>
            ((Run.entryPoint loaded m'.host.config.entry).map fun f => (loaded, f), m') := by
  rw [prepareMain, bind_apply]
  rcases e.load main m with ⟨err | loaded, m'⟩
  · rfl
  · dsimp only
    rw [bind_apply_of_ok (Action.getHost_apply m'), bind_pure_apply,
      Action.ofExcept_apply]

/-- The main module loads before its entry point is looked for. -/
theorem prepareMain_eq_ok {e : Engine ι} {main : String} {m m' : Machine ι}
    {loaded : LoadedModule ι} {f : Func ι} (h : e.prepareMain main m = (.ok (loaded, f), m')) :
    e.load main m = (.ok loaded, m')
      ∧ Run.entryPoint loaded m'.host.config.entry = .ok f := by
  rw [prepareMain_apply] at h
  rcases hload : e.load main m with ⟨err | l, m₁⟩ <;> rw [hload] at h
  · cases h
  · dsimp only at h
    rcases hentry : Run.entryPoint l m₁.host.config.entry with err | f' <;> rw [hentry] at h <;>
      cases h
    exact ⟨rfl, hentry⟩

/-- Call an entry point and report how that ended. -/
def execute (e : Engine ι) (moduleName : String) (f : Func ι) : Action ι LinkError Outcome := do
  let entry := (← Action.getHost).config.entry
  let result ← (e.call f []).attempt
  let outcome := Outcome.ofCall moduleName entry result
  Action.modifyHost fun h => { h with output := (h.output.flush.2.writeLine outcome.text).2 }
  return outcome

theorem execute_apply (e : Engine ι) (moduleName : String) (f : Func ι) (m : Machine ι) :
    e.execute moduleName f m
      = (.ok (.ofCall moduleName m.host.config.entry (e.call f [] m).1),
          (e.call f [] m).2.reporting
            (.ofCall moduleName m.host.config.entry (e.call f [] m).1)) := by
  rw [execute, bind_apply_of_ok (Action.getHost_apply m),
    bind_apply_of_ok (Action.attempt_apply _ m)]
  rfl

/-- Load all that a program needs before it runs. -/
def prepare (e : Engine ι) (libs : List (StubLibrary ι)) (main : String) (extra : List String) :
    Action ι LinkError (LoadedModule ι × Func ι) := do
  Action.modifyHost fun h => { h with env := h.env.flatten libs }
  let _ ← e.startup extra.reverse
  e.prepareMain main

/-- Load and run a program. -/
def program (e : Engine ι) (libs : List (StubLibrary ι)) (main : String) (extra : List String) :
    Action ι LinkError Outcome := do
  let (loaded, f) ← e.prepare libs main extra
  e.execute loaded.name f

end Engine

/-! ## The steps -/

namespace Run

theorem require_apply {allowed : Run ι → Bool} {r : Run ι} (h : allowed r = true)
    (action : String) : require action allowed r = (.ok (), r) := by
  show (if !allowed r then (throw _ : Step ι Unit) else pure ()) r = _
  rw [h]
  rfl

theorem enter_apply (phase : Phase) (r : Run ι) :
    enter phase r = (.ok (), { r with phase := phase }) := rfl

theorem onMachine_apply (x : Action ι LinkError α) (r : Run ι) :
    onMachine x r = ((x r.machine).1, { r with machine := (x r.machine).2 }) := rfl

theorem addStubs_apply (libs : List (StubLibrary ι)) {r : Run ι} (h : r.phase = .initializing) :
    addStubs libs r
      = (.ok (), { r with
          machine := { r.machine with
            host := { r.machine.host with env := r.machine.host.env.flatten libs } }
          phase := .loadingStubs }) := by
  rw [addStubs, bind_apply_of_ok (require_apply (by simp [h]) _)]
  rfl

theorem loadStartupModule_apply (e : Engine ι) (name : String) (remaining : Nat) (r : Run ι) :
    loadStartupModule e name remaining r
      = match e.load name r.machine with
        | (.error err, m) => (.error err, { r with machine := m })
        | (.ok loaded, m) =>
            (.ok (), { r with
              machine := m.merging loaded
              modules := r.modules ++ [loaded]
              phase := .loadingModules remaining }) := by
  rw [loadStartupModule, bind_apply, onMachine_apply]
  rcases e.load name r.machine with ⟨_ | _, _⟩ <;> rfl

/-- Loading startup modules is `Engine.startup` with the modules kept in the run. -/
theorem loadInOrder_apply (e : Engine ι) (names : List String) (r : Run ι) :
    ∃ r', loadInOrder e names r = ((e.startup names r.machine).1.map fun _ => (), r')
      ∧ r'.machine = (e.startup names r.machine).2
      ∧ ∀ loaded, (e.startup names r.machine).1 = .ok loaded →
          r'.modules = r.modules ++ loaded
            ∧ r'.phase = if names = [] then r.phase else .loadingModules 0 := by
  induction names generalizing r with
  | nil => exact ⟨r, rfl, rfl, fun loaded h => by cases h; exact ⟨(List.append_nil _).symm, rfl⟩⟩
  | cons name names ih =>
      have hstep := loadStartupModule_apply e name names.length r
      rw [loadInOrder, Engine.startup_cons]
      rcases hload : e.load name r.machine with ⟨err | loaded, m⟩ <;> rw [hload] at hstep
      · exact ⟨_, bind_apply_of_error hstep, rfl, fun _ h => by cases h⟩
      · obtain ⟨r', hr', hmachine, hok⟩ := ih { r with
          machine := m.merging loaded
          modules := r.modules ++ [loaded]
          phase := .loadingModules names.length }
        rw [bind_apply_of_ok hstep, hr']
        dsimp only at hmachine hok ⊢
        rcases hrest : e.startup names (m.merging loaded) with ⟨err | rest, m'⟩ <;>
          rw [hrest] at hmachine hok
        · exact ⟨r', rfl, hmachine, fun _ h => by cases h⟩
        · refine ⟨r', rfl, hmachine, fun _ h => ?_⟩
          cases h
          obtain ⟨hmodules, hphase⟩ := hok rest rfl
          refine ⟨by rw [hmodules, List.append_assoc]; rfl, ?_⟩
          -- the phase counts the modules that are left, so it ends at zero
          rw [hphase]
          cases names <;> rfl

theorem loadModules_apply (e : Engine ι) (names : List String) {r : Run ι}
    (h : r.phase = .loadingStubs) :
    ∃ r', loadModules e names r = ((e.startup names.reverse r.machine).1.map fun _ => (), r')
      ∧ r'.machine = (e.startup names.reverse r.machine).2
      ∧ ∀ loaded, (e.startup names.reverse r.machine).1 = .ok loaded →
          r'.modules = r.modules ++ loaded ∧ r'.phase = .loadingModules 0 := by
  obtain ⟨r', hr', hmachine, hok⟩ :=
    loadInOrder_apply e names.reverse { r with phase := .loadingModules names.length }
  refine ⟨r', ?_, hmachine, fun loaded hloaded => ?_⟩
  · rw [loadModules, bind_apply_of_ok (require_apply (by simp [h]) _),
      bind_apply_of_ok (enter_apply _ _), hr']
  · obtain ⟨hmodules, hphase⟩ := hok loaded hloaded
    refine ⟨hmodules, ?_⟩
    rw [hphase]
    cases names with
    | nil => rfl
    | cons name names => exact if_neg (by simp)

theorem loadMain_apply (e : Engine ι) (main : String) {r : Run ι}
    (h : r.phase = .loadingStubs ∨ r.phase = .loadingModules 0) :
    loadMain e main r
      = match e.prepareMain main r.machine with
        | (.error err, m) => (.error err, { r with machine := m, phase := .loadingMain })
        | (.ok found, m) =>
            (.ok (), { r with machine := m, phase := .loadingMain, main := some found }) := by
  have hallowed : (r.phase == .loadingStubs || r.phase == .loadingModules 0) = true := by
    rcases h with h | h <;> simp [h]
  rw [loadMain, bind_apply_of_ok (require_apply hallowed _), bind_apply_of_ok (enter_apply _ _),
    bind_apply, onMachine_apply, Engine.prepareMain_apply]
  rcases e.load main r.machine with ⟨err | loaded, m⟩
  · rfl
  dsimp only
  have hentry : (ExceptT.mk (pure (entryPoint loaded m.host.config.entry)) : Step ι (Func ι))
      { r with machine := m, phase := .loadingMain }
        = (entryPoint loaded m.host.config.entry,
            { r with machine := m, phase := .loadingMain }) := rfl
  show ((ExceptT.mk (pure (entryPoint loaded m.host.config.entry)) : Step ι (Func ι)) >>= _)
    { r with machine := m, phase := .loadingMain } = _
  rw [bind_apply, hentry]
  rcases entryPoint loaded m.host.config.entry with err | f <;> rfl

theorem loadMain_eq_ok {e : Engine ι} {main : String} {r r' : Run ι}
    (h : r.phase = .loadingStubs ∨ r.phase = .loadingModules 0)
    (hmain : loadMain e main r = (.ok (), r')) :
    ∃ loaded f, e.load main r.machine = (.ok loaded, r'.machine) ∧ r'.main = some (loaded, f) := by
  rw [loadMain_apply e main h] at hmain
  rcases hprepare : e.prepareMain main r.machine with ⟨err | ⟨loaded, f⟩, m⟩ <;>
    rw [hprepare] at hmain <;> cases hmain
  exact ⟨loaded, f, (Engine.prepareMain_eq_ok hprepare).1, rfl⟩

theorem callEntry_apply (e : Engine ι) (moduleName entry : String) (f : Func ι) (r : Run ι) :
    callEntry e moduleName entry f r
      = (.ok (.ofCall moduleName entry (e.call f [] r.machine).1),
          { r with machine := (e.call f [] r.machine).2 }) := by
  rw [callEntry, onMachine_apply]
  rcases e.call f [] r.machine with ⟨_ | _, _⟩ <;> rfl

theorem execute_apply (e : Engine ι) {loaded : LoadedModule ι} {f : Func ι} {r : Run ι}
    (hphase : r.phase = .loadingMain) (hmain : r.main = some (loaded, f)) :
    execute e r
      = ((e.execute loaded.name f r.machine).1,
          { r with machine := (e.execute loaded.name f r.machine).2, phase := .terminated }) := by
  obtain ⟨machine, phase, modules, main⟩ := r
  cases hphase
  cases hmain
  have hget (r : Run ι) : (get : Step ι (Run ι)) r = (.ok r, r) := rfl
  rw [execute, bind_apply_of_ok (require_apply rfl _), bind_apply_of_ok (hget _)]
  show (enter .running >>= fun _ => (get : Step ι (Run ι)) >>= fun r =>
    callEntry e loaded.name r.machine.host.config.entry f >>= fun outcome =>
      report outcome >>= fun _ => enter .terminated >>= fun _ => (pure outcome : Step ι Outcome))
    ⟨machine, .loadingMain, modules, some (loaded, f)⟩ = _
  rw [bind_apply_of_ok (enter_apply _ _), bind_apply_of_ok (hget _),
    bind_apply_of_ok (callEntry_apply _ _ _ _ _), Engine.execute_apply]
  rfl

/-- **All steps of a run together are `Engine.program`.** -/
theorem all_apply (e : Engine ι) (libs : List (StubLibrary ι)) (main : String)
    (extra : List String) {r : Run ι} (h : r.phase = .initializing) :
    (all e libs main extra r).1 = (e.program libs main extra r.machine).1
      ∧ (all e libs main extra r).2.machine = (e.program libs main extra r.machine).2 := by
  rw [all, bind_apply_of_ok (addStubs_apply libs h), Engine.program, Engine.prepare, bind_assoc,
    bind_apply_of_ok (Action.modifyHost_apply _ _), bind_assoc, bind_apply,
    bind_apply]
  obtain ⟨r₁, hr₁, hmachine, hok⟩ := loadModules_apply e extra (r := { r with
    machine := { r.machine with
      host := { r.machine.host with env := r.machine.host.env.flatten libs } }
    phase := .loadingStubs }) rfl
  rw [hr₁]
  dsimp only at hmachine hok ⊢
  rcases hstartup : e.startup extra.reverse { r.machine with
    host := { r.machine.host with env := r.machine.host.env.flatten libs } }
    with ⟨err | modules, m⟩ <;> rw [hstartup] at hmachine hok
  · exact ⟨rfl, hmachine⟩
  obtain ⟨-, hphase⟩ := hok modules rfl
  have hmain := loadMain_apply e main (.inr hphase)
  simp only [Except.map]
  rw [bind_apply, bind_apply, hmain, hmachine]
  rcases e.prepareMain main m with ⟨err | ⟨loaded, f⟩, m'⟩
  · exact ⟨rfl, rfl⟩
  · dsimp only
    rw [execute_apply e rfl rfl]
    exact ⟨rfl, rfl⟩

end Run

/-! ## Whole programs -/

/-- The machine at the start of a run: the active memory is one of the configured size. -/
def Machine.initial (config : Config) (source : ModuleSource ModuleObject) (sink : Sink) :
    Machine ι where
  store := Store.empty.addMemory (.new ⟨config.initialPages, none⟩)
  host :=
    { Host.new config source sink with
      arena := MemoryArena.empty.install 0 Run.hostName }

/-- A run starts with the initial machine, or does not start because the memory is too large. -/
theorem Run.start_eq (config : Config) (source : ModuleSource ModuleObject) (sink : Sink) :
    (Run.start config source sink : Except LinkError (Run ι))
      = if config.initialPages ≤ maxPages then
          .ok ⟨.initial config source sink, .initializing, [], none⟩
        else .error (LinkError.ofKind (.memoryCreateFail config.initialPages)) := rfl

theorem Run.start_eq_ok {config : Config} {source : ModuleSource ModuleObject} {sink : Sink}
    {start : Run ι} (h : Run.start config source sink = .ok start) :
    start = ⟨.initial config source sink, .initializing, [], none⟩ := by
  rw [Run.start_eq] at h
  split at h <;> cases h
  rfl

theorem runProgram_eq (e : Engine ι) (config : Config) (source : ModuleSource ModuleObject)
    (sink : Sink) (libs : List (StubLibrary ι)) (main : String) (extra : List String) :
    runProgram e config source sink libs main extra
      = if config.initialPages ≤ maxPages then
          let (result, m) := e.program libs main extra (.initial config source sink)
          .of sink result m
        else
          ⟨some (.error (LinkError.ofKind (.memoryCreateFail config.initialPages))), sink, []⟩ := by
  rw [runProgram, Run.start_eq]
  by_cases hpages : config.initialPages ≤ maxPages
  · rw [if_pos hpages, if_pos hpages]
    have hall := Run.all_apply e libs main extra
      (r := ⟨.initial config source sink, .initializing, [], none⟩) rfl
    dsimp only at hall ⊢
    generalize Run.all e libs main extra ⟨.initial config source sink, .initializing, [], none⟩
      = done at hall ⊢
    obtain ⟨result, r'⟩ := done
    obtain ⟨rfl, hmachine⟩ := hall
    dsimp only at hmachine ⊢
    rw [hmachine]
    rfl
  · rw [if_neg hpages, if_neg hpages]

end WasmHost
