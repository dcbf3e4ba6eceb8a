import WasmHost.Proofs.Errors.Collecting
import WasmHost.Proofs.Loader.Loading
import WasmHost.Proofs.Run.Steps

set_option autoImplicit false

/-! # What becomes of a request

A run is driven by requests to take its steps, in any order and any number. `Run.Answered` lists
what can become of a single request: it is refused, it fails midway, or it succeeds. -/

namespace WasmHost

variable {ι : Type}

/-! ## Requests -/

/-- How far a run has come. It stays at one stage while startup modules are loaded. -/
@[simp] def Phase.stage : Phase → Nat
  | .initializing => 0
  | .loadingStubs => 1
  | .loadingModules _ => 2
  | .loadingMain => 3
  | .running => 4
  | .terminated => 5

/-- The machine after the stubs of some libraries have been registered. -/
def Machine.linking (m : Machine ι) (libs : List (StubLibrary ι)) : Machine ι :=
  { m with host := { m.host with env := m.host.env.flatten libs } }

namespace Run

/-- A request to take one of the steps of a run. -/
inductive Request (ι : Type) where
  | addStubs (libs : List (StubLibrary ι))
  | loadModules (names : List String)
  | loadMain (name : String)
  | execute

namespace Request

/-- What a request asks for, as it is said when the request is refused. -/
def action : Request ι → String
  | addStubs _ => "load stubs"
  | loadModules _ => "load modules"
  | loadMain _ => "load the main module"
  | execute => "run"

/-- The place of a request among the steps of a run. -/
@[simp] def rank : Request ι → Nat
  | addStubs _ => 0
  | loadModules _ => 1
  | loadMain _ => 2
  | execute => 3

/-- Whether a run may take the step that is requested. -/
def Allowed (r : Run ι) : Request ι → Prop
  | addStubs _ => r.phase = .initializing
  | loadModules _ => r.phase = .loadingStubs
  | loadMain _ => r.phase = .loadingStubs ∨ r.phase = .loadingModules 0
  | execute => r.phase = .loadingMain ∧ r.main.isSome = true

/-- Take the step that is requested. Only the last step has an outcome. -/
def perform (e : Engine ι) : Request ι → Step ι (Option Outcome)
  | addStubs libs => do
      Run.addStubs libs
      return none
  | loadModules names => do
      Run.loadModules e names
      return none
  | loadMain name => do
      Run.loadMain e name
      return none
  | execute => do
      return some (← Run.execute e)

end Request

/-- The runs that loading modules in order goes through. -/
def loadingRuns (e : Engine ι) : List String → Run ι → List (Run ι)
  | [], r => [r]
  | name :: names, r =>
      r :: match loadStartupModule e name names.length r with
        | (.ok _, r') => loadingRuns e names r'
        | (.error _, r') => [r']

/-- What can become of a request: the answer to it and the run afterwards. -/
inductive Answered (e : Engine ι) (r : Run ι) :
    Request ι → Except LinkError (Option Outcome) → Run ι → Prop where
  /-- A request that is not allowed changes nothing. -/
  | refused (q : Request ι) (h : ¬ q.Allowed r) :
      Answered e r q (.error (LinkError.ofKind (.invalidState r.phase.text q.action))) r
  | stubsAdded (libs : List (StubLibrary ι)) (h : r.phase = .initializing) :
      Answered e r (.addStubs libs) (.ok none)
        { r with machine := r.machine.linking libs, phase := .loadingStubs }
  | modulesLoaded (names : List String) (h : r.phase = .loadingStubs)
      (loaded : List (LoadedModule ι)) (m : Machine ι)
      (hstartup : e.startup names.reverse r.machine = (.ok loaded, m)) :
      Answered e r (.loadModules names) (.ok none)
        { r with machine := m, modules := r.modules ++ loaded, phase := .loadingModules 0 }
  /-- Of the startup modules the last ones are loaded, and then one of them does not load. -/
  | moduleFailed (names : List String) (h : r.phase = .loadingStubs) (done : List String)
      (name : String) (rest : List String) (hnames : names.reverse = done ++ name :: rest)
      (loaded : List (LoadedModule ι)) (m : Machine ι)
      (hstartup : e.startup done r.machine = (.ok loaded, m)) (err : LinkError) (m' : Machine ι)
      (hload : e.load name m = (.error err, m')) :
      Answered e r (.loadModules names) (.error err)
        { r with
          machine := m'
          modules := r.modules ++ loaded
          phase := .loadingModules (rest.length + 1) }
  | mainLoaded (name : String) (h : (Request.loadMain name).Allowed r) (loaded : LoadedModule ι)
      (f : Func ι) (m : Machine ι) (hload : e.load name r.machine = (.ok loaded, m))
      (hentry : entryPoint loaded m.host.config.entry = .ok f) :
      Answered e r (.loadMain name) (.ok none)
        { r with machine := m, phase := .loadingMain, main := some (loaded, f) }
  /-- The main module does not load, or its entry point is not accepted. -/
  | mainFailed (name : String) (h : (Request.loadMain name).Allowed r) (err : LinkError)
      (m : Machine ι) (hprepare : e.prepareMain name r.machine = (.error err, m)) :
      Answered e r (.loadMain name) (.error err) { r with machine := m, phase := .loadingMain }
  /-- The entry point is called, and how that ended is reported. -/
  | executed (loaded : LoadedModule ι) (f : Func ι) (h : r.phase = .loadingMain)
      (hmain : r.main = some (loaded, f)) (outcome : Outcome)
      (houtcome : outcome
        = .ofCall loaded.name r.machine.host.config.entry (e.call f [] r.machine).1) :
      Answered e r .execute (.ok (some outcome))
        { r with machine := (e.call f [] r.machine).2.reporting outcome, phase := .terminated }

/-! ## Single steps -/

theorem require_of_not_allowed {allowed : Run ι → Bool} {r : Run ι} (h : allowed r = false)
    (action : String) :
    require action allowed r = (.error (LinkError.ofKind (.invalidState r.phase.text action)), r) := by
  show (if !allowed r then (throw _ : Step ι Unit) else pure ()) r = _
  rw [h]
  rfl

/-- Loading modules in order goes through all of them, or stops at the first that does not load; the
    phase counts those that are not loaded. -/
theorem loadInOrder_cases (e : Engine ι) (names : List String) (r : Run ι)
    (hphase : r.phase = .loadingModules names.length) :
    (∃ loaded m, e.startup names r.machine = (.ok loaded, m)
      ∧ loadInOrder e names r
        = (.ok (),
            { r with machine := m, modules := r.modules ++ loaded, phase := .loadingModules 0 }))
    ∨ ∃ done name rest loaded m err m', names = done ++ name :: rest
      ∧ e.startup done r.machine = (.ok loaded, m) ∧ e.load name m = (.error err, m')
      ∧ loadInOrder e names r
        = (.error err,
            { r with
              machine := m'
              modules := r.modules ++ loaded
              phase := .loadingModules (rest.length + 1) }) := by
  induction names generalizing r with
  | nil =>
      refine .inl ⟨[], r.machine, rfl, ?_⟩
      have hphase : r.phase = .loadingModules 0 := hphase
      rw [List.append_nil, ← hphase]
      rfl
  | cons name names ih =>
      have hstep := loadStartupModule_apply e name names.length r
      rw [loadInOrder]
      rcases hload : e.load name r.machine with ⟨err | l, m₁⟩ <;> rw [hload] at hstep
      · refine .inr ⟨[], name, names, [], r.machine, err, m₁, rfl, rfl, hload, ?_⟩
        rw [bind_apply_of_error hstep, List.append_nil, ← List.length_cons (a := name), ← hphase]
      · rw [bind_apply_of_ok hstep]
        -- the module that was just loaded comes in front of those that the rest loads
        have hcons {done : List String} {loaded : List (LoadedModule ι)} {m : Machine ι}
            (h : e.startup done (m₁.merging l) = (.ok loaded, m)) :
            e.startup (name :: done) r.machine = (.ok (l :: loaded), m) := by
          rw [Engine.startup_cons, hload]
          dsimp only
          rw [h]
          rfl
        rcases ih { r with
            machine := m₁.merging l
            modules := r.modules ++ [l]
            phase := .loadingModules names.length } rfl with
          ⟨loaded, m, hstartup, heq⟩
          | ⟨done, name', rest, loaded, m, err, m', hnames, hstartup, hfailed, heq⟩
        · refine .inl ⟨l :: loaded, m, hcons hstartup, ?_⟩
          rw [heq, List.append_assoc]
          rfl
        · refine .inr ⟨name :: done, name', rest, l :: loaded, m, err, m', ?_, hcons hstartup,
            hfailed, ?_⟩
          · rw [hnames, List.cons_append]
          · rw [heq, List.append_assoc]
            rfl

/-- Loading modules in order ends with the last of the runs that it goes through. -/
theorem getLast?_loadingRuns (e : Engine ι) (names : List String) (r : Run ι) :
    (loadingRuns e names r).getLast? = some (loadInOrder e names r).2 := by
  induction names generalizing r with
  | nil => rfl
  | cons name names ih =>
      rw [loadingRuns, loadInOrder, bind_apply, List.getLast?_cons]
      rcases loadStartupModule e name names.length r with ⟨err | _, r'⟩
      · rfl
      · rw [ih r']
        rfl

/-- A request that is not allowed is refused before anything is done. -/
theorem perform_of_not_allowed (e : Engine ι) {q : Request ι} {r : Run ι} (h : ¬ q.Allowed r) :
    q.perform e r = (.error (LinkError.ofKind (.invalidState r.phase.text q.action)), r) := by
  cases q with
  | addStubs libs =>
      have hrefused : (r.phase == .initializing) = false := beq_eq_false_iff_ne.2 h
      exact bind_apply_of_error (bind_apply_of_error (require_of_not_allowed hrefused _))
  | loadModules names =>
      have hrefused : (r.phase == .loadingStubs) = false := beq_eq_false_iff_ne.2 h
      exact bind_apply_of_error (bind_apply_of_error (require_of_not_allowed hrefused _))
  | loadMain name =>
      have hrefused : (r.phase == .loadingStubs || r.phase == .loadingModules 0) = false := by
        rw [Bool.or_eq_false_iff, beq_eq_false_iff_ne, beq_eq_false_iff_ne]
        exact not_or.1 h
      exact bind_apply_of_error (bind_apply_of_error (require_of_not_allowed hrefused _))
  | execute =>
      have hrefused : (r.phase == .loadingMain && r.main.isSome) = false := by
        rw [Bool.and_eq_false_iff, beq_eq_false_iff_ne, ← Bool.not_eq_true (r.main.isSome)]
        exact Decidable.not_and_iff_or_not.1 h
      exact bind_apply_of_error (bind_apply_of_error (require_of_not_allowed hrefused _))

/-- Startup modules are loaded in reverse order, if the request to load them is allowed. -/
theorem perform_loadModules (e : Engine ι) {names : List String} {r : Run ι}
    (h : (Request.loadModules names).Allowed r) :
    (Request.loadModules names).perform e r
      = ((loadInOrder e names.reverse { r with phase := .loadingModules names.length }).1.map
            fun _ => none,
          (loadInOrder e names.reverse { r with phase := .loadingModules names.length }).2) := by
  have hallowed : (r.phase == .loadingStubs) = true := beq_iff_eq.2 h
  rw [Request.perform, bind_apply, loadModules, bind_apply_of_ok (require_apply hallowed _),
    bind_apply_of_ok (enter_apply _ _)]
  rcases loadInOrder e names.reverse { r with phase := .loadingModules names.length } with
    ⟨err | _, r'⟩ <;> rfl

/-- **What becomes of a request** is one of the things that are listed. -/
theorem answered (e : Engine ι) (q : Request ι) (r : Run ι) :
    Answered e r q (q.perform e r).1 (q.perform e r).2 := by
  by_cases h : q.Allowed r
  case neg =>
    rw [perform_of_not_allowed e h]
    exact .refused q h
  cases q with
  | addStubs libs =>
      rw [Request.perform, bind_apply_of_ok (addStubs_apply libs h)]
      exact .stubsAdded libs h
  | loadModules names =>
      rw [perform_loadModules e h]
      rcases loadInOrder_cases e names.reverse { r with phase := .loadingModules names.length }
          (by rw [List.length_reverse]) with
        ⟨loaded, m, hstartup, heq⟩
        | ⟨done, name, rest, loaded, m, err, m', hnames, hstartup, hfailed, heq⟩
      · rw [heq]
        exact .modulesLoaded names h loaded m hstartup
      · rw [heq]
        exact .moduleFailed names h done name rest hnames loaded m hstartup err m' hfailed
  | loadMain name =>
      rw [Request.perform, bind_apply, loadMain_apply e name h]
      rcases hprepare : e.prepareMain name r.machine with ⟨err | ⟨loaded, f⟩, m⟩
      · exact .mainFailed name h err m hprepare
      · obtain ⟨hload, hentry⟩ := Engine.prepareMain_eq_ok hprepare
        exact .mainLoaded name h loaded f m hload hentry
  | execute =>
      obtain ⟨hphase, hmain⟩ := h
      obtain ⟨⟨loaded, f⟩, hmain⟩ := Option.isSome_iff_exists.1 hmain
      rw [Request.perform, bind_apply, execute_apply e hphase hmain, Engine.execute_apply]
      exact .executed loaded f hphase hmain _ rfl

end Run

/-! ## What loading says about the modules -/

/-- A module that is not accepted fails to load. -/
theorem Host.kind_of_accept {host : Host ι} {name : String} {err : LinkError}
    (h : host.accept name = .error err) : err.kind = .loadFailure name := by
  rw [accept] at h
  rcases hsource : host.source name with err' | object <;> rw [hsource] at h
  · cases h
    rfl
  rcases hparse : object.parse name with err' | w <;> simp only [hparse] at h
  · cases h
    rfl
  rcases hbind : host.bindImports name w.imports with err' | items <;> rw [hbind] at h
  · cases h
    exact LinkError.kind_of_collect hbind
  · cases h

namespace Engine

variable {e : Engine ι} {name : String} {names : List String} {m : Machine ι}

/-- Whatever keeps a module from loading, the error says that it failed to load. -/
theorem kind_of_load {err : LinkError} (h : (e.load name m).1 = .error err) :
    err.kind = .loadFailure name := by
  rw [load, loadModule_apply] at h
  rcases haccept : m.host.accept name with err' | ⟨w, items⟩ <;> rw [haccept] at h
  · cases h
    exact Host.kind_of_accept haccept
  dsimp only at h
  rcases hinst : w.instantiate e.calls items (m.requesting name) with ⟨failure | addr, m'⟩ <;>
    rw [hinst] at h <;> cases h
  rfl

/-- A module keeps the name that it was loaded by. -/
theorem name_of_load {loaded : LoadedModule ι} (h : (e.load name m).1 = .ok loaded) :
    loaded.name = name := by
  rw [load, loadModule_apply] at h
  rcases haccept : m.host.accept name with err' | ⟨w, items⟩ <;> rw [haccept] at h
  · cases h
  dsimp only at h
  rcases hinst : w.instantiate e.calls items (m.requesting name) with ⟨failure | addr, m'⟩ <;>
    rw [hinst] at h <;> cases h
  exact (m'.finishLoad_fst name addr).1

theorem names_of_startup {loaded : List (LoadedModule ι)} {m' : Machine ι}
    (h : e.startup names m = (.ok loaded, m')) : loaded.map LoadedModule.name = names := by
  induction names generalizing m loaded with
  | nil =>
      cases h
      rfl
  | cons name names ih =>
      obtain ⟨l, m₁, rest, hload, hrest, rfl⟩ := startup_cons_eq_ok h
      rw [List.map_cons, ih hrest, name_of_load (congrArg Prod.fst hload)]

end Engine

namespace Run

/-- Each run on the way has loaded the names up to some point, and its phase counts the others. -/
theorem of_mem_loadingRuns {e : Engine ι} {names : List String} {r s : Run ι}
    (hphase : r.phase = .loadingModules names.length) (hs : s ∈ loadingRuns e names r) :
    ∃ done rest, names = done ++ rest ∧ s.phase = .loadingModules rest.length
      ∧ s.modules.map LoadedModule.name = r.modules.map LoadedModule.name ++ done := by
  have here (r : Run ι) (names : List String) (h : r.phase = .loadingModules names.length) :
      ∃ done rest, names = done ++ rest ∧ r.phase = .loadingModules rest.length
        ∧ r.modules.map LoadedModule.name = r.modules.map LoadedModule.name ++ done :=
    ⟨[], names, rfl, h, (List.append_nil _).symm⟩
  induction names generalizing r with
  | nil =>
      rw [List.mem_singleton.1 hs]
      exact here r [] hphase
  | cons name names ih =>
      rcases List.mem_cons.1 hs with rfl | hs
      · exact here s _ hphase
      rw [loadStartupModule_apply] at hs
      rcases hload : e.load name r.machine with ⟨err | loaded, m⟩ <;> rw [hload] at hs
      · rw [List.mem_singleton.1 hs]
        exact here _ _ hphase
      obtain ⟨done, rest, rfl, hphase', hmodules⟩ := ih rfl hs
      refine ⟨name :: done, rest, rfl, hphase', ?_⟩
      rw [hmodules, List.map_append, List.append_assoc, List.map_singleton,
        Engine.name_of_load (congrArg Prod.fst hload)]
      rfl

/-- An entry point that is not accepted is missing or has the wrong type. -/
theorem kind_of_entryPoint {loaded : LoadedModule ι} {entry : String} {err : LinkError}
    (h : entryPoint loaded entry = .error err) :
    err.kind = .missingEntry loaded.name entry ∨ err.kind = .badEntrySignature loaded.name entry := by
  rw [entryPoint] at h
  split at h
  · cases h
    exact .inl rfl
  · split at h <;> cases h
    exact .inr rfl
  · cases h
    exact .inr rfl

/-- A main module that is not accepted does not load, or its entry point is not accepted. -/
theorem kind_of_prepareMain {e : Engine ι} {name : String} {m m' : Machine ι} {err : LinkError}
    (h : e.prepareMain name m = (.error err, m')) (state action : String) :
    err.kind ≠ .invalidState state action := by
  intro hstate
  rw [Engine.prepareMain_apply] at h
  rcases hload : e.load name m with ⟨err' | loaded, m₁⟩ <;> rw [hload] at h
  · cases h
    rw [Engine.kind_of_load (congrArg Prod.fst hload)] at hstate
    cases hstate
  dsimp only at h
  rcases hentry : entryPoint loaded m₁.host.config.entry with err' | f <;> rw [hentry] at h <;>
    cases h
  rcases kind_of_entryPoint hentry with hkind | hkind <;> rw [hkind] at hstate <;> cases hstate

end Run

end WasmHost
