import WasmHost.Proofs.Libc.Calls
import WasmHost.Proofs.Linking.Binding
import WasmHost.Proofs.Run.Steps

set_option autoImplicit false

/-! # How the modules of a program are linked

Startup modules are loaded from the last one listed to the first, and the exports of each are merged
before the next one is loaded. So each module is linked against those listed after it, and whatever
is loaded later against all of them. -/

namespace WasmHost

variable {ι : Type}

/-- Each of the modules is linked against those listed after it. -/
def LinkedInOrder (m : Machine ι) (libs : List (StubLibrary ι)) (modules : List (LoadedModule ι)) :
    Prop :=
  ∀ (i : Nat) (l : LoadedModule ι), modules[i]? = some l → l.LinkedIn m libs (modules.drop (i + 1))

theorem LinkedInOrder.nil (m : Machine ι) (libs : List (StubLibrary ι)) : LinkedInOrder m libs [] :=
  fun _ _ h => by cases h

theorem LinkedInOrder.cons {m : Machine ι} {libs : List (StubLibrary ι)} {l : LoadedModule ι}
    {modules : List (LoadedModule ι)} (hl : l.LinkedIn m libs modules)
    (h : LinkedInOrder m libs modules) : LinkedInOrder m libs (l :: modules) := by
  intro i l' hl'
  cases i with
  | zero =>
      cases hl'
      exact hl
  | succ i => exact h i l' hl'

theorem LinkedInOrder.of_extends {m m' : Machine ι} {libs : List (StubLibrary ι)}
    {modules : List (LoadedModule ι)} (h : LinkedInOrder m libs modules) (hm : m.Extends m') :
    LinkedInOrder m' libs modules :=
  fun i l hl => (h i l hl).of_extends hm

/-! ## Loading against some candidates -/

/-- What loading does from a machine on: a module that loads is linked against some candidates, now
    and ever after; a module with an import that cannot be resolved does not load. -/
structure Engine.LinksLoads (e : Engine ι) (libs : List (StubLibrary ι))
    (candidates : List (LoadedModule ι)) (m : Machine ι) : Prop where
  linked {depth : Nat} {name : String} {loaded : LoadedModule ι} {m' : Machine ι}
    (h : loadModule (e.invoke depth) name m = (.ok loaded, m')) :
    loaded.name = name ∧ ∀ m'', m'.Extends m'' → loaded.LinkedIn m'' libs candidates
  opened {depth : Nat} {name : String} {flags : DlFlags} {handle : UInt32} {m' : Machine ι}
    (hnew : m.host.libraries.retain name = none)
    (h : openLibrary (loadModule (e.invoke depth)) name flags m = (.ok handle, m')) :
    ∃ lib, m'.host.libraries.library? handle = some lib ∧ lib.loaded.name = name
      ∧ ∀ m'', m'.Extends m'' → lib.loaded.LinkedIn m'' libs candidates
  unresolved {depth : Nat} {name : String} {object : ModuleObject} {w : WasmModule} {imp : Import}
    {field : String} {type : FuncType} (hsource : m.host.source name = .ok object)
    (hparse : object.parse name = .ok w) (himp : imp ∈ w.imports)
    (hfunc : imp.func? = some (field, type)) (hnone : linked? libs candidates field type = none) :
    ∃ related, (loadModule (e.invoke depth) name m).1 = .error (.mk (.loadFailure name) related)
      ∧ imp.unresolved ∈ related
  /-- A library that does not load is not opened, for the same reason. -/
  not_opened {depth : Nat} {name : String} {flags : DlFlags} {err : LinkError}
    (hnew : m.host.libraries.retain name = none) (hflags : flags.isSupported = true)
    (h : (loadModule (e.invoke depth) name m).1 = .error err) :
    (openLibrary (loadModule (e.invoke depth)) name flags m).1 = .error err

namespace Engine

variable {e : Engine ι} {libs : List (StubLibrary ι)} {candidates : List (LoadedModule ι)}

theorem linksLoads_of_links (he : e.stubs.Lawful) {m : Machine ι}
    (henv : m.host.env.Links libs candidates) : e.LinksLoads libs candidates m where
  linked h := by
    obtain ⟨hname, -, hlinked⟩ := loadModule_linked he henv h
    exact ⟨hname, fun _ hm => hlinked.of_extends hm⟩
  opened {depth name flags handle m'} hnew h := by
    rw [openLibrary_apply, hnew] at h
    dsimp only at h
    split at h
    · rcases hload : loadModule (e.invoke depth) name m with ⟨err | loaded, m₁⟩ <;>
        rw [hload] at h
      · cases h
      · obtain ⟨hname, -, hlinked⟩ := loadModule_linked he henv hload
        cases h
        have hnew : (m₁.host.libraries.insert name loaded).2.library?
            (m₁.host.libraries.insert name loaded).1 = some ⟨name, loaded, 1⟩ := by
          rw [LibraryTable.insert, LibraryTable.library?, Assoc.get?_insert, if_pos rfl]
        exact ⟨_, hnew, hname, fun _ hm => hlinked.of_extends ⟨hm.env, hm.source, hm.instances⟩⟩
    · cases h
  unresolved hsource hparse himp hfunc hnone :=
    loadModule_unresolved henv hsource hparse himp hfunc hnone
  not_opened {depth name _ _} hnew hflags h := by
    rw [openLibrary_apply, hnew]
    simp only [hflags, if_true]
    rcases hload : loadModule (e.invoke depth) name m with ⟨err | loaded, m₁⟩ <;>
      rw [hload] at h <;> cases h
    rfl

/-- **Startup modules are linked in order.** What is loaded first is listed last. -/
theorem startup_linked (he : e.stubs.Lawful) {names : List String} {m m' : Machine ι}
    {loaded : List (LoadedModule ι)} (henv : m.host.env.Links libs candidates)
    (horder : LinkedInOrder m libs candidates) (h : e.startup names m = (.ok loaded, m')) :
    loaded.map LoadedModule.name = names
      ∧ m'.host.env.Links libs (loaded.reverse ++ candidates)
      ∧ LinkedInOrder m' libs (loaded.reverse ++ candidates) := by
  induction names generalizing m m' loaded candidates with
  | nil =>
      cases h
      exact ⟨rfl, henv, horder⟩
  | cons name names ih =>
      obtain ⟨l, m₁, rest, hload, hrest, rfl⟩ := startup_cons_eq_ok h
      obtain ⟨hname, hnodup, hlinked⟩ := loadModule_linked he henv hload
      have hkeeps := loadModule_extends he e.callDepth name m
      rw [show loadModule (e.invoke e.callDepth) name m = _ from hload] at hkeeps
      -- the load leaves the environment alone; merging puts the module in front of the others
      have hmerged := (henv : m.host.env.Links libs candidates).addExports hnodup
      rw [← hkeeps.env] at hmerged
      have horder₁ : LinkedInOrder m₁ libs (l :: candidates) :=
        .cons hlinked (horder.of_extends hkeeps)
      have horder₂ : LinkedInOrder (m₁.merging l) libs (l :: candidates) := horder₁
      obtain ⟨hnames, henv', hall⟩ := ih hmerged horder₂ hrest
      rw [List.reverse_cons, List.append_assoc]
      exact ⟨by rw [List.map_cons, hnames, hname], henv', hall⟩

/-- Startup ends with the first module that does not load. -/
theorem startup_of_error {names : List String} {m m' : Machine ι} {loaded : List (LoadedModule ι)}
    {name : String} {err : LinkError} (h : e.startup names m = (.ok loaded, m'))
    (herr : (e.load name m').1 = .error err) (more : List String) :
    (e.startup (names ++ name :: more) m).1 = .error err := by
  induction names generalizing m loaded with
  | nil =>
      cases h
      rcases hload : e.load name m' with ⟨err' | l, m₁⟩ <;> rw [hload] at herr
      · cases herr
        rw [List.nil_append, startup_cons, hload]
      · cases herr
  | cons first names ih =>
      obtain ⟨l, m₁, rest, hload, hrest, rfl⟩ := startup_cons_eq_ok h
      rw [List.cons_append, startup_cons, hload]
      dsimp only
      rw [ih hrest]
      rfl

end Engine

/-! ## The startup modules of a run -/

/-- How the modules of a run are linked, `r₀` being the run before its startup modules are loaded
    and `r` after. `r` has them in the order of loading, which is the reverse of the order in which
    they are listed. -/
structure Run.Linkage (e : Engine ι) (libs : List (StubLibrary ι)) (names : List String)
    (r₀ r : Run ι) : Prop where
  names_eq : r.modules.reverse.map LoadedModule.name = names
  /-- Each startup module is linked against those listed after it, and this is never changed. -/
  startup (m : Machine ι) (hm : r.machine.Extends m) : LinkedInOrder m libs r.modules.reverse
  /-- A startup module with an import that cannot be resolved does not load. -/
  startup_unresolved (earlier : List String) (name : String) {object : ModuleObject}
    {w : WasmModule} {imp : Import} {field : String} {type : FuncType}
    (hsource : r.machine.host.source name = .ok object) (hparse : object.parse name = .ok w)
    (himp : imp ∈ w.imports) (hfunc : imp.func? = some (field, type))
    (hnone : linked? libs r.modules.reverse field type = none) :
    ∃ related, (Run.loadModules e (earlier ++ name :: names) r₀).1
        = .error (.mk (.loadFailure name) related) ∧ imp.unresolved ∈ related
  /-- Whatever is loaded later, is linked against all startup modules. -/
  later (m : Machine ι) (hm : r.machine.Extends m) : e.LinksLoads libs r.modules.reverse m
  /-- So is the main module. -/
  main {name : String} {r' : Run ι} (h : Run.loadMain e name r = (.ok (), r')) :
    r.machine.Extends r'.machine ∧ ∃ loaded f, r'.main = some (loaded, f) ∧ loaded.name = name
      ∧ ∀ m, r'.machine.Extends m → loaded.LinkedIn m libs r.modules.reverse
  /-- If the main module does not load, the run ends for the same reason. -/
  main_not_loaded {name : String} {err : LinkError} (h : (e.load name r.machine).1 = .error err) :
    (Run.loadMain e name r).1 = .error err
  /-- Whatever is called, leaves an extension and finds one when it comes to a stub. -/
  calls (m : Machine ι) (hm : r.machine.Extends m) (depth : Nat) (exports : List (String × Item ι))
    (f : Func ι) (args : List Value) :
    r.machine.Extends (e.invoke depth exports f args m).2
      ∧ ∀ v ∈ e.stubVisits depth exports f args m, r.machine.Extends v
  /-- Whatever is loaded, leaves an extension and finds one when it comes to a stub. -/
  loads (m : Machine ι) (hm : r.machine.Extends m) (depth : Nat) (name : String) :
    r.machine.Extends (loadModule (e.invoke depth) name m).2
      ∧ ∀ v ∈ recordLoad (e.stubVisits depth) name m, r.machine.Extends v
  /-- An import that is linked to a placeholder is not implemented. -/
  placeholder (m : Machine ι) (depth : Nat) (exports : List (String × Item ι)) (name : String)
    (type : FuncType) (args : List Value) :
    e.invoke (depth + 1) exports (.stub name .placeholder type) args m
      = (.error (.ofFault (.unimplemented name)), m)

namespace Run

variable {e : Engine ι} {libs : List (StubLibrary ι)} {names : List String} {r₀ r : Run ι}

/-- A module that does not load after those listed behind it ends the loading of modules. -/
theorem loadModules_of_error {loaded : List (LoadedModule ι)} {m : Machine ι} {name : String}
    {err : LinkError} (hphase : r₀.phase = .loadingStubs)
    (hstartup : e.startup names.reverse r₀.machine = (.ok loaded, m))
    (herr : (e.load name m).1 = .error err) (earlier : List String) :
    (loadModules e (earlier ++ name :: names) r₀).1 = .error err := by
  obtain ⟨r', hr', -, -⟩ := loadModules_apply e (earlier ++ name :: names) hphase
  rw [hr', List.reverse_append, List.reverse_cons, List.append_assoc, List.singleton_append,
    e.startup_of_error hstartup herr]
  rfl

theorem linkage_of_links (he : e.stubs.Lawful) (hphase : r₀.phase = .loadingStubs)
    (hmodules : r₀.modules = []) (henv : r₀.machine.host.env.Links libs [])
    (hload : loadModules e names r₀ = (.ok (), r)) : Linkage e libs names r₀ r := by
  obtain ⟨r', hr', hmachine, hok⟩ := loadModules_apply e names hphase
  rw [hload] at hr'
  rcases hstartup : e.startup names.reverse r₀.machine with ⟨err | loaded, m₁⟩ <;>
    rw [hstartup] at hr' hmachine hok <;> cases hr'
  obtain ⟨hloaded, hphase'⟩ := hok loaded rfl
  obtain ⟨hnames, hlinks, horder⟩ := e.startup_linked he henv (.nil _ _) hstartup
  rw [hmodules, List.nil_append] at hloaded
  rw [List.append_nil] at hlinks horder
  rw [← hloaded] at hnames hlinks horder
  dsimp only at hmachine
  rw [← hmachine] at hlinks horder
  have hlater (m : Machine ι) (hm : r.machine.Extends m) :
      e.LinksLoads libs r.modules.reverse m :=
    e.linksLoads_of_links he (hm.env.symm ▸ hlinks)
  exact
    { names_eq := by rw [List.map_reverse, hnames, List.reverse_reverse]
      startup := fun m hm => horder.of_extends hm
      startup_unresolved := fun earlier name object w imp field type hobject hparse himp hfunc
          hnone => by
        have hload : ∃ related,
            (e.load name r.machine).1 = .error (.mk (.loadFailure name) related)
              ∧ imp.unresolved ∈ related :=
          (hlater r.machine (refl_of _ _)).unresolved hobject hparse himp hfunc hnone
        obtain ⟨related, herr, hmem⟩ := hload
        rw [hmachine] at herr
        exact ⟨related, loadModules_of_error hphase hstartup herr earlier, hmem⟩
      later := hlater
      main := fun {name r'} hmain => by
        obtain ⟨l, f, hmod, hfound⟩ := loadMain_eq_ok (.inr hphase') hmain
        have hkeeps := Engine.loadModule_extends he e.callDepth name r.machine
        rw [show loadModule (e.invoke e.callDepth) name r.machine = _ from hmod] at hkeeps
        obtain ⟨hname, hlinked⟩ := (hlater r.machine (refl_of _ _)).linked hmod
        exact ⟨hkeeps, l, f, hfound, hname, hlinked⟩
      main_not_loaded := fun {name err} herr => by
        rw [loadMain_apply e name (.inr hphase'), Engine.prepareMain, bind_apply]
        rcases hload : e.load name r.machine with ⟨err' | l, m⟩ <;> rw [hload] at herr <;>
          cases herr
        rfl
      calls := fun m hm depth exports f args =>
        ⟨hm.trans (Engine.invoke_visits he depth exports f args m).1, fun v hv =>
          hm.trans ((Engine.invoke_visits he depth exports f args m).2 v hv)⟩
      loads := fun m hm depth name =>
        ⟨hm.trans (loadModule_visits (Engine.invoke_visits he depth) name m).1, fun v hv =>
          hm.trans ((loadModule_visits (Engine.invoke_visits he depth) name m).2 v hv)⟩
      placeholder := fun _ _ _ _ _ _ => rfl }

/-- **Imports are linked as listed.** If the names in each library are unique and the startup
    modules load, every module of the run is linked to the first module listed after it that exports
    a function of that name, or else to the last library that has a stub of that name. -/
theorem loadModules_linkage (he : e.stubs.Lawful)
    (hlibs : ∀ lib ∈ libs, (lib.entries.map Prod.fst).Nodup)
    {config : Config} {source : ModuleSource ModuleObject} {sink : Sink} {start : Run ι}
    (hstart : Run.start config source sink = .ok start)
    (hstubs : addStubs libs start = (.ok (), r₀)) (hload : loadModules e names r₀ = (.ok (), r)) :
    Linkage e libs names r₀ r := by
  rw [start_eq] at hstart
  split at hstart <;> cases hstart
  rw [addStubs_apply libs rfl] at hstubs
  cases hstubs
  exact linkage_of_links he rfl rfl (Environment.links_flatten hlibs) hload

/-- Two libraries, the first of them without implementations. -/
def linkageLibraries : List (StubLibrary Libc.Function) :=
  [⟨"missing", [("abs", .placeholder), ("length", .placeholder)]⟩,
    ⟨"present", [("abs", .implemented (.word .abs))]⟩]

/-- Two startup modules: `first` imports `length`, which `second` exports, and `abs`. -/
def linkageSource : ModuleSource ModuleObject := fun name =>
  if name = "first" then
    .ok (.parsed { WasmModule.empty with
      imports := [⟨"env", "length", .func ⟨[], [.i32]⟩⟩, ⟨"env", "abs", .func ⟨[.i32], [.i32]⟩⟩] })
  else
    .ok (.parsed { WasmModule.empty with
      funcs := [⟨⟨[], [.i32]⟩, [], [.const (.i32 7)]⟩]
      exports := [⟨"length", .func, 0⟩] })

/-- The two modules load against the two libraries, and are linked. -/
theorem loadModules_linkage_two :
    let start : Run Libc.Function :=
      ⟨.initial .default linkageSource .accepting, .initializing, [], none⟩
    let r₀ := (addStubs linkageLibraries start).2
    ∃ r, loadModules Libc.engine ["first", "second"] r₀ = (.ok (), r)
      ∧ Linkage Libc.engine linkageLibraries ["first", "second"] r₀ r := by
  intro start r₀
  have hok : (loadModules Libc.engine ["first", "second"] r₀).1.toOption = some () := by
    decide +kernel
  rcases hload : loadModules Libc.engine ["first", "second"] r₀ with ⟨err | _, r⟩ <;>
    rw [hload] at hok
  · cases hok
  have hstart : Run.start .default linkageSource .accepting = .ok start := by
    rw [Run.start_eq, if_pos (by decide)]
  have hstubs : addStubs linkageLibraries start = (.ok (), r₀) :=
    Prod.ext (congrArg Prod.fst (addStubs_apply linkageLibraries rfl)) rfl
  exact ⟨r, rfl, loadModules_linkage Libc.stubs_lawful (by decide) hstart hstubs hload⟩

end Run

end WasmHost
