import WasmHost.Proofs.Libc.Dynamic
import WasmHost.Proofs.Libc.Faults
import WasmHost.Proofs.Libc.Layout
import WasmHost.Proofs.Linking.Binding

set_option autoImplicit false

/-! # What the replies of the dynamic loader tell

A reply of zero can tell that opening a library has failed because no library has the handle zero
(`LibraryTable.ZeroFree`). A pointer to a function is told by its slot because the tables that
instances export are there (`Machine.TablesExist`). Both are invariants of runs.

The main result is `Libc.replies_tell`: at every moment of a run, what `dlopen`, `dlclose` and
`dlsym` reply to the code of any instance. -/

namespace WasmHost

open WasmHost.Action

variable {ι : Type}

/-! ## Handles -/

namespace LibraryTable

variable {t t' : LibraryTable ι} {handle : UInt32}

/-- No library is open under the handle zero. -/
def ZeroFree (t : LibraryTable ι) : Prop := t.library? 0 = none

theorem ZeroFree.ne_zero (ht : t.ZeroFree) {lib : OpenLibrary ι}
    (h : t.library? handle = some lib) : handle ≠ 0 := by
  rintro rfl
  cases ht.symm.trans h

theorem ZeroFree.replace (ht : t.ZeroFree) (h : handle ≠ 0) (lib : OpenLibrary ι) :
    ZeroFree { t with libraries := t.libraries.insert handle lib } := by
  rw [ZeroFree, library?, Assoc.get?_insert, if_neg h]
  exact ht

theorem ZeroFree.recount (ht : t.ZeroFree) (h : handle ≠ 0) (lib : OpenLibrary ι) (count : Nat) :
    (t.recount handle lib count).ZeroFree := by
  rw [LibraryTable.recount]
  split
  · rw [ZeroFree, library?, Assoc.get?_erase, if_neg h]
    exact ht
  · exact ht.replace h _

theorem ZeroFree.served (ht : t.ZeroFree) (h : Served t t') : t'.ZeroFree := by
  induction h with
  | refl => exact ht
  | setError _ err ih => exact ih
  | takeError _ ih => exact ih
  | retain _ hretain ih =>
      obtain ⟨lib, -, hlib, rfl⟩ := retain_eq_some hretain
      exact ih.replace (ih.ne_zero hlib) _
  | @close t' _ _ handle _ hclose ih =>
      rcases hlib : t'.library? handle with _ | lib
      · cases (close_of_closed hlib).symm.trans hclose
      · cases (close_of_open hlib).symm.trans hclose
        exact ih.recount (ih.ne_zero hlib) lib _

/-- Handles start over at 1 when there are none left. -/
theorem nextHandle_ne_zero (t : LibraryTable ι) : t.nextHandle ≠ 0 := by
  rw [nextHandle]
  split
  · decide
  · assumption

theorem ZeroFree.insert (ht : t.ZeroFree) (name : String) (loaded : LoadedModule ι) :
    (t.insert name loaded).2.ZeroFree := by
  rw [ZeroFree, LibraryTable.insert, library?, Assoc.get?_insert, if_neg t.nextHandle_ne_zero]
  exact ht

end LibraryTable

/-! ## Tables of functions -/

/-- No table can be imported. -/
theorem Host.bindImports_tables {host : Host ι} {name : String} {imports : List Import}
    {items : List (Item ι)} (h : host.bindImports name imports = .ok items) :
    items.filterMap Item.table? = [] := by
  have htable (imp : Import) (item : Item ι) (h : host.resolveImport imp = .ok item) :
      item.table? = none := by
    obtain ⟨-, -, func, -, -, -, rfl⟩ | ⟨-, addr, -, -, rfl⟩ := resolveImport_eq_ok h <;> rfl
  rw [bindImports_filterMap htable h, List.filterMap_none]

namespace Machine

/-- The tables that instances export are in the store. -/
def TablesExist (m : Machine ι) : Prop :=
  ∀ inst ∈ m.store.instances, ∀ name addr, (name, .table addr) ∈ inst.exports →
    addr < m.store.tables.size

/-- A new instance exports only tables of its own. -/
theorem TablesExist.allocating {m : Machine ι} (hm : m.TablesExist) {w : WasmModule}
    {items : List (Item ι)} (hitems : items.filterMap Item.table? = []) :
    (m.allocating w items).TablesExist := by
  have hsize : (m.allocating w items).store.tables.size
      = m.store.tables.size + w.tables.length := by
    show (m.store.tables ++ (w.tables.map TableInstance.new).toArray).size = _
    simp only [Array.size_append, List.size_toArray, List.length_map]
  intro inst hinst name addr hexport
  rw [hsize]
  rcases Array.mem_push.1 hinst with hinst | rfl
  · exact Nat.lt_add_right _ (hm inst hinst name addr hexport)
  · obtain ⟨ex, -, hitem⟩ := WasmModule.mem_exports_newInstance hexport
    rw [← Instance.kind_of_item? hitem] at hitem
    obtain ⟨addr', haddr, heq⟩ := Option.map_eq_some_iff.1 hitem
    cases heq
    have hmem : addr ∈ List.range' m.store.tables.size w.tables.length := by
      have htables : (w.newInstance m.store items).tables
          = items.filterMap Item.table? ++ List.range' m.store.tables.size w.tables.length := rfl
      rw [htables, hitems, List.nil_append] at haddr
      exact List.mem_of_getElem? haddr
    exact (List.mem_range'_1.1 hmem).2

/-- The function table of a caller is in the store. -/
theorem TablesExist.functionTable_lt {m : Machine ι} (hm : m.TablesExist) {owner addr : Nat}
    {load : String → Action ι LinkError (LoadedModule ι)}
    (h : Caller.functionTable? ⟨(m.store.instanceAt owner).exports, load⟩ = some addr) :
    addr < m.store.tables.size := by
  obtain ⟨item, hitem, haddr⟩ := Option.bind_eq_some_iff.1 h
  obtain ⟨⟨name, item⟩, hfind, rfl⟩ := Option.map_eq_some_iff.1 hitem
  have hexport := List.mem_of_find?_eq_some hfind
  cases item <;> cases haddr
  rw [Store.instanceAt, Array.getD_eq_getD_getElem?] at hexport
  rcases hinst : m.store.instances[owner]? with _ | inst <;> rw [hinst] at hexport
  · cases hexport
  · exact hm inst (Array.mem_of_getElem? hinst) name addr hexport

end Machine

namespace Libc

theorem preserves_tablesExist [Budget] :
    engine.Preserves loads (fun _ => True) Machine.TablesExist := by
  refine preserves_of_layout (fun m m' hlayout hm => ?_) (fun l _ w items haccept hm => ?_)
    (fun l _ w items _ _ m _ _ hm => ?_)
  · rw [Machine.TablesExist, hlayout.instances, hlayout.tables]
    exact hm
  · obtain ⟨object, -, -, hitems⟩ := Host.accept_eq_ok haccept
    exact hm.allocating (Host.bindImports_tables hitems)
  · obtain ⟨arena, h⟩ := m.finishLoad_eq l.name l.before.store.instances.size
    rw [h]
    exact hm

end Libc

/-! ## Loads that leave the library table alone -/

/-- Whether the stub is a function of the dynamic loader. -/
def Stub.isDynamic : Stub Libc.Function → Bool
  | .implemented (.word f) => f.isDynamic
  | _ => false

namespace Libc

/-- A run leaves the library table alone if it calls no function of the dynamic loader. -/
def ShelfTrace : Trace Function (StubCall Function) := fun m cs _ m' =>
  (∀ c ∈ flattenAll cs, c.stub.isDynamic = false) → m.Shelves m'

theorem ShelfTrace.steady : ShelfTrace.Steady where
  calm _ h _ := h.libraries
  append h h' hcalls := by
    obtain ⟨hcs, hds⟩ := forall_flattenAll_append.1 hcalls
    exact trans_of Machine.Shelves (h hcs) (h' hds)

theorem ShelfTrace.stubs [Budget] : engine.TracesStubs loads ShelfTrace := by
  intro c _ _ hcalls
  have hstub := (forall_flattenAll_singleton.1 hcalls).2
  obtain ⟨name, stub, type, exports, depth, args, m, inner⟩ := c
  rcases stub with f | _
  · rw [StubCall.run, callStub_machine]
    rcases f with f | _ | f
    · exact refl_of Machine.Shelves m
    · exact refl_of Machine.Shelves m
    · exact f.call_shelves hstub _ _ m
  · exact refl_of Machine.Shelves m

/-- **A load leaves the library table alone** if its start function calls no function of the dynamic
    loader. -/
theorem load_shelves [Budget] {l : ModuleLoad Function}
    (h : ∀ c ∈ flattenAll (l.record engine loads), c.stub.isDynamic = false) :
    l.before.Shelves (l.run engine).2 := by
  obtain ⟨failure, htrace, -⟩ := (Engine.loadModule_traces ShelfTrace.steady.sequential
    ShelfTrace.stubs l.depth l.name l.before).trace ShelfTrace.steady
  exact htrace h

/-! ## Replies -/

/-- The load that `dlopen` makes, if it makes one. -/
def loadOfOpen? (depth : Nat) (filename flags : UInt32) (m : Machine Function) :
    Option (ModuleLoad Function) :=
  (loadedByOpen? filename flags m).map fun name => ⟨name, depth, m⟩

/-- The machine after that load. -/
def afterLoad [Budget] (depth : Nat) (filename flags : UInt32) (m : Machine Function) :
    Machine Function :=
  match loadOfOpen? depth filename flags m with
  | some l => (l.run engine).2
  | none => m

/-- What a reply of `dlopen` tells: zero is replied just if opening the library has failed. Apart
    from the calls of the start function of a module that is loaded, a success keeps the message of
    the latest failure. -/
structure OpenTells [Budget] (depth : Nat) (filename flags : UInt32) (m m' : Machine Function)
    (reply : UInt32) : Prop where
  tells : ∃ name, textOf m filename = .ok name
    ∧ (afterLoad depth filename flags m).Tells m'
        (fun err => (openLibrary (loadModule (engine.invoke depth)) name ⟨flags⟩ m).1 = .error err)
        0 reply
  undisturbed (h : ∀ l ∈ loadOfOpen? depth filename flags m,
      ∀ c ∈ flattenAll (l.record engine loads), c.stub.isDynamic = false) :
    (afterLoad depth filename flags m).pendingError = m.pendingError

theorem afterLoad_pendingError [Budget] {depth : Nat} {filename flags : UInt32} {m : Machine Function}
    (h : ∀ l ∈ loadOfOpen? depth filename flags m,
      ∀ c ∈ flattenAll (l.record engine loads), c.stub.isDynamic = false) :
    (afterLoad depth filename flags m).pendingError = m.pendingError := by
  rw [afterLoad]
  rcases hload : loadOfOpen? depth filename flags m with _ | l
  · rfl
  · obtain ⟨name, -, rfl⟩ := Option.map_eq_some_iff.1 hload
    exact congrArg LibraryTable.pendingError (load_shelves (h _ hload))

/-- Opening a library gives a handle that is not zero, or an error. Apart from the load nothing
    happens to the message that is kept, and after an error nothing has happened at all. -/
theorem openLibrary_spec (load : String → Action ι LinkError (LoadedModule ι)) (name : String)
    (flags : DlFlags) {m : Machine ι} (hzero : m.host.libraries.ZeroFree) :
    let before := if (m.host.libraries.retain name).isNone && flags.isSupported then (load name m).2
      else m
    match openLibrary load name flags m with
    | (.ok handle, m') => handle ≠ 0 ∧ m'.pendingError = before.pendingError
    | (.error _, m') => m' = before := by
  rw [openLibrary_apply]
  rcases hretain : m.host.libraries.retain name with _ | ⟨handle, t⟩
  · by_cases hflags : flags.isSupported = true
    · simp only [hflags, Option.isNone_none, Bool.true_and, if_true]
      rcases load name m with ⟨err | loaded, m₁⟩
      · rfl
      · exact ⟨LibraryTable.nextHandle_ne_zero _, rfl⟩
    · simp only [hflags, Bool.and_false, Bool.false_eq_true, if_false]
  · obtain ⟨lib, -, hlib, rfl⟩ := LibraryTable.retain_eq_some hretain
    exact ⟨hzero.ne_zero hlib, rfl⟩

/-- **Opening** gives back zero just if it fails. -/
theorem dlopen_tells [Budget] {exports : List (String × Item Function)} {depth : Nat}
    {filename flags reply : UInt32} {m m' : Machine Function} (hzero : m.host.libraries.ZeroFree)
    (h : dlopen ⟨exports, loadModule (engine.invoke depth)⟩ filename flags m = (.ok reply, m')) :
    OpenTells depth filename flags m m' reply := by
  refine ⟨?_, afterLoad_pendingError⟩
  rw [dlopen_apply] at h
  split at h
  · cases h
  rename_i hfilename
  rcases htext : textOf m filename with failure | name <;> rw [htext] at h
  · cases h
  dsimp only at h
  have hafter : afterLoad depth filename flags m
      = if (m.host.libraries.retain name).isNone && DlFlags.isSupported ⟨flags⟩ then
          (loadModule (engine.invoke depth) name m).2 else m := by
    rw [afterLoad, loadOfOpen?, loadedByOpen?, if_neg hfilename, htext]
    dsimp only
    by_cases hloads :
        ((m.host.libraries.retain name).isNone && DlFlags.isSupported ⟨flags⟩) = true
    · rw [if_pos hloads, if_pos hloads]
      rfl
    · rw [if_neg hloads, if_neg hloads]
      rfl
  have hopen := openLibrary_spec (loadModule (engine.invoke depth)) name ⟨flags⟩ hzero
  dsimp only at hopen
  rw [← hafter] at hopen
  refine ⟨name, rfl, ?_⟩
  rcases hresult : openLibrary (loadModule (engine.invoke depth)) name ⟨flags⟩ m
    with ⟨err | handle, m₁⟩ <;> rw [hresult] at h hopen <;> cases h
  · refine ⟨⟨fun _ => ⟨err, rfl⟩, fun _ => rfl⟩, ?_, fun h => absurd ⟨err, rfl⟩ h⟩
    rintro _ ⟨⟩
    rw [← hopen]
    rfl
  · refine ⟨⟨fun h => absurd h hopen.1, ?_⟩, ?_, fun _ => hopen.2⟩
    · rintro ⟨_, ⟨⟩⟩
    · rintro _ ⟨⟩

/-- What a reply of `dlsym` tells to a caller: zero is replied if there is no symbol of the name, and
    the reply to a request for a function tells where the function is. -/
structure SymbolTells (caller : Caller ι) (handle : UInt32) (name : String) (m m' : Machine ι)
    (reply : UInt32) : Prop where
  notFound (err : LinkError) (h : m.host.libraries.NotFound handle name err) :
    reply = 0 ∧ m' = m.failing err
  function (f : Func ι) (h : m.host.libraries.Exports handle name (.func f)) :
    ∃ addr, caller.functionTable? = some addr
      ∧ m.PointsTo m' addr (m.store.tableAt addr) name f reply
  global (addr : Nat) (h : m.host.libraries.Exports handle name (.global addr)) :
    reply = integerOf (m.store.globalAt addr) ∧ m' = m

/-- **Looking up a symbol.** -/
theorem dlsym_tells {caller : Caller ι} {handle symbol reply : UInt32} {m m' : Machine ι}
    (htable : ∀ addr, caller.functionTable? = some addr → addr < m.store.tables.size)
    (h : dlsym caller handle symbol m = (.ok reply, m')) :
    ∃ name, textOf m symbol = .ok name ∧ SymbolTells caller handle name m m' reply := by
  rw [dlsym_apply] at h
  rcases htext : textOf m symbol with failure | name <;> rw [htext] at h
  · cases h
  dsimp only at h
  refine ⟨name, rfl, fun err hfound => ?_, fun f hf => ?_, fun addr hglobal => ?_⟩
  · rw [symbolNamed_of_notFound hfound] at h
    cases h
    exact ⟨rfl, rfl⟩
  · rw [symbolNamed_of_function hf] at h
    rcases hcaller : caller.functionTable? with _ | addr
    · rw [functionPointer_of_no_table hcaller] at h
      cases h
    · obtain ⟨reply', m'', hpointer, hpoints⟩ :=
        functionPointer_pointsTo name f hcaller (htable addr hcaller)
      cases hpointer.symm.trans h
      exact ⟨addr, rfl, hpoints⟩
  · rw [symbolNamed_of_global hglobal] at h
    cases h
    exact ⟨rfl, rfl⟩

/-! ## Runs -/

/-- At every moment of a run no library has the handle zero and the tables that instances export are
    there. -/
theorem sound_of_moment [Budget] {config : Config} {source : ModuleSource ModuleObject}
    {sink : Sink} {start : Run Function} (hstart : Run.start config source sink = .ok start)
    {requests : List (Run.Request Function)} {m : Machine Function}
    (hm : Run.Moment engine loads requests start m) :
    m.host.libraries.ZeroFree ∧ m.TablesExist := by
  have hinitial : start.machine.host.libraries.ZeroFree ∧ start.machine.TablesExist := by
    cases Run.start_eq_ok hstart
    exact ⟨rfl, fun inst hinst => absurd hinst (Array.not_mem_empty inst)⟩
  have hzero : engine.Preserves loads (fun _ => True) fun m => m.host.libraries.ZeroFree :=
    preserves_of_libraries (fun _ _ h ht => ht.served h) fun _ name loaded ht => ht.insert name loaded
  exact ⟨hm.invariant stubs_lawful hzero (fun _ _ => trivial) hinitial.1,
    hm.invariant stubs_lawful preserves_tablesExist (fun _ _ => trivial) hinitial.2⟩

/-- **The replies of the dynamic loader.** At every moment of a run, for code of any instance and
    for all arguments: `dlopen` replies zero just if opening has failed, `dlclose` replies -1 just if
    the handle is not in use, and `dlsym` replies zero for what no library exports and what has no
    address. A pointer to a function is zero if it could not be stored, but also if it is stored in
    slot zero of the caller's table or in a slot whose number is no positive 32-bit integer. Every
    failure keeps its message, and a success leaves the message that is kept. -/
theorem replies_tell [Budget] {config : Config} {source : ModuleSource ModuleObject} {sink : Sink}
    {start : Run Function} (hstart : Run.start config source sink = .ok start)
    (requests : List (Run.Request Function)) {m : Machine Function}
    (hm : Run.Moment engine loads requests start m) (owner depth : Nat) (args : List Value) :
    let caller : Caller Function :=
      ⟨(m.store.instanceAt owner).exports, loadModule (engine.invoke depth)⟩
    (∀ reply m', engine.stubs (.word .dlopen) caller args m = (.ok reply, m') →
        ∃ handle, reply = .i32 handle
          ∧ OpenTells depth (Args.word args 0) (Args.word args 1) m m' handle)
      ∧ (∃ status m', engine.stubs (.word .dlclose) caller args m = (.ok (.i32 status), m')
          ∧ (status = 0 ∨ status = 0xffffffff)
          ∧ m.Tells m' (fun err => m.host.libraries.library? (Args.word args 0) = none
              ∧ err = LinkError.ofKind (.invalidHandle (Args.word args 0))) 0xffffffff status)
      ∧ ∀ reply m', engine.stubs (.word .dlsym) caller args m = (.ok reply, m') →
          ∃ address name, reply = .i32 address ∧ textOf m (Args.word args 1) = .ok name
            ∧ SymbolTells caller (Args.word args 0) name m m' address := by
  intro caller
  obtain ⟨hzero, htables⟩ := sound_of_moment hstart hm
  refine ⟨fun reply m' h => ?_, ?_, fun reply m' h => ?_⟩
  · rw [stubs_dlopen] at h
    rcases hrun : dlopen caller (Args.word args 0) (Args.word args 1) m with ⟨failure | handle, m₁⟩ <;>
      rw [hrun] at h <;> cases h
    exact ⟨handle, rfl, dlopen_tells hzero hrun⟩
  · obtain ⟨status, m', hrun, hstatus, htells⟩ := dlclose_tells (Args.word args 0) m
    have hstub : engine.stubs (.word .dlclose) caller args m = (.ok (.i32 status), m') := by
      rw [stubs_dlclose, hrun]
      rfl
    exact ⟨status, m', hstub, hstatus, htells⟩
  · rw [stubs_dlsym] at h
    rcases hrun : dlsym caller (Args.word args 0) (Args.word args 1) m with ⟨failure | address, m₁⟩ <;>
      rw [hrun] at h <;> cases h
    obtain ⟨name, htext, htells⟩ := dlsym_tells (fun _ => htables.functionTable_lt) hrun
    exact ⟨address, name, rfl, htext, htells⟩

/-- The functions of the dynamic loader that the sample program uses. -/
def loaderLibraries : List (StubLibrary Function) :=
  [⟨"sample",
    [("dlopen", .implemented (.word .dlopen)), ("dlsym", .implemented (.word .dlsym))]⟩]

/-- A main module that exports a function table without slots. It opens the library `lib` and returns
    a pointer to its function `f`. -/
def pointerProgram : WasmModule :=
  { WasmModule.empty with
    imports :=
      [⟨"env", "memory", .memory ⟨1, none⟩⟩, ⟨"env", "dlopen", .func ⟨[.i32, .i32], [.i32]⟩⟩,
        ⟨"env", "dlsym", .func ⟨[.i32, .i32], [.i32]⟩⟩]
    tables := [⟨0, none⟩]
    data := [⟨1024, [108, 105, 98, 0]⟩, ⟨1040, [102, 0]⟩]
    funcs :=
      [⟨⟨[], [.i32]⟩, [],
        [.const (.i32 1024), .const (.i32 2), .call 0, .const (.i32 1040), .call 1]⟩]
    exports := [⟨"main", .func, 2⟩, ⟨"__indirect_function_table", .table, 0⟩] }

/-- A library with a function `f`. -/
def functionLibrary : WasmModule :=
  { WasmModule.empty with
    funcs := [⟨⟨[], [.i32]⟩, [], [.const (.i32 7)]⟩]
    exports := [⟨"f", .func, 0⟩] }

/-- After the program has run, one handle is in use. -/
theorem replies_tell_closing :
    let start : Run Function :=
      ⟨.initial ⟨1, 16384, "main", []⟩ (twoModules pointerProgram functionLibrary) .accepting,
        .initializing, [], none⟩
    let requests : List (Run.Request Function) :=
      [.addStubs loaderLibraries, .loadModules [], .loadMain "main", .execute]
    ∃ m, Run.Moment engine loads requests start m
      ∧ let close (handle : UInt32) :=
          engine.stubs (.word .dlclose) ⟨(m.store.instanceAt 0).exports, loadModule engine.calls⟩
            [.i32 handle] m
        (∃ m', close 1 = (.ok (.i32 0), m'))
          ∧ ∃ m', close 2 = (.ok (.i32 0xffffffff), m')
            ∧ m'.pendingError = some "invalid library handle 2" := by
  intro start requests
  have hstart : Run.start ⟨1, 16384, "main", []⟩ (twoModules pointerProgram functionLibrary)
      .accepting = .ok start := by
    rw [Run.start_eq, if_pos (by decide)]
  have hopen : ((Run.transcript engine requests start).any fun ev =>
      (ev.after.machine.host.libraries.library? 1).isSome
        && (ev.after.machine.host.libraries.library? 2).isNone) = true := by
    decide +kernel
  obtain ⟨ev, hev, hopen⟩ := List.any_eq_true.1 hopen
  obtain ⟨hfirst, hsecond⟩ := Bool.and_eq_true_iff.1 hopen
  obtain ⟨lib, hlib⟩ := Option.isSome_iff_exists.1 hfirst
  have hclosed := Option.isNone_iff_eq_none.1 hsecond
  have hm : Run.Moment engine loads requests start ev.after.machine := .answered ev hev
  have htells (handle : UInt32) :=
    (replies_tell hstart requests hm 0 engine.callDepth [.i32 handle]).2.1
  refine ⟨ev.after.machine, hm, ?_, ?_⟩
  · obtain ⟨status, m', hrun, hstatus | hstatus, htold⟩ := htells 1
    · rw [hstatus] at hrun
      exact ⟨m', hrun⟩
    · obtain ⟨err, hnone, -⟩ := htold.told.1 hstatus
      cases hlib.symm.trans hnone
  · obtain ⟨status, m', hrun, -, htold⟩ := htells 2
    have hstatus := htold.told.2 ⟨_, hclosed, rfl⟩
    rw [hstatus] at hrun
    refine ⟨m', hrun, ?_⟩
    rw [htold.failure _ ⟨hclosed, rfl⟩, Machine.pendingError_failing]
    decide

/-- A pointer to a function that has been stored is zero, and there is no failure. -/
theorem pointer_in_slot_zero :
    let start : Run Function :=
      ⟨.initial ⟨1, 16384, "main", []⟩ (twoModules pointerProgram functionLibrary) .accepting,
        .initializing, [], none⟩
    let requests : List (Run.Request Function) :=
      [.addStubs loaderLibraries, .loadModules [], .loadMain "main", .execute]
    ∃ c ∈ Run.callsOf engine loads requests start,
      c.stub = .implemented (.word .dlsym) ∧ c.args = [.i32 1, .i32 1040]
        ∧ textOf c.before 1040 = .ok "f" ∧ (c.run engine).1 = .ok [.i32 0]
        ∧ (c.run engine).2.pendingError = none
        ∧ ∃ f, c.before.host.libraries.Exports 1 "f" (.func f)
            ∧ Caller.functionTable? ⟨c.exports, loadModule (engine.invoke c.depth)⟩ = some 0
            ∧ (c.run engine).2.HasPointer 0 0 f := by
  intro start requests
  let caller (c : StubCall Function) : Caller Function :=
    ⟨c.exports, loadModule (engine.invoke c.depth)⟩
  -- the function is exported by the library, and the caller has an empty table that may grow
  have hcalls : ((Run.callsOf engine loads requests start).any fun c =>
      isCallOf (.word .dlsym) c
      && ((c.before.host.libraries.lookup 1 "f").toOption.bind Item.func?).isSome
      && (c.args, c.type, (textOf c.before 1040).toOption, c.before.pendingError)
        == ([.i32 1, .i32 1040], ⟨[.i32, .i32], [.i32]⟩, some "f", none)
      && ((caller c).functionTable?, c.before.store.tables.size,
          (c.before.store.tableAt 0).slots.size, (c.before.store.tableAt 0).max)
        == (some 0, 1, 0, none)) = true := by
    decide +kernel
  obtain ⟨c, hc, hfacts⟩ := List.any_eq_true.1 hcalls
  simp only [Bool.and_eq_true, beq_iff_eq, Prod.mk.injEq] at hfacts
  obtain ⟨⟨⟨hstub, hlookup⟩, hargs, htype, htext, hpending⟩, htable, hsize, hslots, hmax⟩ := hfacts
  have hstub := stub_of_isCallOf hstub
  have htext := ok_of_toOption htext
  obtain ⟨f, hf⟩ : ∃ f, c.before.host.libraries.Exports 1 "f" (.func f) := by
    obtain ⟨f, hf⟩ := Option.isSome_iff_exists.1 hlookup
    obtain ⟨item, hitem, hfunc⟩ := Option.bind_eq_some_iff.1 hf
    have hitem := ok_of_toOption hitem
    cases item with
    | func => exact ⟨_, LibraryTable.lookup_eq_ok_iff.1 hitem⟩
    | _ => cases hfunc
  obtain ⟨reply, m', hpointer, hpoints⟩ :=
    functionPointer_pointsTo (m := c.before) "f" f htable (by rw [hsize]; decide)
  have hstored : m'.HasPointer 0 (c.before.store.tableAt 0).slots.size f :=
    hpoints.stored.2 (by rw [hslots, hmax]; decide)
  have hrun : c.run engine = (.ok [.i32 reply], m') := by
    have hdlsym : dlsym (caller c) (Args.word c.args 0) (Args.word c.args 1) c.before
        = (.ok reply, m') := by
      have hhandle : Args.word c.args 0 = 1 := by rw [hargs]; rfl
      have hname : textOf c.before (Args.word c.args 1) = .ok "f" := by rw [hargs]; exact htext
      rw [dlsym_apply, hname, hhandle]
      exact (symbolNamed_of_function hf).trans hpointer
    have hcall : engine.stubs (.word .dlsym) (caller c) c.args c.before = (.ok (.i32 reply), m') := by
      rw [stubs_dlsym, hdlsym]
      rfl
    rw [StubCall.run, hstub, Engine.callStub, bind_pure_apply, hcall, htype]
    rfl
  have hreply : reply = 0 := hpoints.zero.2 (.inr (.inl hslots))
  refine ⟨c, hc, hstub, hargs, htext, ?_, ?_, f, hf, htable, ?_⟩
  · rw [hrun, hreply]
  · rw [hrun, (hpoints.success hstored (by rw [hslots]; decide)).2, hpending]
  · rw [hslots] at hstored
    rw [hrun]
    exact hstored

end Libc

end WasmHost
