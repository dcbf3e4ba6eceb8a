import WasmHost.Proofs.Libc.Faults
import WasmHost.Proofs.Libc.Layout
import WasmHost.Proofs.Linking.Binding

set_option autoImplicit false

/-! # One shared memory

The memory that is made at the start of a run is the active memory, and every import of a memory is
bound to the memory that is active at the time of the load. A module that exports a memory makes it
the active one; as long as modules export only memories that they import, it is the same memory
again, under a new handle.

The main result is `Libc.memory_shared`: at every moment of such a run the active memory is the
first one, and the code of every instance that imports a memory works on it. -/

namespace WasmHost

open WasmHost.Action

variable {ι : Type}

/-! ## Imports and exports of memories -/

/-- Every memory that the module exports is one that it imports. -/
def WasmModule.ExportsImportedMemories (w : WasmModule) : Prop :=
  ∀ ex ∈ w.exports, ex.kind = .memory → ex.index < w.importCount .memory

instance (w : WasmModule) : Decidable w.ExportsImportedMemories :=
  inferInstanceAs (Decidable (∀ ex ∈ w.exports, ex.kind = .memory → ex.index < _))

theorem Host.resolveImport_memory {host : Host ι} {addr : Nat}
    (hactive : host.arena.active = .ok addr) {imp : Import} {item : Item ι}
    (h : host.resolveImport imp = .ok item) :
    item.memory? = if imp.desc.kind == .memory then some addr else none := by
  obtain ⟨type, symbol, func, hdesc, -, -, rfl⟩ | ⟨limits, addr', hdesc, hactive', rfl⟩ :=
    resolveImport_eq_ok h
  · rw [hdesc]
    rfl
  · rw [hdesc]
    cases hactive.symm.trans hactive'
    rfl

/-- Every import of a memory is bound to the active memory. -/
theorem Host.bindImports_memories {host : Host ι} {addr : Nat}
    (hactive : host.arena.active = .ok addr) {name : String} {imports : List Import}
    {items : List (Item ι)} (h : host.bindImports name imports = .ok items) :
    items.filterMap Item.memory?
      = List.replicate (imports.countP fun i => i.desc.kind == .memory) addr := by
  rw [bindImports_filterMap (fun _ _ => resolveImport_memory hactive) h]
  clear h
  induction imports with
  | nil => rfl
  | cons imp imports ih =>
      rw [List.filterMap_cons, List.countP_cons, ih]
      by_cases hkind : (imp.desc.kind == .memory) = true
      · rw [if_pos hkind, if_pos hkind, List.replicate_succ]
      · rw [if_neg hkind, if_neg hkind, Nat.add_zero]

theorem mem_of_lastMemory? {exports : List (String × Item ι)} {addr : Nat}
    (h : lastMemory? exports = some addr) : ∃ name, (name, .memory addr) ∈ exports := by
  obtain ⟨⟨name, item⟩, hmem, haddr⟩ := List.exists_of_findSome?_eq_some h
  refine ⟨name, ?_⟩
  cases item with
  | memory => cases haddr; exact List.mem_reverse.1 hmem
  | _ => cases haddr

/-! ## Instances that share a memory -/

/-- The imported memories of the instance are all the one at `addr`. -/
def Instance.ImportsMemory (inst : Instance ι) (w : WasmModule) (addr : Nat) : Prop :=
  ∀ i < w.importCount .memory, inst.memories[i]? = some addr

/-- The load makes the instance. -/
def ModuleLoad.Makes (l : ModuleLoad ι) (w : WasmModule) (inst : Instance ι) : Prop :=
  ∃ items, l.accepted = .ok (w, items) ∧ inst = w.newInstance l.before.store items

theorem WasmModule.newInstance_importsMemory {w : WasmModule} {store : Store ι} {addr : Nat}
    {items : List (Item ι)}
    (h : items.filterMap Item.memory? = List.replicate (w.importCount .memory) addr) :
    (w.newInstance store items).ImportsMemory w addr := by
  intro i hi
  show (items.filterMap Item.memory? ++ _)[i]? = _
  rw [h, List.getElem?_append_left (by rwa [List.length_replicate]), List.getElem?_replicate,
    if_pos hi]

/-- A module that exports only memories that it imports brings no other memory. -/
theorem WasmModule.lastMemory?_newInstance {w : WasmModule} {store : Store ι} {addr : Nat}
    {items : List (Item ι)} (hexports : w.ExportsImportedMemories)
    (himports : (w.newInstance store items).ImportsMemory w addr) {memory : Nat}
    (h : lastMemory? (w.newInstance store items).exports = some memory) : memory = addr := by
  obtain ⟨name, hmem⟩ := mem_of_lastMemory? h
  obtain ⟨ex, hex, hitem⟩ := WasmModule.mem_exports_newInstance hmem
  have hkind : ex.kind = .memory := (Instance.kind_of_item? hitem).symm
  rw [hkind, Instance.item?, himports ex.index (hexports ex hex hkind)] at hitem
  cases hitem
  rfl

theorem ModuleLoad.Makes.importsMemory {l : ModuleLoad ι} {w : WasmModule} {inst : Instance ι}
    (h : l.Makes w inst) {addr : Nat} (hactive : l.before.host.arena.active = .ok addr) :
    inst.ImportsMemory w addr := by
  obtain ⟨items, haccept, rfl⟩ := h
  obtain ⟨object, -, -, hitems⟩ := Host.accept_eq_ok haccept
  exact WasmModule.newInstance_importsMemory (Host.bindImports_memories hactive hitems)

/-- The module that has been loaded, if the load succeeds. -/
def ModuleLoad.module? (e : Engine ι) (l : ModuleLoad ι) : Option WasmModule :=
  match (l.run e).1, l.accepted with
  | .ok _, .ok (w, _) => some w
  | _, _ => none

/-! ## The invariant -/

/-- The memory at `addr` is the active one, and all instances have been made by the given loads. -/
structure Machine.SharesMemory (m : Machine ι) (ls : List (ModuleLoad ι)) (addr : Nat) : Prop where
  active : m.host.arena.active = .ok addr
  lt_size : addr < m.store.memories.size
  made : ∀ inst ∈ m.store.instances, ∃ l ∈ ls, ∃ w, l.Makes w inst

/-- Loads preserve that a memory is shared if the modules that load export only memories that they
    import. -/
theorem Libc.preserves_sharesMemory [Budget] (ls : List (ModuleLoad Function)) (addr : Nat) :
    engine.Preserves loads
      (fun l => l ∈ ls ∧ ∀ w ∈ l.module? engine, w.ExportsImportedMemories)
      (fun m => m.SharesMemory ls addr) := by
  refine preserves_of_layout (fun m m' hlayout hm => ?_) (fun l hl w items haccept hm => ?_)
    (fun l hl w items haccept hbefore m hresult hinst hm => ?_)
  · exact
      { active := by rw [hlayout.arena]; exact hm.active
        lt_size := by rw [hlayout.memories]; exact hm.lt_size
        made := by rw [hlayout.instances]; exact hm.made }
  · refine ⟨hm.active, ?_, fun inst hinst => ?_⟩
    · have hlt := hm.lt_size
      show addr < (l.requested.store.memories ++ _).size
      rw [Array.size_append]
      exact Nat.lt_add_right _ hlt
    · rcases Array.mem_push.1 hinst with hinst | rfl
      · exact hm.made inst hinst
      · exact ⟨l, hl.1, w, items, haccept, rfl⟩
  · have hmodule : l.module? engine = some w := by
      rw [ModuleLoad.module?, hresult, haccept]
    have himports : (w.newInstance l.before.store items).ImportsMemory w addr :=
      ModuleLoad.Makes.importsMemory ⟨items, haccept, rfl⟩ hbefore.active
    rw [Machine.finishLoad, hinst]
    rcases hlast : lastMemory? (w.newInstance l.before.store items).exports with _ | memory
    · exact hm
    · cases WasmModule.lastMemory?_newInstance (hl.2 w hmodule) himports hlast
      exact ⟨rfl, hm.lt_size, hm.made⟩

/-! ## What code and stubs see -/

/-- Code of the instance and stubs work on the same memory: what stubs read and write are the bytes
    that the code sees. -/
structure Machine.OneMemory (m : Machine ι) (inst : Instance ι) (addr : Nat) : Prop where
  code : Exec.memoryOf inst m = (.ok (addr, m.store.memoryAt addr), m)
  stubs : m.activeMemory = .ok (addr, (m.store.memoryAt addr).contents)
  /-- After a stub has changed the memory the code sees the change. -/
  written {α : Type} (x : MemoryAction α) :
    let m' := (onMemory x m).2
    let contents' := (x (m.store.memoryAt addr).contents).2
    Exec.memoryOf inst m'
      = (.ok (addr, { m.store.memoryAt addr with contents := contents' }), m')

theorem Exec.memoryOf_apply {inst : Instance ι} {addr : Nat} (h : inst.memories[0]? = some addr)
    (m : Machine ι) : memoryOf inst m = (.ok (addr, m.store.memoryAt addr), m) := by
  have haddr : (addressOf inst.memories 0 : Action ι Failure Nat) m = (.ok addr, m) := by
    rw [addressOf, h]
    rfl
  rw [memoryOf, bind_apply_of_ok haddr, bind_apply_of_ok (getStore_apply m)]
  rfl

theorem Machine.SharesMemory.oneMemory {m : Machine ι} {ls : List (ModuleLoad ι)} {addr : Nat}
    (hm : m.SharesMemory ls addr) {inst : Instance ι} (hinst : inst.memories[0]? = some addr) :
    m.OneMemory inst addr := by
  refine ⟨Exec.memoryOf_apply hinst m, activeMemory_of_active hm.active, fun x => ?_⟩
  dsimp only
  rw [Exec.memoryOf_apply hinst, onMemory_of_active hm.active]
  dsimp only
  rw [m.store.memoryAt_setContents hm.lt_size]

/-! ## Runs -/

namespace Libc

/-- **One shared memory.** If every memory that a loaded module exports is one that it imports, then
    at every moment of a run the memory that was made at its start is the active one. All imports of
    memories are bound to it, so that stubs and the code of all instances that import a memory work
    on the same bytes. -/
theorem memory_shared [Budget] {config : Config} {source : ModuleSource ModuleObject} {sink : Sink}
    {start : Run Function} (hstart : Run.start config source sink = .ok start)
    (requests : List (Run.Request Function))
    (hexports : ∀ l ∈ Run.loadsOf engine loads requests start,
      ∀ w ∈ l.module? engine, w.ExportsImportedMemories) :
    (∀ l ∈ Run.loadsOf engine loads requests start,
      (∀ w inst, l.Makes w inst → inst.ImportsMemory w 0)
        ∧ ∀ loaded m, l.run engine = (.ok loaded, m) →
            ∃ w, l.Makes w (m.store.instanceAt loaded.instanceAddr))
      ∧ ∀ m, Run.Moment engine loads requests start m →
          m.host.arena.active = .ok 0
            ∧ ∀ inst ∈ m.store.instances,
                (∃ l ∈ Run.loadsOf engine loads requests start, ∃ w, l.Makes w inst)
                  ∧ ∀ l ∈ Run.loadsOf engine loads requests start, ∀ w, l.Makes w inst →
                      0 < w.importCount .memory → m.OneMemory inst 0 := by
  have hinitial : start.machine.SharesMemory (Run.loadsOf engine loads requests start) 0 := by
    cases Run.start_eq_ok hstart
    exact ⟨rfl, Nat.zero_lt_one, fun inst hinst => absurd hinst (Array.not_mem_empty inst)⟩
  have hmoment {m : Machine Function} (hm : Run.Moment engine loads requests start m) :=
    hm.invariant stubs_lawful (preserves_sharesMemory _ 0) (fun l hl => ⟨hl, hexports l hl⟩)
      hinitial
  have himports {l : ModuleLoad Function} (hl : l ∈ Run.loadsOf engine loads requests start)
      {w : WasmModule} {inst : Instance Function} (hmakes : l.Makes w inst) :
      inst.ImportsMemory w 0 :=
    hmakes.importsMemory (hmoment (.load l hl)).active
  refine ⟨fun l hl => ⟨fun w inst hmakes => himports hl hmakes, fun loaded m hrun => ?_⟩,
    fun m hm => ⟨(hmoment hm).active, fun inst hinst => ⟨(hmoment hm).made inst hinst, ?_⟩⟩⟩
  · obtain ⟨w, items, haccept, -, -, hinst⟩ := Engine.loadModule_ok stubs_lawful hrun
    refine ⟨w, items, haccept, ?_⟩
    rw [Store.instanceAt, Array.getD_eq_getD_getElem?, hinst, Option.getD_some]
  · intro l hl w hmakes hcount
    exact (hmoment hm).oneMemory (himports hl hmakes 0 hcount)

/-- A library that imports the memory and exports it again. -/
def memoryLibrary : WasmModule :=
  { WasmModule.empty with
    imports := [⟨"env", "memory", .memory ⟨1, none⟩⟩]
    data := [⟨2000, [7]⟩]
    exports := [⟨"memory", .memory, 0⟩] }

/-- The memory is installed a second time when the library is opened, and it is still the first
    one. -/
theorem memory_shared_reexported :
    let start : Run Function :=
      ⟨.initial ⟨1, 16384, "main", []⟩ (twoModules openingProgram memoryLibrary) .accepting,
        .initializing, [], none⟩
    let requests : List (Run.Request Function) :=
      [.addStubs sampleLibraries, .loadModules [], .loadMain "main", .execute]
    let ls := Run.loadsOf engine loads requests start
    ls.map ModuleLoad.name = ["main", "lib"]
      ∧ ((Run.transcript engine requests start).map fun ev =>
          ev.after.machine.host.arena.generation) = [1, 1, 1, 2]
      ∧ (∀ l ∈ ls, ∀ w ∈ l.module? engine, w.ExportsImportedMemories)
      ∧ ∀ m, Run.Moment engine loads requests start m → m.host.arena.active = .ok 0 := by
  intro start requests ls
  have hstart : Run.start ⟨1, 16384, "main", []⟩ (twoModules openingProgram memoryLibrary)
      .accepting = .ok start := by
    rw [Run.start_eq, if_pos (by decide)]
  have hall : (ls.all fun l => (l.module? engine).all fun w => decide w.ExportsImportedMemories)
      = true := by
    decide +kernel
  have hexports : ∀ l ∈ ls, ∀ w ∈ l.module? engine, w.ExportsImportedMemories := by
    intro l hl w hw
    have hmodule := List.all_eq_true.1 hall l hl
    rw [Option.mem_def.1 hw] at hmodule
    exact of_decide_eq_true hmodule
  exact ⟨by decide +kernel, by decide +kernel, hexports,
    fun m hm => ((memory_shared hstart requests hexports).2 m hm).1⟩

end Libc

end WasmHost
