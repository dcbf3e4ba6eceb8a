import WasmHost.Proofs.Library.Consistency
import WasmHost.Proofs.Linking.Binding
import WasmHost.Proofs.Memory.Strings

set_option autoImplicit false

/-! # What a load that fails leaves behind

A load can fail before it changes anything, or while the new instance is made. The new instance has
tables, globals and memories of its own, except that it may work on the active memory. So without a
start function the only thing that a failed load changes for the rest of the host is what its data
segments have written to the active memory before one of them did not fit (`Machine.IntactBut`).

The main result is `openLibrary_failed`, which lists the ways in which opening a library fails. -/

namespace WasmHost

open WasmHost.Action

variable {ι α ε : Type}

/-! ## Addresses of a new instance -/

/-- Every bound item is what one of the imports is bound to. -/
theorem Host.resolveImport_of_mem {host : Host ι} {name : String} {imports : List Import}
    {items : List (Item ι)} (h : host.bindImports name imports = .ok items) {item : Item ι}
    (hitem : item ∈ items) : ∃ imp ∈ imports, host.resolveImport imp = .ok item := by
  have hmem : Except.ok item ∈ imports.map host.resolveImport := by
    rw [LinkError.collect_eq_ok h]
    exact List.mem_map_of_mem hitem
  exact List.mem_map.1 hmem

section

variable {w : WasmModule} {m : Machine ι} {items : List (Item ι)} {name : String}

/-- A memory of a new instance is the active one, or is new. -/
theorem WasmModule.mem_memories_newInstance
    (hitems : m.host.bindImports name w.imports = .ok items) {addr : Nat}
    (h : addr ∈ (w.newInstance m.store items).memories) :
    m.host.arena.active = .ok addr ∨ m.store.memories.size ≤ addr := by
  rcases List.mem_append.1 h with h | h
  · obtain ⟨item, hitem, haddr⟩ := List.mem_filterMap.1 h
    obtain ⟨imp, -, himp⟩ := Host.resolveImport_of_mem hitems hitem
    obtain ⟨-, -, func, -, -, -, rfl⟩ | ⟨-, addr', -, hactive, rfl⟩ :=
      Host.resolveImport_eq_ok himp <;> cases haddr
    exact .inl hactive
  · exact .inr (List.mem_range'_1.1 h).1

/-- Every table of a new instance is new. -/
theorem WasmModule.mem_tables_newInstance
    (hitems : m.host.bindImports name w.imports = .ok items) {addr : Nat}
    (h : addr ∈ (w.newInstance m.store items).tables) : m.store.tables.size ≤ addr := by
  rcases List.mem_append.1 h with h | h
  · obtain ⟨item, hitem, haddr⟩ := List.mem_filterMap.1 h
    obtain ⟨imp, -, himp⟩ := Host.resolveImport_of_mem hitems hitem
    obtain ⟨-, -, func, -, -, -, rfl⟩ | ⟨-, addr', -, -, rfl⟩ :=
      Host.resolveImport_eq_ok himp <;> cases haddr
  · exact (List.mem_range'_1.1 h).1

end

/-! ## What stays as it is -/

/-- Whether the segment has a byte for the address. -/
def DataSegment.Covers (segment : DataSegment) (i : Nat) : Prop :=
  segment.offset.toUInt32.toNat ≤ i ∧ i < segment.offset.toUInt32.toNat + segment.bytes.length

/-- A memory of the same size and limit, with the same bytes apart from the segments. -/
structure MemoryInstance.SameBut (memory : MemoryInstance) (segments : List DataSegment)
    (memory' : MemoryInstance) : Prop where
  maxPages : memory'.maxPages = memory.maxPages
  size : memory'.contents.size = memory.contents.size
  byte (i : Nat) (hi : i < UInt32.size) (h : ∀ segment ∈ segments, ¬ segment.Covers i) :
    memory'.contents.byte i = memory.contents.byte i

/-- All that was in the store is still there. Of the bytes in memories at most those of the active
    memory that are covered by the segments are different. -/
structure Machine.IntactBut (m : Machine ι) (segments : List DataSegment) (m' : Machine ι) :
    Prop where
  instances (addr : Nat) (h : addr < m.store.instances.size) :
    m'.store.instances[addr]? = m.store.instances[addr]?
  tables (addr : Nat) (h : addr < m.store.tables.size) :
    m'.store.tables[addr]? = m.store.tables[addr]?
  globals (addr : Nat) (h : addr < m.store.globals.size) :
    m'.store.globals[addr]? = m.store.globals[addr]?
  memories (addr : Nat) (h : addr < m.store.memories.size)
    (hactive : m.host.arena.active ≠ .ok addr) :
    m'.store.memories[addr]? = m.store.memories[addr]?
  active (addr : Nat) (h : addr < m.store.memories.size)
    (hactive : m.host.arena.active = .ok addr) :
    ∃ memory, m'.store.memories[addr]? = some memory
      ∧ (m.store.memoryAt addr).SameBut segments memory

namespace MemoryInstance

theorem SameBut.refl (memory : MemoryInstance) (segments : List DataSegment) :
    memory.SameBut segments memory :=
  ⟨rfl, rfl, fun _ _ _ => rfl⟩

theorem SameBut.mono {memory memory' : MemoryInstance} {segments : List DataSegment}
    (h : memory.SameBut segments memory') (segment : DataSegment) :
    memory.SameBut (segments ++ [segment]) memory' :=
  ⟨h.maxPages, h.size, fun i hi hcovers => h.byte i hi (List.forall_mem_append.1 hcovers).1⟩

/-- Another segment is written. -/
theorem SameBut.write {memory memory' : MemoryInstance} {segments : List DataSegment}
    {segment : DataSegment} {contents : LinearMemory} (h : memory.SameBut segments memory')
    (hwrite : memory'.contents.write segment.offset.toUInt32 segment.bytes = .ok contents) :
    memory.SameBut (segments ++ [segment]) { memory' with contents := contents } := by
  obtain ⟨-, hsize, hbyte⟩ := LinearMemory.byte_of_write hwrite
  refine ⟨h.maxPages, hsize.trans h.size, fun i hi hcovers => ?_⟩
  obtain ⟨hbefore, hlast⟩ := List.forall_mem_append.1 hcovers
  rw [← h.byte i hi hbefore]
  exact (hbyte i hi).trans (if_neg (hlast segment (List.mem_singleton.2 rfl)))

end MemoryInstance

namespace Machine.IntactBut

variable {m m' : Machine ι} {segments : List DataSegment}

theorem refl (m : Machine ι) : m.IntactBut [] m where
  instances _ _ := rfl
  tables _ _ := rfl
  globals _ _ := rfl
  memories _ _ _ := rfl
  active addr h _ := by
    refine ⟨m.store.memoryAt addr, ?_, .refl _ _⟩
    rw [Store.memoryAt, Array.getD_eq_getD_getElem?, Array.getElem?_eq_getElem h, Option.getD_some]

/-- A new instance adds to the store. -/
theorem allocating (m : Machine ι) (w : WasmModule) (items : List (Item ι)) :
    m.IntactBut [] (m.allocating w items) where
  instances addr h := Array.getElem?_push_lt h ▸ (Array.getElem?_eq_getElem h).symm
  tables addr h := Array.getElem?_append_left h
  globals addr h := Array.getElem?_append_left h
  memories addr h _ := Array.getElem?_append_left h
  active addr h _ := by
    refine ⟨m.store.memoryAt addr, ?_, .refl _ _⟩
    rw [Store.memoryAt, Array.getD_eq_getD_getElem?, Array.getElem?_eq_getElem h]
    exact (Array.getElem?_append_left h).trans (Array.getElem?_eq_getElem h)

/-- A table that is new is changed. -/
theorem setTable (h : m.IntactBut segments m') {addr : Nat} (haddr : m.store.tables.size ≤ addr)
    (table : TableInstance ι) :
    m.IntactBut segments { m' with store := m'.store.setTable addr table } where
  instances := h.instances
  tables i hi := by
    rw [← h.tables i hi]
    exact Array.getElem?_setIfInBounds_ne (Nat.ne_of_gt (Nat.lt_of_lt_of_le hi haddr))
  globals := h.globals
  memories := h.memories
  active := h.active

/-- A segment is written to the active memory or to a new one. -/
theorem setContents (h : m.IntactBut segments m') {addr : Nat}
    (haddr : m.host.arena.active = .ok addr ∨ m.store.memories.size ≤ addr)
    {segment : DataSegment} {contents : LinearMemory}
    (hwrite : (m'.store.memoryAt addr).contents.write segment.offset.toUInt32 segment.bytes
      = .ok contents) :
    m.IntactBut (segments ++ [segment])
      { m' with store := m'.store.setContents addr contents } where
  instances := h.instances
  tables := h.tables
  globals := h.globals
  memories i hi hother := by
    have hne : addr ≠ i := by
      rcases haddr with hactive | hge
      · rintro rfl
        exact hother hactive
      · exact Nat.ne_of_gt (Nat.lt_of_lt_of_le hi hge)
    rw [← h.memories i hi hother]
    exact Array.getElem?_setIfInBounds_ne hne
  active i hi hactive := by
    obtain ⟨memory, hmemory, hsame⟩ := h.active i hi hactive
    by_cases hne : addr = i
    · subst hne
      have hat : m'.store.memoryAt addr = memory := by
        rw [Store.memoryAt, Array.getD_eq_getD_getElem?, hmemory, Option.getD_some]
      rw [hat] at hwrite
      refine ⟨{ memory with contents := contents }, ?_, hsame.write hwrite⟩
      rw [← hat]
      exact Array.getElem?_setIfInBounds_self_of_lt (Array.getElem?_eq_some_iff.1 hmemory).1
    · refine ⟨memory, ?_, hsame.mono segment⟩
      rw [← hmemory]
      exact Array.getElem?_setIfInBounds_ne hne

end Machine.IntactBut

/-! ## Writing segments -/

section

variable {f : α → Action ι ε Unit} {as : List α} {m m' : Machine ι}

/-- What each success adds to, all together have added to. -/
theorem Action.forM_of_ok {P : List α → Machine ι → Prop}
    (hstep : ∀ done a m m', P done m → f a m = (.ok (), m') → P (done ++ [a]) m')
    (done : List α) (hm : P done m) (h : as.forM f m = (.ok (), m')) : P (done ++ as) m' := by
  induction as generalizing done m with
  | nil =>
      cases h
      rwa [List.append_nil]
  | cons a as ih =>
      rw [List.forM, bind_apply] at h
      rcases ha : f a m with ⟨err | _, m₁⟩ <;> rw [ha] at h
      · cases h
      · rw [List.append_cons]
        exact ih (done ++ [a]) (hstep done a m m₁ hm ha) h

/-- An action for each element of a list fails at one of them, after it has succeeded for those
    before. -/
theorem Action.forM_eq_error {err : ε} (h : as.forM f m = (.error err, m')) :
    ∃ done a rest m₁, as = done ++ a :: rest ∧ done.forM f m = (.ok (), m₁)
      ∧ f a m₁ = (.error err, m') := by
  induction as generalizing m with
  | nil => cases h
  | cons a as ih =>
      rw [List.forM, bind_apply] at h
      rcases ha : f a m with ⟨err' | _, m₁⟩ <;> rw [ha] at h
      · cases h
        exact ⟨[], a, as, m, rfl, rfl, ha⟩
      · obtain ⟨done, b, rest, m₂, rfl, hdone, hb⟩ := ih h
        refine ⟨a :: done, b, rest, m₂, rfl, ?_, hb⟩
        rw [List.forM, bind_apply_of_ok ha, hdone]

end

namespace Exec

/-- Writing functions to a table either does so, or fails and changes nothing. -/
theorem writeElements_apply (inst : Instance ι) (segment : ElementSegment) (m : Machine ι) :
    (∃ addr table, inst.tables[0]? = some addr
        ∧ writeElements inst segment m
          = (.ok (), { m with store := m.store.setTable addr table }))
      ∨ ∃ failure, writeElements inst segment m = (.error failure, m) := by
  rw [writeElements, bind_apply, addressOf, ofExcept_apply]
  rcases haddr : inst.tables[0]? with _ | addr
  · exact .inr ⟨_, rfl⟩
  dsimp only
  rw [bind_apply_of_ok (getStore_apply m)]
  rcases (m.store.tableAt addr).setRange? segment.offset _ with _ | table
  · exact .inr ⟨_, rfl⟩
  · exact .inl ⟨addr, table, rfl, rfl⟩

/-- Writing bytes to a memory either does so, or fails and changes nothing. -/
theorem writeData_apply (inst : Instance ι) (segment : DataSegment) (m : Machine ι) :
    (∃ addr contents, inst.memories[0]? = some addr
        ∧ (m.store.memoryAt addr).contents.write segment.offset.toUInt32 segment.bytes
          = .ok contents
        ∧ writeData inst segment m
          = (.ok (), { m with store := m.store.setContents addr contents }))
      ∨ ∃ failure, writeData inst segment m = (.error failure, m) := by
  rw [writeData, memoryOf, bind_assoc, bind_apply, addressOf, ofExcept_apply]
  rcases haddr : inst.memories[0]? with _ | addr
  · exact .inr ⟨_, rfl⟩
  dsimp only
  rw [bind_assoc, bind_apply_of_ok (getStore_apply m), pure_bind]
  dsimp only
  rcases hwrite : (m.store.memoryAt addr).contents.write segment.offset.toUInt32 segment.bytes
    with err | contents
  · exact .inr ⟨_, rfl⟩
  · exact .inl ⟨addr, contents, rfl, hwrite, rfl⟩

end Exec

/-! ## Instances that are abandoned -/

/-- What is left when the instantiation of a module fails before its start function would be
    called. -/
inductive WasmModule.Abandoned (w : WasmModule) (items : List (Item ι)) (m : Machine ι)
    (failure : Failure) : Machine ι → Prop where
  /-- A bound item has the wrong type, or the functions of a segment do not fit into their table. No
      data segment has been applied. -/
  | early (m' : Machine ι) (hhost : m'.host = m.host) (hintact : m.IntactBut [] m') :
      Abandoned w items m failure m'
  /-- A data segment does not fit. Those before it have been applied. -/
  | data (applied : List DataSegment) (segment : DataSegment) (rest : List DataSegment)
      (m₁ m' : Machine ι) (hdata : w.data = applied ++ segment :: rest)
      (hbefore : m.IntactBut [] m₁)
      (happlied : applied.forM (Exec.writeData (w.newInstance m.store items)) m₁ = (.ok (), m'))
      (hfails : Exec.writeData (w.newInstance m.store items) segment m' = (.error failure, m'))
      (hhost : m'.host = m.host) (hintact : m.IntactBut applied m') :
      Abandoned w items m failure m'

section

variable {w : WasmModule} {m m' m₁ m₂ : Machine ι} {items : List (Item ι)} {name : String}

/-- The tables to which a new instance writes are new. -/
theorem Machine.IntactBut.writeElements (hitems : m.host.bindImports name w.imports = .ok items)
    {elements : List ElementSegment} (h : m.IntactBut [] m₁) (hhost : m₁.host = m.host)
    (hrun : elements.forM (Exec.writeElements (w.newInstance m.store items)) m₁ = (.ok (), m₂)) :
    m₂.host = m.host ∧ m.IntactBut [] m₂ := by
  refine Action.forM_of_ok (P := fun _ m₂ => m₂.host = m.host ∧ m.IntactBut [] m₂) ?_
    [] ⟨hhost, h⟩ hrun
  rintro - segment m₃ m₄ ⟨hhost, h⟩ hwrite
  obtain ⟨addr, table, haddr, hok⟩ | ⟨failure, herror⟩ :=
    Exec.writeElements_apply (w.newInstance m.store items) segment m₃
  · cases hok.symm.trans hwrite
    exact ⟨hhost, h.setTable (w.mem_tables_newInstance hitems (List.mem_of_getElem? haddr)) table⟩
  · cases herror.symm.trans hwrite

/-- The memory to which a new instance writes is the active one or a new one. -/
theorem Machine.IntactBut.writeData (hitems : m.host.bindImports name w.imports = .ok items)
    {segments : List DataSegment} (h : m.IntactBut [] m₁) (hhost : m₁.host = m.host)
    (hrun : segments.forM (Exec.writeData (w.newInstance m.store items)) m₁ = (.ok (), m₂)) :
    m₂.host = m.host ∧ m.IntactBut segments m₂ := by
  refine Action.forM_of_ok (P := fun done m₂ => m₂.host = m.host ∧ m.IntactBut done m₂) ?_
    [] ⟨hhost, h⟩ hrun
  rintro done segment m₃ m₄ ⟨hhost, h⟩ hwrite
  obtain ⟨addr, contents, haddr, hcontents, hok⟩ | ⟨failure, herror⟩ :=
    Exec.writeData_apply (w.newInstance m.store items) segment m₃
  · cases hok.symm.trans hwrite
    have hmemory := w.mem_memories_newInstance hitems (List.mem_of_getElem? haddr)
    exact ⟨hhost, h.setContents hmemory hcontents⟩
  · cases herror.symm.trans hwrite

/-- **An instance that cannot be prepared is abandoned**, with at most some of its data in the
    active memory. -/
theorem WasmModule.abandoned_of_prepare (hitems : m.host.bindImports name w.imports = .ok items)
    {failure : Failure} (h : w.prepare items m = (.error failure, m')) :
    w.Abandoned items m failure m' := by
  rcases haccepts : w.acceptsImports m.store items
  · cases (prepare_of_not_accepts haccepts).symm.trans h
    exact .early m rfl (.refl m)
  rw [prepare_of_accepts haccepts, writeSegments, bind_assoc, bind_apply] at h
  have hallocated := Machine.IntactBut.allocating m w items
  rcases helements : w.elements.forM (Exec.writeElements (w.newInstance m.store items))
    (m.allocating w items) with ⟨failure' | _, m₁⟩ <;> rw [helements] at h
  · cases h
    obtain ⟨done, segment, rest, m₂, -, hdone, hfails⟩ := Action.forM_eq_error helements
    obtain ⟨hhost, hintact⟩ := hallocated.writeElements hitems rfl hdone
    obtain ⟨addr, table, -, hok⟩ | ⟨_, herror⟩ :=
      Exec.writeElements_apply (w.newInstance m.store items) segment m₂
    · cases hok.symm.trans hfails
    · cases herror.symm.trans hfails
      exact .early _ hhost hintact
  obtain ⟨hhost, hintact⟩ := hallocated.writeElements hitems rfl helements
  dsimp only at h
  rw [bind_apply] at h
  rcases hdata : w.data.forM (Exec.writeData (w.newInstance m.store items)) m₁
    with ⟨failure' | _, m₂⟩ <;> rw [hdata] at h <;> cases h
  obtain ⟨applied, segment, rest, m₃, hsegments, happlied, hfails⟩ := Action.forM_eq_error hdata
  obtain ⟨hhost₃, hintact₃⟩ := hintact.writeData hitems hhost happlied
  obtain ⟨addr, contents, -, -, hok⟩ | ⟨_, herror⟩ :=
    Exec.writeData_apply (w.newInstance m.store items) segment m₃
  · cases hok.symm.trans hfails
  · cases herror.symm.trans hfails
    exact .data applied segment rest m₁ _ hsegments hintact happlied hfails hhost₃ hintact₃

/-- Without a start function nothing else can fail. -/
theorem WasmModule.abandoned_of_instantiate (hitems : m.host.bindImports name w.imports = .ok items)
    (hstart : w.start = none) {calls : Caller.Calls ι} {failure : Failure}
    (h : w.instantiate calls items m = (.error failure, m')) : w.Abandoned items m failure m' := by
  rw [instantiate_eq, bind_apply_of_ok (getStore_apply m), bind_apply] at h
  rcases hprepare : w.prepare items m with ⟨failure' | inst, m₁⟩ <;> rw [hprepare] at h
  · cases h
    exact abandoned_of_prepare hitems hprepare
  · have hrun : Exec.runStart calls w inst m₁ = (.ok (), m₁) := by
      rw [Exec.runStart, hstart]
      rfl
    dsimp only at h
    rw [bind_apply_of_ok hrun] at h
    cases h

end

/-! ## Opening a library -/

/-- The ways in which opening the library of a name fails: the error, and the machine that is left.
    Only an instantiation that fails leaves more behind than the note that the source was asked. -/
inductive OpenFailure (name : String) (flags : DlFlags) (m : Machine ι) :
    LinkError → Machine ι → Prop where
  | flags (hflags : flags.isSupported = false) :
      OpenFailure name flags m (LinkError.ofKind (.unsupportedFlag flags.bits)) m
  /-- The module cannot be found or read. -/
  | source (reason : LinkError) (hsource : m.host.source name = .error reason) :
      OpenFailure name flags m (.loadFailed name reason) (m.requesting name)
  | parse (object : ModuleObject) (reason : LinkError) (hsource : m.host.source name = .ok object)
      (hparse : object.parse name = .error reason) :
      OpenFailure name flags m (.loadFailed name reason) (m.requesting name)
  /-- An import cannot be bound. -/
  | binding (object : ModuleObject) (w : WasmModule) (err : LinkError)
      (hsource : m.host.source name = .ok object) (hparse : object.parse name = .ok w)
      (hbind : m.host.bindImports name w.imports = .error err) :
      OpenFailure name flags m err (m.requesting name)
  /-- Of a module that starts nothing, what its instantiation has left is known. -/
  | instantiation (w : WasmModule) (items : List (Item ι)) (failure : Failure) (m' : Machine ι)
      (haccept : m.host.accept name = .ok (w, items))
      (hleft : w.start = none → w.Abandoned items (m.requesting name) failure m') :
      OpenFailure name flags m (.instantiationFailed name failure) m'

/-- **Opening a library that fails leaves the host intact**, whatever it means to call a
    function. -/
theorem openLibrary_failed (calls : Caller.Calls ι) (name : String) (flags : DlFlags)
    {m m' : Machine ι} {err : LinkError}
    (h : openLibrary (loadModule calls) name flags m = (.error err, m')) :
    OpenFailure name flags m err m' := by
  rw [openLibrary_apply] at h
  rcases hretain : m.host.libraries.retain name with _ | ⟨handle, t⟩ <;> rw [hretain] at h
  case some => cases h
  dsimp only at h
  by_cases hflags : flags.isSupported = true
  case neg =>
    rw [if_neg hflags] at h
    cases h
    exact .flags (Bool.eq_false_iff.2 hflags)
  rw [if_pos hflags, loadModule_apply, Host.accept] at h
  rcases hsource : m.host.source name with reason | object <;> simp only [hsource] at h
  · cases h
    exact .source reason hsource
  rcases hparse : object.parse name with reason | w <;> simp only [hparse] at h
  · cases h
    exact .parse object reason hsource hparse
  rcases hbind : m.host.bindImports name w.imports with _ | items <;>
    simp only [hbind, Except.map] at h
  · cases h
    exact .binding object w err hsource hparse hbind
  rcases hinst : w.instantiate calls items (m.requesting name) with ⟨failure | addr, m₁⟩ <;>
    rw [hinst] at h <;> cases h
  refine .instantiation w items failure m' ?_ fun hstart => ?_
  · simp only [Host.accept, hsource, hparse, hbind, Except.map]
  · exact w.abandoned_of_instantiate (m := m.requesting name) hbind hstart hinst

/-- A library that has the memory written at three places, the last of which is beyond its end. -/
def overlongLibrary : WasmModule :=
  { WasmModule.empty with
    imports := [⟨"env", "memory", .memory ⟨1, none⟩⟩]
    data := [⟨8, [7]⟩, ⟨16, [7]⟩, ⟨65536, [7]⟩]
    exports := [⟨"memory", .memory, 0⟩] }

/-- Two of its segments are applied, and no other memory becomes active. -/
theorem openLibrary_failed_overlong :
    let e : Engine Empty := .ofStubs fun f _ _ => nomatch f
    let source : ModuleSource ModuleObject := fun _ => .ok (.parsed overlongLibrary)
    let m : Machine Empty :=
      { store := Store.empty.addMemory (.new ⟨1, none⟩)
        host := { Host.new .default source .accepting with
          arena := MemoryArena.empty.install 0 "host" } }
    let bytes (m : Machine Empty) := [0, 8, 16].map (m.store.memoryAt 0).contents.byte
    ∃ failure m', openLibrary (loadModule e.calls) "lib" .now m
        = (.error (.instantiationFailed "lib" failure), m')
      ∧ overlongLibrary.Abandoned [.memory 0] (m.requesting "lib") failure m'
      ∧ bytes m = [0, 0, 0] ∧ bytes m' = [0, 7, 7] := by
  intro e source m bytes
  have hbytes : bytes (openLibrary (loadModule e.calls) "lib" .now m).2 = [0, 7, 7] := by
    decide +kernel
  have hfails : (openLibrary (loadModule e.calls) "lib" .now m).1.toOption = none := by
    decide +kernel
  rcases hopen : openLibrary (loadModule e.calls) "lib" .now m with ⟨err | handle, m'⟩ <;>
    rw [hopen] at hbytes hfails
  case ok => cases hfails
  have haccept : m.host.accept "lib" = .ok (overlongLibrary, [.memory 0]) := rfl
  cases openLibrary_failed e.calls "lib" .now hopen with
  | flags hflags => cases hflags
  | source reason hsource => cases hsource
  | parse object reason hsource hparse => cases hsource; cases hparse
  | binding object w err hsource hparse hbind => cases hsource; cases hparse; cases hbind
  | instantiation w items failure m' haccept' hleft =>
      cases haccept.symm.trans haccept'
      exact ⟨failure, m', rfl, hleft rfl, by decide +kernel, hbytes⟩

end WasmHost
