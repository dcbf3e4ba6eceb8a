import WasmHost.Proofs.Libc.Calls
import WasmHost.Proofs.Run.Moments

set_option autoImplicit false

/-! # What stays in its place

Instances, memories and tables are added to the store by loads only, and only the end of a load
changes which memory is active (`Machine.SameLayout`). So a property that depends on nothing else is
an invariant of programs as soon as loads preserve it (`Libc.preserves_of_layout`). Libraries are
recorded only when `dlopen` has loaded a module (`Libc.preserves_of_libraries`). -/

namespace WasmHost

variable {ι : Type}

/-- There are the same instances and as many memories and tables, and the same memory is active. -/
structure Machine.SameLayout (m m' : Machine ι) : Prop where
  arena : m'.host.arena = m.host.arena
  instances : m'.store.instances = m.store.instances
  memories : m'.store.memories.size = m.store.memories.size
  tables : m'.store.tables.size = m.store.tables.size

theorem Machine.Quiet.sameLayout {m m' : Machine ι} (h : m.Quiet m') : m.SameLayout m' :=
  ⟨by rw [h.host], h.instances, h.memories, h.tables⟩

namespace Libc

variable [Budget]

/-- A call that loads nothing moves nothing. -/
theorem run_sameLayout {c : StubCall Function} (h : c.stub.loaded? loads c.args c.before = none) :
    c.before.SameLayout (c.run engine).2 := by
  have hserves := run_serves h
  exact ⟨hserves.arena, hserves.instances, hserves.memories, hserves.tables⟩

/-- A call that loads a module moves nothing after the load. -/
theorem run_sameLayout_of_load {c : StubCall Function} {l : ModuleLoad Function}
    (h : c.load? loads = some l) : (l.run engine).2.SameLayout (c.run engine).2 := by
  obtain ⟨name, hname, rfl⟩ := Option.map_eq_some_iff.1 h
  rw [run_of_loads hname, ModuleLoad.run]
  rcases loadModule (engine.invoke c.depth) name c.before with ⟨err | loaded, m⟩ <;>
    exact ⟨rfl, rfl, rfl, rfl⟩

/-- An invariant of the library table has to be checked for what can happen to it without a load, and
    for the recording of a library. -/
theorem preserves_of_libraries {T : LibraryTable Function → Prop}
    (hserved : ∀ t t', t.Served t' → T t → T t')
    (hinsert : ∀ t name loaded, T t → T (t.insert name loaded).2) :
    engine.Preserves loads (fun _ => True) fun m => T m.host.libraries where
  quiet h hm := by rwa [h.host]
  requesting _ _ hm := hm
  allocating _ _ _ _ _ hm := hm
  finishing l _ _ _ _ _ m _ _ hm := by
    obtain ⟨arena, h⟩ := m.finishLoad_eq l.name l.before.store.instances.size
    rw [h]
    exact hm
  call c hload hm := hserved _ _ (run_serves hload).libraries hm
  opening c l hload hm := by
    obtain ⟨name, hname, rfl⟩ := Option.map_eq_some_iff.1 hload
    rw [run_of_loads hname]
    rw [ModuleLoad.run] at hm
    rcases hrun : loadModule (engine.invoke c.depth) name c.before with ⟨err | loaded, m⟩ <;>
      rw [hrun] at hm
    · exact hserved _ _ (.setError (.refl _) err) hm
    · exact hinsert _ name loaded hm
  linking _ _ hm := hm
  merging _ _ hm := hm
  reporting _ _ hm := hm

/-- **Loads are all that an invariant of the layout has to be checked for.** -/
theorem preserves_of_layout {admitted : ModuleLoad Function → Prop}
    {P : Machine Function → Prop} (hlayout : ∀ m m', m.SameLayout m' → P m → P m')
    (hallocating : ∀ (l : ModuleLoad Function), admitted l → ∀ w items,
      l.accepted = .ok (w, items) → P l.requested → P (l.requested.allocating w items))
    (hfinishing : ∀ (l : ModuleLoad Function), admitted l → ∀ w items,
      l.accepted = .ok (w, items) → P l.before → ∀ m,
        (l.run engine).1 = .ok (m.finishLoad l.name l.before.store.instances.size).1 →
        m.store.instanceAt l.before.store.instances.size = w.newInstance l.before.store items →
        P m → P (m.finishLoad l.name l.before.store.instances.size).2) :
    engine.Preserves loads admitted P where
  quiet h hm := hlayout _ _ h.sameLayout hm
  requesting m _ hm := hlayout m _ ⟨rfl, rfl, rfl, rfl⟩ hm
  allocating := hallocating
  finishing l hl w items haccept hbefore m hrun hinst hm :=
    hfinishing l hl w items haccept hbefore m (congrArg Prod.fst hrun) hinst hm
  call _ hload hm := hlayout _ _ (run_sameLayout hload) hm
  opening _ _ hload hm := hlayout _ _ (run_sameLayout_of_load hload) hm
  linking m _ hm := hlayout m _ ⟨rfl, rfl, rfl, rfl⟩ hm
  merging m _ hm := hlayout m _ ⟨rfl, rfl, rfl, rfl⟩ hm
  reporting m _ hm := hlayout m _ ⟨rfl, rfl, rfl, rfl⟩ hm

end Libc

end WasmHost
