import WasmHost.Proofs.Engine.Extension
import WasmHost.Proofs.Errors.Collecting
import WasmHost.Proofs.Linking.Resolution

set_option autoImplicit false

/-! # What the imports of a module are bound to

A module that loads is linked against the environment of that moment (`LoadedModule.LinkedIn`), and
stays linked in this way whatever happens later. A module that imports a function which cannot be
resolved does not load. -/

namespace WasmHost

variable {ι : Type}

/-! ## Imports -/

/-- The name and the type of an imported function. -/
def Import.func? (imp : Import) : Option (String × FuncType) :=
  match imp.desc with
  | .func type => some (imp.field, type)
  | _ => none

/-- The functions that a module imports, in order. They come first in its index space. -/
def WasmModule.funcImports (w : WasmModule) : List (String × FuncType) :=
  w.imports.filterMap Import.func?

theorem Symbol.bind_eq_ok {symbol : Symbol ι} {type : FuncType} {func : Func ι}
    (h : symbol.bind type = .ok func) : func = symbol.toFunc type := by
  cases symbol with
  | stub library name behaviour =>
      rw [Symbol.bind] at h
      split at h
      · exact (Except.ok.inj h).symm
      · cases h
  | exported moduleName func => exact (Except.ok.inj h).symm

section

variable {host : Host ι} {libs : List (StubLibrary ι)} {candidates : List (LoadedModule ι)}

/-- An import of a function is bound to a symbol of the environment, and an import of a memory to the
    active memory. Nothing else can be imported. -/
theorem Host.resolveImport_eq_ok {imp : Import} {item : Item ι}
    (h : host.resolveImport imp = .ok item) :
    (∃ type symbol func, imp.desc = .func type ∧ host.env.lookup? imp.field = some symbol
        ∧ symbol.bind type = .ok func ∧ item = .func func)
      ∨ ∃ limits addr, imp.desc = .memory limits ∧ host.arena.active = .ok addr
        ∧ item = .memory addr := by
  rcases imp with ⟨moduleName, field, desc⟩
  cases desc with
  | func type =>
      simp only [resolveImport] at h
      rcases hsymbol : host.env.lookup? field with _ | symbol <;> simp only [hsymbol] at h
      · cases h
      · rcases hbind : symbol.bind type with _ | func <;> simp only [hbind] at h <;> cases h
        exact .inl ⟨type, symbol, func, rfl, rfl, hbind, rfl⟩
  | memory limits =>
      simp only [resolveImport] at h
      rcases hactive : host.arena.active with _ | addr <;> simp only [hactive] at h <;> cases h
      exact .inr ⟨limits, addr, rfl, rfl, rfl⟩
  | table limits => cases h
  | global type => cases h

/-- What is known of the item that an import is bound to holds in order of all the items. -/
theorem Host.bindImports_filterMap {β : Type} {f : Item ι → Option β} {g : Import → Option β}
    (hfg : ∀ imp item, host.resolveImport imp = .ok item → f item = g imp) {name : String}
    {imports : List Import} {items : List (Item ι)}
    (h : host.bindImports name imports = .ok items) : items.filterMap f = imports.filterMap g := by
  have hitems := LinkError.collect_eq_ok h
  clear h
  induction imports generalizing items with
  | nil =>
      cases items with
      | nil => rfl
      | cons item items => cases hitems
  | cons imp imports ih =>
      cases items with
      | nil => cases hitems
      | cons item items =>
          obtain ⟨himp, himports⟩ := List.cons.inj hitems
          rw [List.filterMap_cons, List.filterMap_cons, hfg imp item himp, ih himports]

/-- What an import is bound to is a function just if a function is imported, and then it is the one
    that the import is linked to. -/
theorem Host.resolveImport_linked (henv : host.env.Links libs candidates) {imp : Import}
    {item : Item ι} (h : host.resolveImport imp = .ok item) :
    item.func?.map some = imp.func?.map fun i => linked? libs candidates i.1 i.2 := by
  obtain ⟨type, symbol, func, hdesc, hsymbol, hbind, rfl⟩ | ⟨limits, addr, hdesc, -, rfl⟩ :=
    resolveImport_eq_ok h
  · have hlink := henv imp.field type
    rw [hsymbol] at hlink
    rw [Import.func?, hdesc, Option.map_some, ← hlink, Symbol.bind_eq_ok hbind]
    rfl
  · rw [Import.func?, hdesc]
    rfl

/-- The functions among the bound items are those that the imports of functions are linked to. -/
theorem Host.bindImports_linked (henv : host.env.Links libs candidates) {name : String}
    {imports : List Import} {items : List (Item ι)}
    (h : host.bindImports name imports = .ok items) :
    (items.filterMap Item.func?).map some
      = (imports.filterMap Import.func?).map fun i => linked? libs candidates i.1 i.2 := by
  rw [List.map_filterMap, List.map_filterMap]
  exact bindImports_filterMap (fun _ _ => resolveImport_linked henv) h

theorem Host.resolveImport_unresolved (henv : host.env.Links libs candidates) {imp : Import}
    {field : String} {type : FuncType} (hfunc : imp.func? = some (field, type))
    (hnone : linked? libs candidates field type = none) :
    host.resolveImport imp = .error imp.unresolved := by
  rcases imp with ⟨moduleName, field', desc⟩
  cases desc with
  | func type' =>
      cases hfunc
      have hlookup := henv field' type
      rw [hnone, Option.map_eq_none_iff] at hlookup
      simp only [resolveImport, hlookup]
  | memory | table | global => cases hfunc

end

/-! ## Loaded modules -/

/-- The functions that the instance of a module has for its imports are those of the first
    candidates that export them, or else stubs of the libraries. -/
def LoadedModule.LinkedIn (l : LoadedModule ι) (m : Machine ι) (libs : List (StubLibrary ι))
    (candidates : List (LoadedModule ι)) : Prop :=
  ∃ (object : ModuleObject) (w : WasmModule) (inst : Instance ι),
    m.host.source l.name = .ok object ∧ object.parse l.name = .ok w
    ∧ m.store.instances[l.instanceAddr]? = some inst
    ∧ ∀ (k : Nat) (field : String) (type : FuncType), w.funcImports[k]? = some (field, type) →
        ∃ func, linked? libs candidates field type = some func ∧ inst.funcs[k]? = some func

/-- A binding once made is never changed. -/
theorem LoadedModule.LinkedIn.of_extends {l : LoadedModule ι} {m m' : Machine ι}
    {libs : List (StubLibrary ι)} {candidates : List (LoadedModule ι)}
    (hl : l.LinkedIn m libs candidates) (h : m.Extends m') : l.LinkedIn m' libs candidates := by
  obtain ⟨object, w, inst, hsource, hparse, hinst, hfuncs⟩ := hl
  exact ⟨object, w, inst, by rw [h.source, hsource], hparse, h.instances _ _ hinst, hfuncs⟩

/-- No two exports of a module that is accepted have one name. -/
theorem ModuleObject.exports_nodup {object : ModuleObject} {name : String} {w : WasmModule}
    (h : object.parse name = .ok w) : (w.exports.map Export.name).Nodup := by
  rw [parse] at h
  split at h
  · cases h
  · split at h
    · cases h
    · rename_i hdefect
      cases h
      by_contra hrepeated
      simp [WasmModule.defect?, hrepeated] at hdefect

/-- The exports of an instance have names of exports of the module. -/
theorem WasmModule.newInstance_exports_nodup {w : WasmModule}
    (h : (w.exports.map Export.name).Nodup) (store : Store ι) (items : List (Item ι)) :
    ((w.newInstance store items).exports.map Prod.fst).Nodup := by
  refine (map_filterMap_sublist (fun e b hb => ?_) w.exports).nodup h
  obtain ⟨item, -, rfl⟩ := Option.map_eq_some_iff.1 hb
  rfl

/-- What the host admits has been fetched, is well formed, and has its imports bound. -/
theorem Host.accept_eq_ok {host : Host ι} {name : String} {w : WasmModule} {items : List (Item ι)}
    (h : host.accept name = .ok (w, items)) :
    ∃ object, host.source name = .ok object ∧ object.parse name = .ok w
      ∧ host.bindImports name w.imports = .ok items := by
  rw [accept] at h
  rcases hsource : host.source name with err | object <;> rw [hsource] at h
  · cases h
  · rcases hparse : object.parse name with err | w' <;> simp only [hparse] at h
    · cases h
    · rcases hbind : host.bindImports name w'.imports with err | items' <;> rw [hbind] at h
      · cases h
      · cases h
        exact ⟨object, rfl, hparse, hbind⟩

namespace Engine

variable {e : Engine ι} {libs : List (StubLibrary ι)} {candidates : List (LoadedModule ι)}

theorem loadModule_exports_nodup (he : e.stubs.Lawful) {depth : Nat} {name : String}
    {m m' : Machine ι} {loaded : LoadedModule ι}
    (h : loadModule (e.invoke depth) name m = (.ok loaded, m')) :
    (loaded.exports.map Prod.fst).Nodup := by
  obtain ⟨w, items, haccept, -, hexports, -⟩ := loadModule_ok he h
  obtain ⟨object, -, hparse, -⟩ := Host.accept_eq_ok haccept
  rw [hexports]
  exact w.newInstance_exports_nodup (ModuleObject.exports_nodup hparse) _ _

/-- **A module that loads is linked** against the environment of that moment. -/
theorem loadModule_linked (he : e.stubs.Lawful) {depth : Nat} {name : String} {m m' : Machine ι}
    {loaded : LoadedModule ι} (henv : m.host.env.Links libs candidates)
    (h : loadModule (e.invoke depth) name m = (.ok loaded, m')) :
    loaded.name = name ∧ (loaded.exports.map Prod.fst).Nodup
      ∧ loaded.LinkedIn m' libs candidates := by
  obtain ⟨w, items, haccept, hname, -, hinst⟩ := loadModule_ok he h
  obtain ⟨object, hsource, hparse, hbind⟩ := Host.accept_eq_ok haccept
  have hkeeps := loadModule_extends he depth name m
  rw [h] at hkeeps
  refine ⟨hname, loadModule_exports_nodup he h, object, w, _, ?_, hname.symm ▸ hparse, hinst, ?_⟩
  · rw [hname, hkeeps.source, hsource]
  · intro k field type hk
    have hlinked := congrArg (·[k]?) (Host.bindImports_linked henv hbind)
    simp only [List.getElem?_map, ← WasmModule.funcImports.eq_1, hk, Option.map_some] at hlinked
    obtain ⟨func, hfunc, hsome⟩ := Option.map_eq_some_iff.1 hlinked
    refine ⟨func, hsome.symm, ?_⟩
    show (items.filterMap Item.func? ++ _)[k]? = some func
    rw [List.getElem?_append_left (List.getElem?_eq_some_iff.1 hfunc).1, hfunc]

/-- **A module with an import that cannot be resolved does not load**, and the error names the
    import. -/
theorem loadModule_unresolved {calls : Caller.Calls ι} {name : String} {m : Machine ι}
    {object : ModuleObject} {w : WasmModule} {imp : Import} {field : String} {type : FuncType}
    (henv : m.host.env.Links libs candidates) (hsource : m.host.source name = .ok object)
    (hparse : object.parse name = .ok w) (himp : imp ∈ w.imports)
    (hfunc : imp.func? = some (field, type)) (hnone : linked? libs candidates field type = none) :
    ∃ related, (loadModule calls name m).1 = .error (.mk (.loadFailure name) related)
      ∧ imp.unresolved ∈ related := by
  have herror : .error imp.unresolved ∈ w.imports.map m.host.resolveImport :=
    List.mem_map.2 ⟨imp, himp, Host.resolveImport_unresolved henv hfunc hnone⟩
  obtain ⟨related, hcollect, hmem⟩ := LinkError.collect_of_error (.loadFailure name) herror
  refine ⟨related, ?_, hmem⟩
  have haccept : m.host.accept name = .error (.mk (.loadFailure name) related) := by
    rw [Host.accept, hsource]
    simp only [hparse, Host.bindImports, hcollect, Except.map]
  rw [loadModule_apply, haccept]

end Engine

end WasmHost
