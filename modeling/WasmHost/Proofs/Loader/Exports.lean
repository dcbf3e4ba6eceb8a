import WasmHost.Proofs.Linking.Binding

set_option autoImplicit false

/-! # What a new instance exports

A module that is accepted refers only to indices that exist, and its instance has an item for each
of them. So the instance exports what the module does: the same names and kinds, in the same order
(`WasmModule.exports_newInstance`). -/

namespace WasmHost

variable {ι : Type}

/-! ## Index spaces -/

theorem Host.kind_of_resolveImport {host : Host ι} {imp : Import} {item : Item ι}
    (h : host.resolveImport imp = .ok item) : item.kind = imp.desc.kind := by
  obtain ⟨type, -, func, hdesc, -, -, rfl⟩ | ⟨limits, addr, hdesc, -, rfl⟩ :=
    resolveImport_eq_ok h <;> rw [hdesc] <;> rfl

/-- The bound items are of the kinds of the imports. -/
theorem Host.bindImports_kinds {host : Host ι} {name : String} {imports : List Import}
    {items : List (Item ι)} (h : host.bindImports name imports = .ok items) :
    items.map Item.kind = imports.map fun imp => imp.desc.kind := by
  have hkinds := bindImports_filterMap (f := fun item => some item.kind)
    (g := fun imp => some imp.desc.kind)
    (fun imp item himp => congrArg some (kind_of_resolveImport himp)) h
  rwa [List.filterMap_eq_map', List.filterMap_eq_map'] at hkinds

section

variable {w : WasmModule} {items : List (Item ι)}

/-- The items of a kind are as many as the imports of the kind. -/
theorem WasmModule.length_filterMap_items {α : Type}
    (hkinds : items.map Item.kind = w.imports.map fun imp => imp.desc.kind) {kind : ItemKind}
    {f : Item ι → Option α} (hf : ∀ item, (f item).isSome = (item.kind == kind)) :
    (items.filterMap f).length = w.importCount kind := by
  have hitems : items.countP (fun item => item.kind == kind)
      = (items.map Item.kind).countP (· == kind) := by
    rw [List.countP_map]
    rfl
  rw [List.length_filterMap_eq_countP, funext hf, hitems, hkinds, List.countP_map]
  rfl

/-- Every index that the module has stands for something in its instance. -/
theorem WasmModule.item?_newInstance
    (hkinds : items.map Item.kind = w.imports.map fun imp => imp.desc.kind) (store : Store ι)
    {kind : ItemKind} {index : Nat} (h : index < w.itemCount kind) :
    ∃ item, (w.newInstance store items).item? kind index = some item := by
  have himports {α : Type} (f : Item ι → Option α)
      (hf : ∀ item, (f item).isSome = (item.kind == kind)) :
      (items.filterMap f).length = w.importCount kind :=
    length_filterMap_items hkinds hf
  have hlength {α : Type} {xs ys : List α} {n : Nat} (hlt : index < w.importCount kind + n)
      (hxs : xs.length = w.importCount kind) (hys : ys.length = n) :
      ∃ x, (xs ++ ys)[index]? = some x :=
    ⟨_, List.getElem?_eq_getElem (by rw [List.length_append, hxs, hys]; exact hlt)⟩
  cases kind with
  | func =>
      obtain ⟨f, hf⟩ := hlength h (himports Item.func? fun item => by cases item <;> rfl)
        (List.length_map _)
      exact ⟨.func f, congrArg (Option.map Item.func) hf⟩
  | global =>
      obtain ⟨addr, haddr⟩ := hlength h (himports Item.global? fun item => by cases item <;> rfl)
        List.length_range'
      exact ⟨.global addr, congrArg (Option.map Item.global) haddr⟩
  | table =>
      obtain ⟨addr, haddr⟩ := hlength h (himports Item.table? fun item => by cases item <;> rfl)
        List.length_range'
      exact ⟨.table addr, congrArg (Option.map Item.table) haddr⟩
  | memory =>
      obtain ⟨addr, haddr⟩ := hlength h (himports Item.memory? fun item => by cases item <;> rfl)
        List.length_range'
      exact ⟨.memory addr, congrArg (Option.map Item.memory) haddr⟩

/-! ## Exports -/

/-- Every index that a module exports exists. -/
theorem ModuleObject.exports_lt {object : ModuleObject} {name : String}
    (h : object.parse name = .ok w) : ∀ ex ∈ w.exports, ex.index < w.itemCount ex.kind := by
  rw [parse] at h
  rcases hcontents : object.contents with reason | w' <;> simp only [hcontents] at h
  · cases h
  rcases hdefect : w'.defect? with _ | defect <;> simp only [hdefect] at h <;> cases h
  have hall : (w.exports.all fun ex => decide (ex.index < w.itemCount ex.kind)) = true := by
    by_contra hexports
    simp only [WasmModule.defect?, Bool.eq_false_iff.2 hexports, Bool.not_false, if_true] at hdefect
    split at hdefect <;> cases hdefect
  exact fun ex hex => of_decide_eq_true (List.all_eq_true.1 hall ex hex)

/-- **An instance exports what the module does**, in the same order. -/
theorem WasmModule.exports_newInstance
    (hkinds : items.map Item.kind = w.imports.map fun imp => imp.desc.kind)
    (hexports : ∀ ex ∈ w.exports, ex.index < w.itemCount ex.kind) (store : Store ι) :
    ((w.newInstance store items).exports.map fun e => (e.1, e.2.kind))
      = w.exports.map fun ex => (ex.name, ex.kind) := by
  rw [newInstance, List.map_filterMap]
  refine (List.filterMap_congr fun ex hex => ?_).trans (congrFun List.filterMap_eq_map' _)
  obtain ⟨item, hitem⟩ := item?_newInstance hkinds store (hexports ex hex)
  -- what an index stands for does not depend on what is exported
  show (((w.newInstance store items).item? ex.kind ex.index).map fun item => (ex.name, item)).map
    (fun e => (e.1, e.2.kind)) = some (ex.name, ex.kind)
  rw [hitem, ← Instance.kind_of_item? hitem]
  rfl

end

/-! ## The last memory -/

theorem Item.memory?_eq_none_iff {item : Item ι} : item.memory? = none ↔ item.kind ≠ .memory := by
  cases item <;> simp [memory?, kind]

theorem lastMemory?_eq_none_iff {exports : List (String × Item ι)} :
    lastMemory? exports = none ↔ ∀ e ∈ exports, e.2.kind ≠ .memory := by
  simp only [lastMemory?, List.findSome?_eq_none_iff, List.mem_reverse, Item.memory?_eq_none_iff]

theorem lastMemory?_append_cons {before after : List (String × Item ι)} {name : String} {addr : Nat}
    (h : ∀ e ∈ after, e.2.kind ≠ .memory) :
    lastMemory? (before ++ (name, .memory addr) :: after) = some addr := by
  have hafter : lastMemory? after = none := lastMemory?_eq_none_iff.2 h
  rw [lastMemory?] at hafter ⊢
  rw [List.reverse_append, List.reverse_cons, List.findSome?_append, List.findSome?_append, hafter]
  rfl

section

variable {exports : List (String × Item ι)} {exs : List Export}

/-- Items are of the kinds that the module gives them. -/
theorem kind_ne_of_exports
    (hexports : (exports.map fun e => (e.1, e.2.kind)) = exs.map fun ex => (ex.name, ex.kind))
    {kind : ItemKind} (h : ∀ ex ∈ exs, ex.kind ≠ kind) : ∀ e ∈ exports, e.2.kind ≠ kind := by
  intro e he
  have hmem : (e.1, e.2.kind) ∈ exs.map fun ex => (ex.name, ex.kind) :=
    hexports ▸ List.mem_map.2 ⟨e, he, rfl⟩
  obtain ⟨ex, hex, heq⟩ := List.mem_map.1 hmem
  rw [← (Prod.mk.inj heq).2]
  exact h ex hex

/-- The last memory among the exports of a module is the last one that its instance exports. -/
theorem lastMemory?_of_exports {before after : List Export} {ex : Export}
    (hexports : (exports.map fun e => (e.1, e.2.kind))
      = (before ++ ex :: after).map fun ex => (ex.name, ex.kind))
    (hkind : ex.kind = .memory) (hlast : ∀ later ∈ after, later.kind ≠ .memory) :
    ∃ addr, (ex.name, .memory addr) ∈ exports ∧ lastMemory? exports = some addr := by
  rw [List.map_append, List.map_cons, List.map_eq_append_iff] at hexports
  obtain ⟨before', rest, rfl, -, hrest⟩ := hexports
  obtain ⟨⟨name, item⟩, after', rfl, hitem, hafter⟩ := List.map_eq_cons_iff.1 hrest
  obtain ⟨rfl, hitemKind⟩ := Prod.mk.inj hitem
  rw [hkind] at hitemKind
  cases item with
  | memory addr =>
      exact ⟨addr, List.mem_append_right _ List.mem_cons_self,
        lastMemory?_append_cons (kind_ne_of_exports hafter hlast)⟩
  | func | global | table => cases hitemKind

end

end WasmHost
