import Mathlib.Data.List.Nodup
import WasmHost.Environment
import WasmHost.Library.Table

set_option autoImplicit false

/-! # What a name resolves to

`Environment` is filled by registering: whatever is registered later takes the place of what was
there. So of several stub libraries the last one counts, and of several modules the one that is
merged last. `linked?` says the same without an order of events, for modules in the order in which
they are listed (the one merged last is listed first), and `Environment.Links` says that an
environment answers in this way. -/

namespace WasmHost

variable {ι : Type}

/-! ## Finding an entry by its name -/

/-- The value of the first entry of that name. -/
def findEntry {α : Type} (es : List (String × α)) (name : String) : Option α :=
  (es.find? fun e => e.1 == name).map Prod.snd

theorem findEntry_cons {α : Type} (e : String × α) (es : List (String × α)) (name : String) :
    findEntry (e :: es) name = if e.1 = name then some e.2 else findEntry es name := by
  by_cases h : e.1 = name <;> simp [findEntry, h]

theorem findEntry_eq_none {α : Type} {es : List (String × α)} {name : String}
    (h : name ∉ es.map Prod.fst) : findEntry es name = none := by
  induction es with
  | nil => rfl
  | cons e es ih =>
      rw [List.map_cons, List.mem_cons, not_or] at h
      rw [findEntry_cons, if_neg (Ne.symm h.1), ih h.2]

theorem findEntry_map {α β : Type} (f : String → α → β) (es : List (String × α)) (name : String) :
    findEntry (es.map fun e => (e.1, f e.1 e.2)) name = (findEntry es name).map (f name) := by
  induction es with
  | nil => rfl
  | cons e es ih =>
      rw [List.map_cons, findEntry_cons, findEntry_cons, ih]
      by_cases h : e.1 = name
      · rw [if_pos h, if_pos h, Option.map_some, h]
      · rw [if_neg h, if_neg h]

/-- Where names are unique, leaving out some entries does not change what is found of the others. -/
theorem findEntry_filterMap {α β : Type} (f : α → Option β) {es : List (String × α)}
    (hes : (es.map Prod.fst).Nodup) (name : String) :
    findEntry (es.filterMap fun e => (f e.2).map fun b => (e.1, b)) name
      = (findEntry es name).bind f := by
  induction es with
  | nil => rfl
  | cons e es ih =>
      rw [List.map_cons, List.nodup_cons] at hes
      rw [findEntry_cons, List.filterMap_cons]
      by_cases hname : e.1 = name
      · have hrest : findEntry es name = none := findEntry_eq_none (hname ▸ hes.1)
        rcases hf : f e.2 with _ | b
        · simp only [hf, Option.map_none, ih hes.2, hrest, hname, if_true, Option.bind_none,
            Option.bind_some]
        · simp only [hf, Option.map_some, findEntry_cons, hname, if_true, Option.bind_some]
      · rcases hf : f e.2 with _ | b
        · simp only [Option.map_none, ih hes.2, hname, if_false]
        · simp only [Option.map_some, findEntry_cons, ih hes.2, hname, if_false]

/-- The names of the elements that are kept are names of elements, in the same order. -/
theorem map_filterMap_sublist {α β γ : Type} {f : α → Option β} {g : β → γ} {h : α → γ}
    (hf : ∀ a b, f a = some b → g b = h a) (as : List α) :
    ((as.filterMap f).map g).Sublist (as.map h) := by
  induction as with
  | nil => exact .slnil
  | cons a as ih =>
      rcases hfa : f a with _ | b
      · rw [List.filterMap_cons_none hfa, List.map_cons]
        exact ih.cons _
      · rw [List.filterMap_cons_some hfa, List.map_cons, List.map_cons, hf a b hfa]
        exact ih.cons_cons _

/-! ## Registering a table of symbols -/

namespace Environment

theorem lookup?_registerAll {es : List (String × Symbol ι)} (hes : (es.map Prod.fst).Nodup)
    (env : Environment ι) (name : String) :
    (es.foldl (fun env e => env.register e.1 e.2) env).lookup? name
      = (findEntry es name).or (env.lookup? name) := by
  induction es generalizing env with
  | nil => rfl
  | cons e es ih =>
      -- the last registration counts, but with unique names it is also the first
      rw [List.map_cons, List.nodup_cons] at hes
      rw [List.foldl_cons, ih hes.2, lookup?_register, findEntry_cons]
      by_cases hname : e.1 = name
      · rw [findEntry_eq_none (hname ▸ hes.1), if_pos hname, if_pos hname]
        rfl
      · rw [if_neg hname, if_neg hname]

/-- Of a library with unique names every stub is registered. -/
theorem lookup?_addLibrary {lib : StubLibrary ι} (hlib : (lib.entries.map Prod.fst).Nodup)
    (env : Environment ι) (name : String) :
    (env.addLibrary lib).lookup? name
      = ((lib.get? name).map (Symbol.stub lib.name name)).or (env.lookup? name) := by
  have hfold : env.addLibrary lib
      = (lib.entries.map fun e => (e.1, Symbol.stub lib.name e.1 e.2)).foldl
          (fun env e => env.register e.1 e.2) env := by
    rw [List.foldl_map]
    rfl
  have hnames : ((lib.entries.map fun e => (e.1, Symbol.stub lib.name e.1 e.2)).map
      Prod.fst).Nodup := by
    rwa [List.map_map]
  rw [hfold, lookup?_registerAll hnames, findEntry_map (Symbol.stub lib.name)]
  rfl

end Environment

/-! ## Linking -/

/-- The function that a module exports under a name. -/
def LoadedModule.function? (m : LoadedModule ι) (name : String) : Option (Func ι) :=
  (m.lookup? name).bind Item.func?

/-- A symbol as a function; a stub takes the type that is asked for. -/
def Symbol.toFunc (type : FuncType) : Symbol ι → Func ι
  | .stub _ name behaviour => .stub name behaviour type
  | .exported _ func => func

/-- The function that an import of a name and a type is linked to: the one that the first of some
    modules exports, or else the entry of the last library that has one. -/
def linked? (libs : List (StubLibrary ι)) (candidates : List (LoadedModule ι)) (name : String)
    (type : FuncType) : Option (Func ι) :=
  match candidates.findSome? (·.function? name) with
  | some func => some func
  | none => (libs.reverse.findSome? (·.get? name)).map fun stub => .stub name stub type

/-- The environment answers as the libraries and the modules, in the order in which these are
    listed. -/
def Environment.Links (env : Environment ι) (libs : List (StubLibrary ι))
    (candidates : List (LoadedModule ι)) : Prop :=
  ∀ name type, (env.lookup? name).map (Symbol.toFunc type) = linked? libs candidates name type

namespace Environment

variable {libs : List (StubLibrary ι)} {candidates : List (LoadedModule ι)} {env : Environment ι}

/-- The first symbol that the libraries have under a name is that of the first stub there. -/
theorem toFunc_findSome? (libs : List (StubLibrary ι)) (name : String) (type : FuncType) :
    (libs.findSome? fun lib => (lib.get? name).map (Symbol.stub lib.name name)).map
        (Symbol.toFunc type)
      = (libs.findSome? (·.get? name)).map fun stub => .stub name stub type := by
  induction libs with
  | nil => rfl
  | cons lib libs ih =>
      rw [List.findSome?_cons, List.findSome?_cons]
      rcases lib.get? name with _ | stub
      · exact ih
      · rfl

theorem lookup?_flatten (hlibs : ∀ lib ∈ libs, (lib.entries.map Prod.fst).Nodup)
    (env : Environment ι) (name : String) :
    (env.flatten libs).lookup? name
      = (libs.reverse.findSome? fun lib => (lib.get? name).map (Symbol.stub lib.name name)).or
          (env.lookup? name) := by
  induction libs generalizing env with
  | nil => rfl
  | cons lib libs ih =>
      rw [List.forall_mem_cons] at hlibs
      rw [flatten, List.foldl_cons, ← flatten, ih hlibs.2, lookup?_addLibrary hlibs.1,
        List.reverse_cons, List.findSome?_append, Option.or_assoc, List.findSome?_singleton]

/-- The stub libraries alone: the last one that has a name counts. -/
theorem links_flatten (hlibs : ∀ lib ∈ libs, (lib.entries.map Prod.fst).Nodup) :
    (empty.flatten libs : Environment ι).Links libs [] := by
  intro name type
  rw [lookup?_flatten hlibs, show (empty : Environment ι).lookup? name = none from rfl,
    Option.or_none, toFunc_findSome?]
  rfl

theorem lookup?_addExports {m : LoadedModule ι} (hm : (m.exports.map Prod.fst).Nodup)
    (env : Environment ι) (name : String) :
    (env.addExports m.name m.funcs).lookup? name
      = ((m.function? name).map (Symbol.exported m.name)).or (env.lookup? name) := by
  have hfold : env.addExports m.name m.funcs
      = (m.funcs.map fun e => (e.1, Symbol.exported m.name e.2)).foldl
          (fun env e => env.register e.1 e.2) env := by
    rw [List.foldl_map]
    rfl
  have hsub : (m.funcs.map Prod.fst).Sublist (m.exports.map Prod.fst) := by
    refine map_filterMap_sublist (fun e b hb => ?_) _
    obtain ⟨func, -, rfl⟩ := Option.map_eq_some_iff.1 hb
    rfl
  have hnames : ((m.funcs.map fun e => (e.1, Symbol.exported m.name e.2)).map Prod.fst).Nodup := by
    rw [List.map_map]
    exact hsub.nodup hm
  rw [hfold, lookup?_registerAll hnames, findEntry_map (fun _ => Symbol.exported m.name),
    LoadedModule.funcs, findEntry_filterMap Item.func? hm]
  rfl

/-- Merging the exports of a module puts it in front of the modules that were merged before. -/
theorem Links.addExports (henv : env.Links libs candidates) {m : LoadedModule ι}
    (hm : (m.exports.map Prod.fst).Nodup) :
    (env.addExports m.name m.funcs).Links libs (m :: candidates) := by
  intro name type
  rw [lookup?_addExports hm, linked?, List.findSome?_cons]
  rcases m.function? name with _ | func
  · exact henv name type
  · rfl

end Environment

end WasmHost
