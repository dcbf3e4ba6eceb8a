import Mathlib.Data.List.Forall2
import WasmHost.Proofs.Libc.Failures

set_option autoImplicit false

/-! # Which imports are bound, and what is reported of the others

An import is `Bindable` or not by what the host knows at that moment. Every import is looked at, so
a load that does not get past binding reports one error for each import that is not bindable, in
the order of the imports (`Import.Refused`), and has done nothing else.

The main result is `Libc.imports_bound_together`, for every moment of a run. -/

namespace WasmHost

variable {ι : Type}

/-! ## Types of stubs -/

/-- Parameters that are numbers, and at most one result, which is a number. -/
structure FuncType.Numeric (t : FuncType) : Prop where
  params : ∀ p ∈ t.params, p.isNumeric = true
  results : t.results = [] ∨ ∃ r, t.results = [r] ∧ r.isNumeric = true

theorem FuncType.isBindable_iff (t : FuncType) : t.isBindable = true ↔ t.Numeric := by
  rcases t with ⟨params, results⟩
  rw [isBindable, Bool.and_eq_true, Bool.and_eq_true, List.all_eq_true, decide_eq_true_iff,
    List.all_eq_true]
  constructor
  · rintro ⟨⟨hparams, hlength⟩, hresults⟩
    refine ⟨hparams, ?_⟩
    rcases results with _ | ⟨r, _ | ⟨r', rest⟩⟩
    · exact .inl rfl
    · exact .inr ⟨r, rfl, hresults r List.mem_cons_self⟩
    · simp at hlength
  · rintro ⟨hparams, rfl | ⟨r, rfl, hr⟩⟩
    · exact ⟨⟨hparams, Nat.zero_le _⟩, fun _ h => absurd h List.not_mem_nil⟩
    · exact ⟨⟨hparams, Nat.le_refl _⟩, List.forall_mem_singleton.2 hr⟩

instance (t : FuncType) : Decidable t.Numeric := decidable_of_iff _ t.isBindable_iff

/-! ## Single imports -/

/-- Whether a symbol can be bound to a function type: any exported function can, and a stub if the
    type is numeric. -/
def Symbol.Fits (type : FuncType) : Symbol ι → Prop
  | .stub _ _ _ => type.Numeric
  | .exported _ _ => True

/-- Whether the host can bind an import. -/
def Import.Bindable (host : Host ι) (imp : Import) : Prop :=
  match imp.desc with
  | .func type =>
      match host.env.lookup? imp.field with
      | some symbol => symbol.Fits type
      | none => False
  | .memory _ => True
  | .table _ | .global _ => False

/-- What an import is bound to. -/
inductive Import.BoundTo (host : Host ι) (imp : Import) : Item ι → Prop where
  | stub (type : FuncType) (library name : String) (behaviour : Stub ι)
      (hdesc : imp.desc = .func type)
      (hsymbol : host.env.lookup? imp.field = some (.stub library name behaviour)) :
      BoundTo host imp (.func (.stub name behaviour type))
  | exported (type : FuncType) (moduleName : String) (func : Func ι)
      (hdesc : imp.desc = .func type)
      (hsymbol : host.env.lookup? imp.field = some (.exported moduleName func)) :
      BoundTo host imp (.func func)
  | memory (limits : Limits) (addr : Nat) (hdesc : imp.desc = .memory limits)
      (hactive : host.arena.active = .ok addr) : BoundTo host imp (.memory addr)

/-- The error of an import that is not bound. -/
inductive Import.Refused (host : Host ι) (imp : Import) : LinkError → Prop where
  /-- The environment has no symbol of the name. -/
  | unresolved (type : FuncType) (hdesc : imp.desc = .func type)
      (hnone : host.env.lookup? imp.field = none) :
      Refused host imp (.mk (.unresolvedImport imp.moduleName imp.field) [])
  /-- The symbol is a stub, and the type is not numeric. How the type is shown is left open. -/
  | signature (type : FuncType) (library name : String) (behaviour : Stub ι) (shown : String)
      (hdesc : imp.desc = .func type)
      (hsymbol : host.env.lookup? imp.field = some (.stub library name behaviour))
      (htype : ¬ type.Numeric) : Refused host imp (.mk (.stubSignature name shown) [])
  /-- Tables and globals are not supported. -/
  | unsupported (hkind : imp.desc.kind = .table ∨ imp.desc.kind = .global) :
      Refused host imp
        (.mk (.unsupportedImport imp.moduleName imp.field imp.desc.kind.name) [])

instance (type : FuncType) (symbol : Symbol ι) : Decidable (symbol.Fits type) :=
  match symbol with
  | .stub _ _ _ => inferInstanceAs (Decidable type.Numeric)
  | .exported _ _ => inferInstanceAs (Decidable True)

instance (host : Host ι) (imp : Import) : Decidable (imp.Bindable host) :=
  match imp with
  | ⟨_, field, .func type⟩ =>
      match h : host.env.lookup? field with
      | some symbol => decidable_of_iff (symbol.Fits type) (by simp only [Import.Bindable, h])
      | none => .isFalse (by simp only [Import.Bindable, h, not_false_eq_true])
  | ⟨_, _, .memory _⟩ => inferInstanceAs (Decidable True)
  | ⟨_, _, .table _⟩ | ⟨_, _, .global _⟩ => inferInstanceAs (Decidable False)

section

variable {host : Host ι}

theorem Host.resolveImport_of_bindable (hactive : ∃ addr, host.arena.active = .ok addr)
    {imp : Import} (h : imp.Bindable host) :
    ∃ item, host.resolveImport imp = .ok item ∧ imp.BoundTo host item := by
  rcases imp with ⟨moduleName, field, desc⟩
  cases desc with
  | func type =>
      rcases hsymbol : host.env.lookup? field with _ | symbol <;>
        simp only [Import.Bindable, hsymbol] at h
      simp only [resolveImport, hsymbol]
      cases symbol with
      | stub library name behaviour =>
          rw [Symbol.bind, if_pos (type.isBindable_iff.2 h)]
          exact ⟨_, rfl, .stub type library name behaviour rfl hsymbol⟩
      | exported owner func => exact ⟨_, rfl, .exported type owner func rfl hsymbol⟩
  | memory limits =>
      obtain ⟨addr, hactive⟩ := hactive
      simp only [resolveImport, hactive]
      exact ⟨_, rfl, .memory limits addr rfl hactive⟩
  | table | global => exact h.elim

theorem Host.resolveImport_of_not_bindable {imp : Import} (h : ¬ imp.Bindable host) :
    ∃ err, host.resolveImport imp = .error err ∧ imp.Refused host err := by
  rcases imp with ⟨moduleName, field, desc⟩
  cases desc with
  | func type =>
      rcases hsymbol : host.env.lookup? field with _ | symbol <;>
        simp only [Import.Bindable, hsymbol] at h <;> simp only [resolveImport, hsymbol]
      · exact ⟨_, rfl, .unresolved type rfl hsymbol⟩
      · cases symbol with
        | stub library name behaviour =>
            rw [Symbol.bind, if_neg (mt type.isBindable_iff.1 h)]
            exact ⟨_, rfl, .signature type library name behaviour _ rfl hsymbol h⟩
        | exported owner func => exact absurd trivial h
  | memory limits => exact absurd trivial h
  | table limits => exact ⟨_, rfl, .unsupported (.inl rfl)⟩
  | global type => exact ⟨_, rfl, .unsupported (.inr rfl)⟩

/-- The error of a single import never says that an instantiation has failed. -/
theorem Import.Refused.ne_instantiateFail {imp : Import} {err : LinkError}
    (h : imp.Refused host err) (name reason : String) :
    err ≠ LinkError.ofKind (.instantiateFail name reason) := by
  cases h <;> rintro ⟨⟩

end

/-! ## All imports of a module -/

/-- What is collected of results of which those without a property fail: their errors in order. -/
theorem LinkError.failures_map {α β : Type} {f : α → Except LinkError β} {P : α → Prop}
    [DecidablePred P] {R : α → LinkError → Prop} (hok : ∀ a, P a → ∃ b, f a = .ok b)
    (herror : ∀ a, ¬ P a → ∃ err, f a = .error err ∧ R a err) (as : List α) :
    List.Forall₂ R (as.filter fun a => ¬ P a) (failures (as.map f)) := by
  induction as with
  | nil => exact .nil
  | cons a as ih =>
      rw [List.map_cons, failures, List.filterMap_cons, ← failures]
      by_cases ha : P a
      · obtain ⟨b, hb⟩ := hok a ha
        rw [List.filter_cons_of_neg (by simpa using ha), hb]
        exact ih
      · obtain ⟨err, herr, hR⟩ := herror a ha
        rw [List.filter_cons_of_pos (by simpa using ha), herr]
        exact .cons hR ih

namespace Host

variable {host : Host ι}

/-- If every import can be bound, each is bound. -/
theorem bindImports_of_bindable (hactive : ∃ addr, host.arena.active = .ok addr) (name : String)
    {imports : List Import} (h : ∀ imp ∈ imports, imp.Bindable host) :
    ∃ items, host.bindImports name imports = .ok items
      ∧ List.Forall₂ (Import.BoundTo host) imports items := by
  suffices hitems : ∃ items, imports.map host.resolveImport = items.map .ok
      ∧ List.Forall₂ (Import.BoundTo host) imports items by
    obtain ⟨items, hresults, hbound⟩ := hitems
    refine ⟨items, ?_, hbound⟩
    rw [bindImports, hresults, LinkError.collect_map_ok]
  induction imports with
  | nil => exact ⟨[], rfl, .nil⟩
  | cons imp imports ih =>
      obtain ⟨himp, himports⟩ := List.forall_mem_cons.1 h
      obtain ⟨item, hitem, hbound⟩ := resolveImport_of_bindable hactive himp
      obtain ⟨items, hitems, hrest⟩ := ih himports
      exact ⟨item :: items, by rw [List.map_cons, List.map_cons, hitem, hitems], .cons hbound hrest⟩

/-- Otherwise each import that cannot be bound is reported. -/
theorem bindImports_of_not_bindable (hactive : ∃ addr, host.arena.active = .ok addr)
    (name : String) {imports : List Import} (h : ¬ ∀ imp ∈ imports, imp.Bindable host) :
    ∃ errors, host.bindImports name imports = .error (.mk (.loadFailure name) errors)
      ∧ List.Forall₂ (Import.Refused host) (imports.filter fun imp => ¬ imp.Bindable host)
          errors := by
  have hfailures := LinkError.failures_map (f := host.resolveImport) (R := Import.Refused host)
    (fun imp himp => (resolveImport_of_bindable hactive himp).imp fun _ h => h.1)
    (fun imp himp => resolveImport_of_not_bindable himp) imports
  refine ⟨_, LinkError.collect_of_failures _ (fun hnil => h fun imp himp => ?_), hfailures⟩
  -- without failures nothing is left of the imports once the bindable ones are taken away
  rw [hnil, List.forall₂_nil_right_iff, List.filter_eq_nil_iff] at hfailures
  simpa using hfailures imp himp

end Host

/-! ## Loads -/

/-- A load has come to instantiation: it gives a module, or the instantiation has failed. -/
def PastBinding (name : String) (result : Except LinkError (LoadedModule ι)) : Prop :=
  (∃ loaded, result = .ok loaded) ∨ ∃ failure, result = .error (.instantiationFailed name failure)

section

variable {m : Machine ι} {name : String} {object : ModuleObject} {w : WasmModule}

/-- Once a module has been fetched and parsed, only its imports decide whether it is accepted. -/
theorem Host.accept_of_parse {host : Host ι} (hsource : host.source name = .ok object)
    (hparse : object.parse name = .ok w) :
    host.accept name = (host.bindImports name w.imports).map fun items => (w, items) := by
  simp only [accept, hsource, hparse]

/-- A module of which every import can be bound is accepted. -/
theorem Host.accept_of_bindable {host : Host ι} (hactive : ∃ addr, host.arena.active = .ok addr)
    (hsource : host.source name = .ok object) (hparse : object.parse name = .ok w)
    (h : ∀ imp ∈ w.imports, imp.Bindable host) :
    ∃ items, host.accept name = .ok (w, items)
      ∧ List.Forall₂ (Import.BoundTo host) w.imports items := by
  obtain ⟨items, hitems, hbound⟩ := bindImports_of_bindable hactive name h
  refine ⟨items, ?_, hbound⟩
  rw [accept_of_parse hsource hparse, hitems]
  rfl

/-- Otherwise its load stops there, and each import that cannot be bound is reported. -/
theorem loadModule_of_not_bindable (hactive : ∃ addr, m.host.arena.active = .ok addr)
    (hsource : m.host.source name = .ok object) (hparse : object.parse name = .ok w)
    (h : ¬ ∀ imp ∈ w.imports, imp.Bindable m.host) :
    ∃ errors, (∀ calls : Caller.Calls ι, loadModule calls name m
        = (.error (.mk (.loadFailure name) errors), m.requesting name))
      ∧ List.Forall₂ (Import.Refused m.host)
          (w.imports.filter fun imp => ¬ imp.Bindable m.host) errors := by
  obtain ⟨errors, herrors, hrefused⟩ := Host.bindImports_of_not_bindable hactive name h
  refine ⟨errors, fun calls => ?_, hrefused⟩
  rw [loadModule_apply, Host.accept_of_parse hsource hparse, herrors]
  rfl

theorem pastBinding_of_accept {items : List (Item ι)} (calls : Caller.Calls ι)
    (haccept : m.host.accept name = .ok (w, items)) :
    PastBinding name (loadModule calls name m).1 := by
  rw [loadModule_apply, haccept]
  dsimp only
  rcases w.instantiate calls items (m.requesting name) with ⟨failure | addr, m'⟩
  · exact .inr ⟨failure, rfl⟩
  · exact .inl ⟨_, rfl⟩

/-- The errors of imports are not the error of an instantiation. -/
theorem not_pastBinding {imports : List Import} {errors : List LinkError}
    (h : List.Forall₂ (Import.Refused m.host) imports errors) :
    ¬ PastBinding name (.error (.mk (.loadFailure name) errors) : Except _ (LoadedModule ι)) := by
  rintro (⟨loaded, hok⟩ | ⟨failure, herror⟩)
  · cases hok
  · cases herror
    obtain ⟨imp, -, hrefused, -⟩ := List.forall₂_cons_right_iff.1 h
    exact hrefused.ne_instantiateFail name failure.message rfl

end

namespace Libc

/-- **Imports are bound together.** At every moment of a run, whatever it means to call a function,
    the load of a module that has been fetched and parsed gets past binding if and only if each of
    its imports can be bound. Then the items that the imports are bound to are known before anything
    is instantiated. Otherwise there is one error for each import that cannot be bound, in order,
    and nothing has been called or changed: of the load it is only noted that the source was
    asked. -/
theorem imports_bound_together [Budget] {config : Config} {source : ModuleSource ModuleObject}
    {sink : Sink} {start : Run Function} (hstart : Run.start config source sink = .ok start)
    {requests : List (Run.Request Function)} {m : Machine Function}
    (hm : Run.Moment engine loads requests start m) {name : String} {object : ModuleObject}
    {w : WasmModule} (hsource : m.host.source name = .ok object)
    (hparse : object.parse name = .ok w) :
    (∀ calls : Caller.Calls Function, PastBinding name (loadModule calls name m).1
        ↔ ∀ imp ∈ w.imports, imp.Bindable m.host)
      ∧ ((∀ imp ∈ w.imports, imp.Bindable m.host) →
          ∃ items, m.host.accept name = .ok (w, items)
            ∧ List.Forall₂ (Import.BoundTo m.host) w.imports items)
      ∧ ((¬ ∀ imp ∈ w.imports, imp.Bindable m.host) →
          ∃ errors, (∀ calls : Caller.Calls Function, loadModule calls name m
              = (.error (.mk (.loadFailure name) errors), m.requesting name))
            ∧ List.Forall₂ (Import.Refused m.host)
                (w.imports.filter fun imp => ¬ imp.Bindable m.host) errors) := by
  obtain ⟨addr, contents, hmemory⟩ := active_of_moment hstart hm
  have hactive : ∃ addr, m.host.arena.active = .ok addr :=
    ⟨addr, (Action.active_of_activeMemory hmemory).1⟩
  have hbound := Host.accept_of_bindable hactive hsource hparse
  have hrefused := loadModule_of_not_bindable hactive hsource hparse
  refine ⟨fun calls => ⟨fun hpast => ?_, fun h => ?_⟩, hbound, hrefused⟩
  · by_contra h
    obtain ⟨errors, hload, herrors⟩ := hrefused h
    rw [hload] at hpast
    exact not_pastBinding herrors hpast
  · obtain ⟨items, hitems, -⟩ := hbound h
    exact pastBinding_of_accept calls hitems

/-- A library with one import of every sort. Of its two functions one is missing, and the other one
    is a stub that cannot return a pair. -/
def mixedLibrary : WasmModule :=
  { WasmModule.empty with
    imports := [
      ⟨"env", "table", .table ⟨0, none⟩⟩,
      ⟨"env", "memory", .memory ⟨1, none⟩⟩,
      ⟨"env", "puts", .func ⟨[.i32], [.i32]⟩⟩,
      ⟨"env", "nothing", .func ⟨[], []⟩⟩,
      ⟨"env", "puts", .func ⟨[.i32], [.i32, .i32]⟩⟩] }

/-- Three of the five imports fail. -/
theorem imports_bound_together_mixed :
    let start : Run Function :=
      ⟨.initial ⟨1, 16384, "main", []⟩ (twoModules openingProgram mixedLibrary) .accepting,
        .initializing, [], none⟩
    let requests : List (Run.Request Function) := [.addStubs [Tables.stdio]]
    ∃ m, Run.Moment engine loads requests start m
      ∧ m.host.source "lib" = .ok (.parsed mixedLibrary)
      ∧ (ModuleObject.parsed mixedLibrary).parse "lib" = .ok mixedLibrary
      ∧ (mixedLibrary.imports.map fun imp => decide (imp.Bindable m.host))
          = [false, true, true, false, false]
      ∧ ∃ errors shown, loadModule engine.calls "lib" m
            = (.error (.mk (.loadFailure "lib") errors), m.requesting "lib")
          ∧ errors.map LinkError.kind = [.unsupportedImport "env" "table" "table",
              .unresolvedImport "env" "nothing", .stubSignature "puts" shown] := by
  intro start requests
  have hstart : Run.start ⟨1, 16384, "main", []⟩ (twoModules openingProgram mixedLibrary)
      .accepting = .ok start := by
    rw [Run.start_eq, if_pos (by decide)]
  have hm : Run.Moment engine loads requests start
      ((Run.Request.addStubs [Tables.stdio]).perform engine start).2.machine :=
    .answered ⟨start, .addStubs [Tables.stdio], _, _⟩ List.mem_cons_self
  generalize hmachine : ((Run.Request.addStubs [Tables.stdio]).perform engine start).2.machine = m
    at hm
  have hsource : m.host.source "lib" = .ok (.parsed mixedLibrary) := by
    rw [← hmachine]
    rfl
  have hparse : (ModuleObject.parsed mixedLibrary).parse "lib" = .ok mixedLibrary := by
    rfl
  have hbindable : (mixedLibrary.imports.map fun imp => decide (imp.Bindable m.host))
      = [false, true, true, false, false] := by
    rw [← hmachine]
    decide +kernel
  have hrefused : ¬ ∀ imp ∈ mixedLibrary.imports, imp.Bindable m.host := by
    rw [← hmachine]
    decide +kernel
  obtain ⟨errors, hload, -⟩ := (imports_bound_together hstart hm hsource hparse).2.2 hrefused
  have hkinds : (match (loadModule engine.calls "lib" m).1 with
      | .ok _ => []
      | .error err => err.related.map LinkError.kind)
      = [.unsupportedImport "env" "table" "table", .unresolvedImport "env" "nothing",
          .stubSignature "puts" (FuncType.show ⟨[.i32], [.i32, .i32]⟩)] := by
    rw [← hmachine]
    decide +kernel
  rw [hload] at hkinds
  exact ⟨m, hm, hsource, hparse, hbindable, errors, _, hload engine.calls, hkinds⟩

end Libc

end WasmHost
