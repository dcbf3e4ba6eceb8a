import WasmHost.Engine
import WasmHost.Proofs.Loader.Loading

set_option autoImplicit false

/-! # The history of a run

Code changes what the host keeps only by calling stubs. The history of a run lists these calls in
order, each with all that it depended on. A stub may load a module, and the calls that the start
function of that module makes are the inner history of the call; `flattenAll` lists them too, before
the call that they belong to.

`Engine.invoke_traces` is the induction on the nesting of calls: what holds of each call of a stub,
given that it holds of the load that the stub makes, holds of every run. -/

namespace WasmHost

variable {ι : Type}

/-! ## Calls -/

/-- A call of a stub. -/
structure StubCall (ι : Type) where
  name : String
  stub : Stub ι
  type : FuncType
  /-- The exports of the module that calls. -/
  exports : List (String × Item ι)
  /-- How many calls may be nested in it. -/
  depth : Nat
  args : List Value
  /-- The machine at the time of the call. -/
  before : Machine ι
  /-- The calls made by the module that the stub loads. -/
  inner : List (StubCall ι)

mutual

/-- The calls inside a call, and then the call. -/
def StubCall.flatten : StubCall ι → List (StubCall ι)
  | ⟨name, stub, type, exports, depth, args, before, inner⟩ =>
      flattenAll inner ++ [⟨name, stub, type, exports, depth, args, before, inner⟩]

/-- All calls of a history at any depth, in the order in which they end. -/
def flattenAll : List (StubCall ι) → List (StubCall ι)
  | [] => []
  | c :: cs => c.flatten ++ flattenAll cs

end

theorem StubCall.flatten_eq (c : StubCall ι) : c.flatten = flattenAll c.inner ++ [c] := by
  cases c
  rw [StubCall.flatten]

theorem flattenAll_append (cs ds : List (StubCall ι)) :
    flattenAll (cs ++ ds) = flattenAll cs ++ flattenAll ds := by
  induction cs with
  | nil => rfl
  | cons c cs ih => rw [List.cons_append, flattenAll, flattenAll, ih, List.append_assoc]

theorem flattenAll_singleton (c : StubCall ι) : flattenAll [c] = flattenAll c.inner ++ [c] := by
  rw [flattenAll, flattenAll, List.append_nil, c.flatten_eq]

theorem forall_flattenAll_append {P : StubCall ι → Prop} {cs ds : List (StubCall ι)} :
    (∀ c ∈ flattenAll (cs ++ ds), P c)
      ↔ (∀ c ∈ flattenAll cs, P c) ∧ ∀ c ∈ flattenAll ds, P c := by
  rw [flattenAll_append, List.forall_mem_append]

theorem forall_flattenAll_singleton {P : StubCall ι → Prop} {c : StubCall ι} :
    (∀ d ∈ flattenAll [c], P d) ↔ (∀ d ∈ flattenAll c.inner, P d) ∧ P c := by
  rw [flattenAll_singleton, List.forall_mem_append, List.forall_mem_singleton]

mutual

theorem StubCall.mem_flatten {c d : StubCall ι} (h : c ∈ d.flatten) :
    c = d ∨ ∃ d' ∈ d.flatten, c ∈ d'.inner := by
  match d with
  | ⟨name, stub, type, exports, depth, args, before, inner⟩ =>
      rw [StubCall.flatten] at h ⊢
      rcases List.mem_append.1 h with h | h
      · rcases mem_flattenAll h with h | ⟨d', hd', h⟩
        · exact .inr ⟨_, List.mem_append_right _ (List.mem_singleton.2 rfl), h⟩
        · exact .inr ⟨d', List.mem_append_left _ hd', h⟩
      · exact .inl (List.mem_singleton.1 h)

/-- A call in a history is one of those that are listed, or is made inside another one. -/
theorem mem_flattenAll {c : StubCall ι} {cs : List (StubCall ι)} (h : c ∈ flattenAll cs) :
    c ∈ cs ∨ ∃ d ∈ flattenAll cs, c ∈ d.inner := by
  match cs with
  | [] => cases h
  | d :: cs =>
      rw [flattenAll] at h ⊢
      rcases List.mem_append.1 h with h | h
      · rcases StubCall.mem_flatten h with rfl | ⟨d', hd', h⟩
        · exact .inl List.mem_cons_self
        · exact .inr ⟨d', List.mem_append_left _ hd', h⟩
      · rcases mem_flattenAll h with h | ⟨d', hd', h⟩
        · exact .inl (List.mem_cons_of_mem _ h)
        · exact .inr ⟨d', List.mem_append_right _ hd', h⟩

end

/-- The call again, on the machine at the time of the call. -/
def StubCall.run (e : Engine ι) (c : StubCall ι) : Except Failure (List Value) × Machine ι :=
  e.callStub c.name c.stub c.type ⟨c.exports, loadModule (e.invoke c.depth)⟩ c.args c.before

/-! ## Recording -/

/-- Which module an implementation loads, if any, before it does anything else. -/
abbrev Loads (ι : Type) := ι → List Value → Machine ι → Option String

/-- The module that a stub loads. -/
def Stub.loaded? (loads : Loads ι) (args : List Value) (m : Machine ι) : Stub ι → Option String
  | .placeholder => none
  | .implemented f => loads f args m

namespace Engine

/-- The history of a call on behalf of a module with the given exports. -/
def record (e : Engine ι) (loads : Loads ι) :
    (depth : Nat) → List (String × Item ι) → Recorder ι (StubCall ι)
  | 0, _, _, _, _ => []
  | depth + 1, exports, f, args, m =>
      match f with
      | .stub name stub type =>
          [⟨name, stub, type, exports, depth, args, m,
            match stub.loaded? loads args m with
            | none => []
            | some lib => recordLoad (e.record loads depth) lib m⟩]
      | .code owner defn =>
          let inst := m.store.instanceAt owner
          defn.record e.loopFuel (e.invoke depth inst.exports) (e.record loads depth inst.exports)
            inst args m

/-- The calls that the module makes which a call loads. -/
def innerHistory (e : Engine ι) (loads : Loads ι) (c : StubCall ι) : List (StubCall ι) :=
  match c.stub.loaded? loads c.args c.before with
  | none => []
  | some lib => recordLoad (e.record loads c.depth) lib c.before

theorem innerHistory_of_none {e : Engine ι} {loads : Loads ι} {c : StubCall ι}
    (h : c.stub.loaded? loads c.args c.before = none) : e.innerHistory loads c = [] := by
  rw [innerHistory, h]

theorem innerHistory_of_some {e : Engine ι} {loads : Loads ι} {c : StubCall ι} {lib : String}
    (h : c.stub.loaded? loads c.args c.before = some lib) :
    e.innerHistory loads c = recordLoad (e.record loads c.depth) lib c.before := by
  rw [innerHistory, h]

/-- Every load that can be made with so many nested calls has the property. -/
def TracesLoads (e : Engine ι) (loads : Loads ι) (Q : Trace ι (StubCall ι)) (depth : Nat) : Prop :=
  ∀ name m, LoadRun Q name m (recordLoad (e.record loads depth) name m)
    (loadModule (e.invoke depth) name m).1 (loadModule (e.invoke depth) name m).2

/-- Every call of a stub has the property, provided that the loads inside have it. -/
def TracesStubs (e : Engine ι) (loads : Loads ι) (Q : Trace ι (StubCall ι)) : Prop :=
  ∀ c : StubCall ι, c.inner = e.innerHistory loads c → e.TracesLoads loads Q c.depth →
    Q c.before [c] (failureOf (c.run e).1) (c.run e).2

variable {e : Engine ι} {loads : Loads ι} {Q : Trace ι (StubCall ι)}

/-- **What holds of each call of a stub holds of every call.** -/
theorem invoke_traces (hQ : Q.Sequential) (hstubs : e.TracesStubs loads Q) (depth : Nat)
    (exports : List (String × Item ι)) (f : Func ι) (args : List Value) :
    Action.Traces Q (e.invoke depth exports f args) (e.record loads depth exports f args) := by
  -- on the number of calls that may be nested: what a stub loads runs with one less
  induction depth generalizing exports f args with
  | zero => exact .quiet hQ (.ofExcept _)
  | succ depth ih =>
      intro m
      cases f with
      | stub name stub type =>
          exact hstubs ⟨name, stub, type, exports, depth, args, m, _⟩ rfl (loadModule_run hQ ih)
      | code owner defn => exact defn.run_traces hQ (fun f args => ih _ f args) args m

/-- What holds of each call of a stub holds of every load. -/
theorem loadModule_traces (hQ : Q.Sequential) (hstubs : e.TracesStubs loads Q) (depth : Nat) :
    e.TracesLoads loads Q depth :=
  loadModule_run hQ (invoke_traces hQ hstubs depth)

end Engine

/-! ## Chains of calls -/

/-- A history accounts for everything that a run does to the host: between two calls it stays as it
    is, each call but the last gives back values, and if the last one fails the run fails with
    it. -/
inductive Engine.Chain (e : Engine ι) : Trace ι (StubCall ι)
  | quiet {m m' : Machine ι} (failure : Option Failure) (h : m.Quiet m') : Chain e m [] failure m'
  | returned {m m' : Machine ι} {cs : List (StubCall ι)} {failure : Option Failure}
      (c : StubCall ι) (values : List Value) (h : m.Quiet c.before)
      (hrun : (c.run e).1 = .ok values) (hrest : Chain e (c.run e).2 cs failure m') :
      Chain e m (c :: cs) failure m'
  | failed {m : Machine ι} (c : StubCall ι) (failure : Failure) (h : m.Quiet c.before)
      (hrun : (c.run e).1 = .error failure) : Chain e m [c] (some failure) (c.run e).2

namespace Engine.Chain

variable {e : Engine ι} {m m' m'' : Machine ι} {cs ds : List (StubCall ι)}
  {failure : Option Failure}

theorem of_quiet (h : m.Quiet m') (hrest : e.Chain m' cs failure m'') :
    e.Chain m cs failure m'' := by
  cases hrest with
  | quiet _ h' => exact .quiet _ (h.trans h')
  | returned c values h' hrun hrest => exact .returned c values (h.trans h') hrun hrest
  | failed c failure h' hrun => exact .failed c failure (h.trans h') hrun

theorem sequential (e : Engine ι) : e.Chain.Sequential where
  quiet := .quiet
  append h h' := by
    -- the first run did not fail, so a failed call cannot be its last one
    generalize hnone : (none : Option Failure) = ended at h
    induction h with
    | quiet _ hquiet => exact h'.of_quiet hquiet
    | returned c values hquiet hrun _ ih => exact .returned c values hquiet hrun (ih h' hnone)
    | failed => cases hnone

/-- A call that fails ends the run, and the run fails with it. -/
theorem failure_eq (h : e.Chain m cs failure m') {c : StubCall ι} (hc : c ∈ cs) {f : Failure}
    (hrun : (c.run e).1 = .error f) : failure = some f := by
  induction h with
  | quiet => cases hc
  | returned d values _ hd _ ih =>
      rcases List.mem_cons.1 hc with rfl | hc
      · rw [hd] at hrun
        cases hrun
      · exact ih hc
  | failed d failure _ hd =>
      rw [List.mem_singleton.1 hc, hd] at hrun
      rw [Except.error.inj hrun]

end Engine.Chain

/-- **Every run is accounted for by its history.** -/
theorem Engine.invoke_chain (e : Engine ι) (loads : Loads ι) (depth : Nat)
    (exports : List (String × Item ι)) (f : Func ι) (args : List Value) :
    Action.Traces e.Chain (e.invoke depth exports f args)
      (e.record loads depth exports f args) := by
  refine invoke_traces (Chain.sequential e) (fun c _ _ => ?_) depth exports f args
  rcases hrun : (c.run e).1 with failure | values
  · exact .failed c failure .rfl hrun
  · exact .returned c values .rfl hrun (.quiet _ .rfl)

/-! ## Where a failure goes -/

namespace Engine

variable {e : Engine ι} {loads : Loads ι} {c : StubCall ι} {failure : Failure}

/-- A call of a stub that fails makes the call fail in whose history it is. -/
theorem invoke_of_failure {depth : Nat} {exports : List (String × Item ι)} {f : Func ι}
    {args : List Value} {m : Machine ι} (hc : c ∈ e.record loads depth exports f args m)
    (hrun : (c.run e).1 = .error failure) :
    (e.invoke depth exports f args m).1 = .error failure := by
  have hfailure := (e.invoke_chain loads depth exports f args m).failure_eq hc hrun
  rcases hresult : (e.invoke depth exports f args m).1 with failure' | values <;>
    rw [hresult] at hfailure <;> cases hfailure
  rfl

/-- A call of a stub that fails makes the load fail in whose history it is. Of the failure only the
    text is left. -/
theorem loadModule_of_failure {depth : Nat} {name : String} {m : Machine ι}
    (hc : c ∈ recordLoad (e.record loads depth) name m) (hrun : (c.run e).1 = .error failure) :
    (loadModule (e.invoke depth) name m).1 = .error (.instantiationFailed name failure) := by
  have hload := loadModule_run (Chain.sequential e) (e.invoke_chain loads depth) name m
  generalize recordLoad (e.record loads depth) name m = cs,
    (loadModule (e.invoke depth) name m).1 = result,
    (loadModule (e.invoke depth) name m).2 = m' at hc hload ⊢
  -- a load that succeeds has a start function without failures in its history
  cases hload with
  | refused | mistyped => cases hc
  | failed w items cs failure' _ _ hchain =>
      rw [Option.some.inj (hchain.failure_eq hc hrun)]
  | loaded w items cs m' _ hchain => cases hchain.failure_eq hc hrun

end Engine

end WasmHost
