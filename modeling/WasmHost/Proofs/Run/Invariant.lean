import WasmHost.Proofs.Engine.Extension
import WasmHost.Proofs.Run.History
import WasmHost.Proofs.Run.Requests

set_option autoImplicit false

/-! # Invariants

An invariant is a property of machines that no single step breaks (`Engine.Preserves`). What is asked
of the loads may depend on which loads are made, since what a module exports decides what the host
does with it. A property that is preserved holds at every stage of every load in a history, and
before and after every call of a stub, at any depth (`Engine.Throughout`). -/

namespace WasmHost

variable {ι : Type}

/-! ## Loads -/

/-- The load of a module. -/
structure ModuleLoad (ι : Type) where
  name : String
  /-- How many calls may be nested in it. -/
  depth : Nat
  /-- The machine at the time of the load. -/
  before : Machine ι

namespace ModuleLoad

/-- The load again, on the machine at the time of the load. -/
def run (e : Engine ι) (l : ModuleLoad ι) : Except LinkError (LoadedModule ι) × Machine ι :=
  loadModule (e.invoke l.depth) l.name l.before

/-- The machine after the source has been asked for the module. -/
def requested (l : ModuleLoad ι) : Machine ι := l.before.requesting l.name

/-- The module and the items that its imports are bound to. -/
def accepted (l : ModuleLoad ι) : Except LinkError (WasmModule × List (Item ι)) :=
  l.before.host.accept l.name

/-- The calls that the start function of the module makes. -/
def record (e : Engine ι) (loads : Loads ι) (l : ModuleLoad ι) : List (StubCall ι) :=
  recordLoad (e.record loads l.depth) l.name l.before

end ModuleLoad

/-- The load that a call makes, if it makes one. -/
def StubCall.load? (loads : Loads ι) (c : StubCall ι) : Option (ModuleLoad ι) :=
  (c.stub.loaded? loads c.args c.before).map fun name => ⟨name, c.depth, c.before⟩

/-- The loads that are made in a history, at any depth. -/
def loadsIn (loads : Loads ι) (cs : List (StubCall ι)) : List (ModuleLoad ι) :=
  (flattenAll cs).filterMap (StubCall.load? loads)

theorem loadsIn_append (loads : Loads ι) (cs ds : List (StubCall ι)) :
    loadsIn loads (cs ++ ds) = loadsIn loads cs ++ loadsIn loads ds := by
  rw [loadsIn, flattenAll_append, List.filterMap_append]
  rfl

theorem loadsIn_singleton (loads : Loads ι) (c : StubCall ι) :
    loadsIn loads [c] = loadsIn loads c.inner ++ (c.load? loads).toList := by
  rw [loadsIn, flattenAll_singleton, List.filterMap_append, loadsIn, List.filterMap_cons]
  rcases c.load? loads with _ | l <;> rfl

/-- The loads of modules that are loaded one after the other. -/
def Engine.startupLoads (e : Engine ι) : List String → Machine ι → List (ModuleLoad ι)
  | [], _ => []
  | name :: names, m =>
      ⟨name, e.callDepth, m⟩ :: (e.load name).andThen (fun loaded m' =>
        e.startupLoads names (m'.merging loaded)) m

/-! ## Invariants -/

/-- No step breaks the property: neither running code, nor the host, nor a stub, nor a load that is
    admitted. -/
structure Engine.Preserves (e : Engine ι) (loads : Loads ι) (admitted : ModuleLoad ι → Prop)
    (P : Machine ι → Prop) : Prop where
  quiet {m m' : Machine ι} (h : m.Quiet m') (hm : P m) : P m'
  requesting (m : Machine ι) (name : String) (hm : P m) : P (m.requesting name)
  allocating (l : ModuleLoad ι) (hl : admitted l) (w : WasmModule) (items : List (Item ι))
    (haccept : l.accepted = .ok (w, items)) (hm : P l.requested) :
    P (l.requested.allocating w items)
  /-- The instance is in place when the load comes to its end. -/
  finishing (l : ModuleLoad ι) (hl : admitted l) (w : WasmModule) (items : List (Item ι))
    (haccept : l.accepted = .ok (w, items)) (hbefore : P l.before) (m : Machine ι)
    (hrun : l.run e = (.ok (m.finishLoad l.name l.before.store.instances.size).1,
      (m.finishLoad l.name l.before.store.instances.size).2))
    (hinst : m.store.instanceAt l.before.store.instances.size = w.newInstance l.before.store items)
    (hm : P m) : P (m.finishLoad l.name l.before.store.instances.size).2
  /-- A call that loads nothing. -/
  call (c : StubCall ι) (hload : c.stub.loaded? loads c.args c.before = none) (hm : P c.before) :
    P (c.run e).2
  /-- What a call does after it has loaded a module, or failed to. -/
  opening (c : StubCall ι) (l : ModuleLoad ι) (hload : c.load? loads = some l)
    (hm : P (l.run e).2) : P (c.run e).2
  linking (m : Machine ι) (libs : List (StubLibrary ι)) (hm : P m) : P (m.linking libs)
  merging (m : Machine ι) (loaded : LoadedModule ι) (hm : P m) : P (m.merging loaded)
  reporting (m : Machine ι) (outcome : Outcome) (hm : P m) : P (m.reporting outcome)

/-- The property holds at every stage of the load. -/
structure ModuleLoad.Holds (e : Engine ι) (P : Machine ι → Prop) (l : ModuleLoad ι) : Prop where
  before : P l.before
  requested : P l.requested
  allocated (w : WasmModule) (items : List (Item ι)) (h : l.accepted = .ok (w, items)) :
    P (l.requested.allocating w items)
  after : P (l.run e).2

/-- The property holds before and after every call of a history, and at every stage of every load
    in it. -/
structure Engine.Holds (e : Engine ι) (loads : Loads ι) (P : Machine ι → Prop)
    (cs : List (StubCall ι)) : Prop where
  calls : ∀ c ∈ flattenAll cs, P c.before ∧ P (c.run e).2
  loads : ∀ l ∈ loadsIn loads cs, l.Holds e P

/-- If the loads in a history are admitted, a property that holds at its start holds throughout. -/
def Engine.Throughout (e : Engine ι) (loads : Loads ι) (admitted : ModuleLoad ι → Prop)
    (P : Machine ι → Prop) : Trace ι (StubCall ι) := fun m cs _ m' =>
  m.Extends m' ∧ ((∀ l ∈ loadsIn loads cs, admitted l) → P m → e.Holds loads P cs ∧ P m')

namespace Engine

variable {e : Engine ι} {loads : Loads ι} {admitted : ModuleLoad ι → Prop} {P : Machine ι → Prop}

theorem Holds.nil : e.Holds loads P [] :=
  ⟨fun _ h => absurd h List.not_mem_nil, fun _ h => absurd h List.not_mem_nil⟩

theorem Holds.append {cs ds : List (StubCall ι)} (h : e.Holds loads P cs)
    (h' : e.Holds loads P ds) : e.Holds loads P (cs ++ ds) where
  calls := forall_flattenAll_append.2 ⟨h.calls, h'.calls⟩
  loads := by
    rw [loadsIn_append]
    exact List.forall_mem_append.2 ⟨h.loads, h'.loads⟩

theorem Throughout.sequential (hP : e.Preserves loads admitted P) :
    (e.Throughout loads admitted P).Sequential where
  quiet _ h := ⟨h.extends, fun _ hm => ⟨.nil, hP.quiet h hm⟩⟩
  append h h' := by
    refine ⟨h.1.trans h'.1, fun hadmitted hm => ?_⟩
    rw [loadsIn_append, List.forall_mem_append] at hadmitted
    obtain ⟨hcs, hm'⟩ := h.2 hadmitted.1 hm
    obtain ⟨hds, hm''⟩ := h'.2 hadmitted.2 hm'
    exact ⟨hcs.append hds, hm''⟩

/-- A load preserves what its start function preserves. -/
theorem Throughout.of_loadRun (hP : e.Preserves loads admitted P) (l : ModuleLoad ι)
    (h : LoadRun (e.Throughout loads admitted P) l.name l.before (l.record e loads) (l.run e).1
      (l.run e).2)
    (hl : admitted l) (hadmitted : ∀ l' ∈ loadsIn loads (l.record e loads), admitted l')
    (hm : P l.before) : e.Holds loads P (l.record e loads) ∧ l.Holds e P := by
  have hrequested := hP.requesting l.before l.name hm
  have hallocated (w : WasmModule) (items : List (Item ι)) (haccept : l.accepted = .ok (w, items)) :=
    hP.allocating l hl w items haccept hrequested
  have hholds (h : P (l.run e).2) : l.Holds e P := ⟨hm, hrequested, hallocated, h⟩
  generalize hcs : l.record e loads = cs at h hadmitted ⊢
  generalize hresult : (l.run e).1 = result, hafter : (l.run e).2 = m' at h
  cases h with
  | refused | mistyped => exact ⟨.nil, hholds (hafter ▸ hrequested)⟩
  | failed w items cs failure m' haccept hrun =>
      obtain ⟨hcs, hm'⟩ := hrun.2 hadmitted (hallocated w items haccept)
      exact ⟨hcs, hholds (hafter ▸ hm')⟩
  | loaded w items cs m₁ haccept hrun =>
      obtain ⟨hcs, hm₁⟩ := hrun.2 hadmitted (hallocated w items haccept)
      refine ⟨hcs, hholds ?_⟩
      -- the instance is there before the start function runs, and stays there
      have hnew : (l.requested.allocating w items).store.instances[l.before.store.instances.size]?
          = some (w.newInstance l.before.store items) :=
        Array.getElem?_push_size
      have hinst := hrun.1.instances _ _ hnew
      rw [hafter]
      refine hP.finishing l hl w items haccept hm m₁ (Prod.ext hresult hafter) ?_ hm₁
      rw [Store.instanceAt, Array.getD_eq_getD_getElem?, hinst, Option.getD_some]

/-- **One call.** A stub preserves the property if the loads inside do. -/
theorem Throughout.stubs (he : e.stubs.Lawful) (hP : e.Preserves loads admitted P) :
    e.TracesStubs loads (e.Throughout loads admitted P) := by
  intro c hinner hloads
  refine ⟨callStub_extends he c.name c.stub c.type (fun name => loadModule_extends he c.depth name)
    c.args c.before, fun hadmitted hm => ?_⟩
  rw [loadsIn_singleton, List.forall_mem_append] at hadmitted
  rcases hname : c.stub.loaded? loads c.args c.before with _ | name
  · have hrun := hP.call c hname hm
    refine ⟨⟨forall_flattenAll_singleton.2 ⟨?_, hm, hrun⟩, ?_⟩, hrun⟩
    · rw [hinner, innerHistory_of_none hname]
      exact fun _ h => absurd h List.not_mem_nil
    · rw [loadsIn_singleton, hinner, innerHistory_of_none hname, StubCall.load?, hname]
      exact fun _ h => absurd h List.not_mem_nil
  · let l : ModuleLoad ι := ⟨name, c.depth, c.before⟩
    have hload : c.load? loads = some l := by rw [StubCall.load?, hname]; rfl
    have hrecord : c.inner = l.record e loads := by rw [hinner, innerHistory_of_some hname]; rfl
    rw [hload, Option.toList_some, List.forall_mem_singleton, hrecord] at hadmitted
    obtain ⟨hinside, hl⟩ := of_loadRun hP l (hloads name c.before) hadmitted.2 hadmitted.1 hm
    have hrun := hP.opening c l hload hl.after
    refine ⟨⟨forall_flattenAll_singleton.2 ⟨hrecord ▸ hinside.calls, hm, hrun⟩, ?_⟩, hrun⟩
    rw [loadsIn_singleton, hload, Option.toList_some, hrecord]
    exact List.forall_mem_append.2 ⟨hinside.loads, List.forall_mem_singleton.2 hl⟩

/-- **One load.** -/
theorem Preserves.load (he : e.stubs.Lawful) (hP : e.Preserves loads admitted P)
    (l : ModuleLoad ι) (hl : admitted l)
    (hadmitted : ∀ l' ∈ loadsIn loads (l.record e loads), admitted l') (hm : P l.before) :
    e.Holds loads P (l.record e loads) ∧ l.Holds e P :=
  Throughout.of_loadRun hP l
    (loadModule_traces (Throughout.sequential hP) (Throughout.stubs he hP) l.depth l.name l.before)
    hl hadmitted hm

theorem Preserves.startup (he : e.stubs.Lawful) (hP : e.Preserves loads admitted P)
    {names : List String} {m : Machine ι} (htop : ∀ l ∈ e.startupLoads names m, admitted l)
    (hadmitted : ∀ l ∈ loadsIn loads (e.recordStartup loads names m), admitted l) (hm : P m) :
    e.Holds loads P (e.recordStartup loads names m) ∧ (∀ l ∈ e.startupLoads names m, l.Holds e P)
      ∧ P (e.startup names m).2 := by
  induction names generalizing m with
  | nil => exact ⟨.nil, fun _ h => absurd h List.not_mem_nil, hm⟩
  | cons name names ih =>
      let l : ModuleLoad ι := ⟨name, e.callDepth, m⟩
      rw [recordStartup, loadsIn_append, List.forall_mem_append] at hadmitted
      rw [startupLoads, List.forall_mem_cons] at htop
      obtain ⟨hinside, hl⟩ := hP.load he l htop.1 hadmitted.1 hm
      have hafter : P (e.load name m).2 := hl.after
      rw [recordStartup, startupLoads, startup_cons, Action.andThen, Action.andThen]
      rw [Action.andThen] at htop hadmitted
      rcases hload : e.load name m with ⟨err | loaded, m₁⟩ <;>
        rw [hload] at htop hadmitted hafter
      · exact ⟨hinside.append .nil, List.forall_mem_singleton.2 hl, hafter⟩
      · obtain ⟨hrest, hloads, hm'⟩ := ih htop.2 hadmitted.2 (hP.merging m₁ loaded hafter)
        exact ⟨hinside.append hrest, List.forall_mem_cons.2 ⟨hl, hloads⟩, hm'⟩

theorem Preserves.invoke (he : e.stubs.Lawful) (hP : e.Preserves loads admitted P) {depth : Nat}
    {exports : List (String × Item ι)} {f : Func ι} {args : List Value} {m : Machine ι}
    (hadmitted : ∀ l ∈ loadsIn loads (e.record loads depth exports f args m), admitted l)
    (hm : P m) :
    e.Holds loads P (e.record loads depth exports f args m)
      ∧ P (e.invoke depth exports f args m).2 :=
  (invoke_traces (Throughout.sequential hP) (Throughout.stubs he hP) depth exports f args m).2
    hadmitted hm

end Engine

end WasmHost
