import WasmHost.Loader.Load
import WasmHost.Proofs.Exec.Record

set_option autoImplicit false

/-! # What loading a module does

A load runs code only in one place, the start function. Everything before it is decided by the host
(`Host.accept`) or makes the instance and writes its segments (`WasmModule.prepare`), and everything
after it makes an exported memory the active one (`Machine.finishLoad`).

`LoadRun` lists the four ways in which a load can go, with the run of the start function as a
property of runs; `loadModule_run` says that there is no other way. -/

namespace WasmHost

variable {ι κ α β ε ε' : Type}

/-! ## The stages of a load -/

/-- The machine after the source has been asked for a module. -/
def Machine.requesting (m : Machine ι) (name : String) : Machine ι :=
  { m with host := { m.host with requested := name :: m.host.requested } }

/-- The module of a name and the items that its imports are bound to. No code runs before this is
    known. -/
def Host.accept (host : Host ι) (name : String) : Except LinkError (WasmModule × List (Item ι)) :=
  match host.source name with
  | .error err => .error (.loadFailed name err)
  | .ok object =>
      match object.parse name with
      | .error err => .error (.loadFailed name err)
      | .ok w => (host.bindImports name w.imports).map fun items => (w, items)

/-- The machine with a new instance of a module. -/
def Machine.allocating (m : Machine ι) (w : WasmModule) (items : List (Item ι)) : Machine ι :=
  { m with store := w.allocate m.store (w.newInstance m.store items) }

/-- Write the segments of a module. -/
def WasmModule.writeSegments (w : WasmModule) (inst : Instance ι) : Action ι Failure Unit := do
  w.elements.forM (Exec.writeElements inst)
  w.data.forM (Exec.writeData inst)

/-- The part of an instantiation that comes before the start function. -/
def WasmModule.prepare (w : WasmModule) (items : List (Item ι)) :
    Action ι Failure (Instance ι) := do
  let store ← Action.getStore
  if !w.acceptsImports store items then
    Action.ofExcept (.error (.ofCause (.text "incompatible import type")))
  let inst := w.newInstance store items
  Action.modifyStore (w.allocate · inst)
  w.writeSegments inst
  return inst

/-- The error of a module whose instantiation fails. Of the failure only the text is left. -/
def LinkError.instantiationFailed (name : String) (failure : Failure) : LinkError :=
  .loadFailed name (LinkError.ofKind (.instantiateFail name failure.message))

/-- The module whose instance has just been made at `addr`, and the machine in which the memory that
    it exports is active. -/
def Machine.finishLoad (m : Machine ι) (name : String) (addr : Nat) :
    LoadedModule ι × Machine ι :=
  let exports := (m.store.instanceAt addr).exports
  match lastMemory? exports with
  | none => (⟨name, addr, exports, none⟩, m)
  | some memory =>
      (⟨name, addr, exports, some m.host.arena.nextHandle⟩,
        { m with host := { m.host with arena := m.host.arena.install memory name } })

/-- Finishing a load changes at most which memory is active. -/
theorem Machine.finishLoad_eq (m : Machine ι) (name : String) (addr : Nat) :
    ∃ arena, (m.finishLoad name addr).2 = { m with host := { m.host with arena := arena } } := by
  simp only [finishLoad]
  split
  · exact ⟨m.host.arena, rfl⟩
  · exact ⟨_, rfl⟩

theorem Machine.finishLoad_fst (m : Machine ι) (name : String) (addr : Nat) :
    (m.finishLoad name addr).1.name = name ∧ (m.finishLoad name addr).1.instanceAddr = addr
      ∧ (m.finishLoad name addr).1.exports = (m.store.instanceAt addr).exports := by
  simp only [finishLoad]
  split <;> exact ⟨rfl, rfl, rfl⟩

/-! ## What instances export -/

/-- What an instance exports under an index is what the index stands for. -/
theorem WasmModule.mem_exports_newInstance {w : WasmModule} {store : Store ι}
    {items : List (Item ι)} {name : String} {item : Item ι}
    (h : (name, item) ∈ (w.newInstance store items).exports) :
    ∃ ex ∈ w.exports, (w.newInstance store items).item? ex.kind ex.index = some item := by
  obtain ⟨ex, hex, hitem⟩ := List.mem_filterMap.1 h
  obtain ⟨item', hitem', heq⟩ := Option.map_eq_some_iff.1 hitem
  cases heq
  exact ⟨ex, hex, hitem'⟩

theorem Instance.kind_of_item? {inst : Instance ι} {kind : ItemKind} {index : Nat} {item : Item ι}
    (h : inst.item? kind index = some item) : item.kind = kind := by
  cases kind <;> obtain ⟨_, _, rfl⟩ := Option.map_eq_some_iff.1 h <;> rfl

/-! ## Taking a load apart -/

theorem WasmModule.instantiate_eq (w : WasmModule) (calls : Caller.Calls ι)
    (items : List (Item ι)) :
    w.instantiate calls items = (do
      let store ← Action.getStore
      let inst ← w.prepare items
      Exec.runStart calls w inst
      return store.instances.size) := by
  funext m
  have hstore : (Action.getStore : Action ι Failure (Store ι)) m = (.ok m.store, m) := rfl
  simp only [instantiate, prepare, writeSegments, bind_assoc]
  rw [bind_apply_of_ok hstore, bind_apply_of_ok hstore,
    bind_apply_of_ok hstore]
  by_cases haccepts : w.acceptsImports m.store items = true
  · simp only [haccepts, Bool.not_true, Bool.false_eq_true, if_false, bind_assoc, pure_bind]
  · simp only [haccepts, Bool.not_false, if_true]
    rfl

theorem Action.installMemory_apply (name : String) (exports : List (String × Item ι))
    (m : Machine ι) :
    Action.installMemory name exports m
      = match lastMemory? exports with
        | none => (.ok none, m)
        | some memory =>
            (.ok (some m.host.arena.nextHandle),
              { m with host := { m.host with arena := m.host.arena.install memory name } }) := by
  unfold Action.installMemory
  rcases lastMemory? exports <;> rfl

theorem loadModule_apply (calls : Caller.Calls ι) (name : String) (m : Machine ι) :
    loadModule calls name m
      = match m.host.accept name with
        | .error err => (.error err, m.requesting name)
        | .ok (w, items) =>
            match w.instantiate calls items (m.requesting name) with
            | (.error failure, m') => (.error (.instantiationFailed name failure), m')
            | (.ok addr, m') => (.ok (m'.finishLoad name addr).1, (m'.finishLoad name addr).2) := by
  have hrequest : loadModule calls name m = (do
      let object ← Action.ofExcept ((m.host.source name).mapError (.loadFailed name))
      loadObject calls name object : Action ι LinkError (LoadedModule ι)) (m.requesting name) := rfl
  rw [hrequest, Host.accept]
  rcases m.host.source name with err | object
  · rfl
  have hobject : (Action.ofExcept ((Except.ok object).mapError (.loadFailed name))
      : Action ι LinkError ModuleObject) (m.requesting name)
        = (.ok object, m.requesting name) := rfl
  rw [bind_apply_of_ok hobject, loadObject]
  rcases hw : object.parse name with err | w
  · simp only [hw]
    rfl
  have hparse : (Action.ofExcept ((Except.ok w).mapError (.loadFailed name))
      : Action ι LinkError WasmModule) (m.requesting name) = (.ok w, m.requesting name) := rfl
  have hbind : (m.requesting name).host.bindImports name w.imports
      = m.host.bindImports name w.imports := rfl
  rw [bind_apply_of_ok hparse, bind_apply_of_ok (Action.getHost_apply _), hbind]
  rcases hitems : m.host.bindImports name w.imports with err | items
  · simp only [hw, hitems]
    rfl
  rw [bind_apply_of_ok (Action.ofExcept_apply _ _)]
  simp only [hw, hitems, Except.map]
  rcases hinst : w.instantiate calls items (m.requesting name) with ⟨failure | addr, m'⟩
  · rw [bind_apply, Action.mapError_apply, hinst]
    rfl
  · rw [bind_apply, Action.mapError_apply, hinst]
    show (do
      let exports := ((← Action.getStore).instanceAt addr).exports
      let handle ← Action.installMemory name exports
      return ⟨name, addr, exports, handle⟩ : Action ι LinkError (LoadedModule ι)) m' = _
    rw [bind_apply_of_ok (Action.getStore_apply m'), bind_apply,
      Action.installMemory_apply]
    simp only [Machine.finishLoad]
    rcases lastMemory? (m'.store.instanceAt addr).exports <;> rfl

/-! ## Before the start function -/

namespace Exec

open WasmHost.Action

theorem writeElements_quiet (inst : Instance ι) (segment : ElementSegment) :
    Keeps Machine.Quiet (writeElements inst segment) := by
  refine (addressOf_quiet _ _).bind fun _ => .bind .getStore fun _ => ?_
  split
  · exact .modifyStore fun m => m.quiet_setTable _ _
  · exact .ofExcept _

theorem writeData_quiet (inst : Instance ι) (segment : DataSegment) :
    Keeps Machine.Quiet (writeData inst segment) := by
  refine (memoryOf_quiet inst).bind ?_
  rintro ⟨addr, memory⟩
  dsimp only
  split
  · exact .modifyStore fun m => m.quiet_setMemory _ _
  · exact .ofExcept _

end Exec

theorem Action.Keeps.forM {R : Machine ι → Machine ι → Prop} [IsPreorder (Machine ι) R]
    {f : α → Action ι ε Unit} (h : ∀ a, Keeps R (f a)) (as : List α) : Keeps R (as.forM f) := by
  induction as with
  | nil => exact .pure _
  | cons a as ih => exact (h a).bind fun _ => ih

theorem WasmModule.writeSegments_quiet (w : WasmModule) (inst : Instance ι) :
    Action.Keeps Machine.Quiet (w.writeSegments inst) :=
  (Action.Keeps.forM (Exec.writeElements_quiet inst) _).bind fun _ =>
    Action.Keeps.forM (Exec.writeData_quiet inst) _

/-- Bound items of the wrong types are found before anything is changed. -/
theorem WasmModule.prepare_of_not_accepts {w : WasmModule} {items : List (Item ι)} {m : Machine ι}
    (h : w.acceptsImports m.store items = false) :
    w.prepare items m = (.error (.ofCause (.text "incompatible import type")), m) := by
  rw [prepare, bind_apply_of_ok (Action.getStore_apply m)]
  simp only [h, Bool.not_false, if_true]
  rfl

theorem WasmModule.prepare_of_accepts {w : WasmModule} {items : List (Item ι)} {m : Machine ι}
    (h : w.acceptsImports m.store items = true) :
    w.prepare items m
      = (do
          w.writeSegments (w.newInstance m.store items)
          return w.newInstance m.store items : Action ι Failure (Instance ι))
        (m.allocating w items) := by
  rw [prepare, bind_apply_of_ok (Action.getStore_apply m)]
  simp only [h, Bool.not_true, Bool.false_eq_true, if_false]
  rfl

/-! ## Whole loads -/

/-- What is recorded of the start function of a new instance. -/
def WasmModule.recordStart (recorder : List (String × Item ι) → Recorder ι κ) (w : WasmModule)
    (inst : Instance ι) (m : Machine ι) : List κ :=
  match w.start with
  | none => []
  | some f => (Exec.addressOf inst.funcs f).andThen (fun func => recorder inst.exports func []) m

/-- What is recorded of a load. -/
def recordLoad (recorder : List (String × Item ι) → Recorder ι κ) (name : String)
    (m : Machine ι) : List κ :=
  match m.host.accept name with
  | .error _ => []
  | .ok (w, items) => (w.prepare items).andThen (w.recordStart recorder) (m.requesting name)

/-- Nothing is recorded of the load of a module without a start function. -/
theorem recordLoad_of_startless {recorder : List (String × Item ι) → Recorder ι κ} {name : String}
    {m : Machine ι} (h : ∀ w items, m.host.accept name = .ok (w, items) → w.start = none) :
    recordLoad recorder name m = [] := by
  rw [recordLoad]
  rcases haccept : m.host.accept name with err | ⟨w, items⟩
  · rfl
  have hrecord : w.recordStart recorder = fun _ _ => [] := by
    funext inst m'
    rw [WasmModule.recordStart, h w items haccept]
  dsimp only
  rw [hrecord, Action.andThen]
  split <;> rfl

/-- The ways in which the load of the module of a name goes: what is recorded of it, its result, and
    the machine that it leaves. -/
inductive LoadRun (Q : Trace ι κ) (name : String) (m : Machine ι) :
    List κ → Except LinkError (LoadedModule ι) → Machine ι → Prop where
  /-- There is no such module, or one of its imports cannot be bound. -/
  | refused (err : LinkError) (haccept : m.host.accept name = .error err) :
      LoadRun Q name m [] (.error err) (m.requesting name)
  /-- A bound item has the wrong type. -/
  | mistyped (w : WasmModule) (items : List (Item ι)) (failure : Failure)
      (haccept : m.host.accept name = .ok (w, items)) :
      LoadRun Q name m [] (.error (.instantiationFailed name failure)) (m.requesting name)
  /-- A segment does not fit, or the start function fails. -/
  | failed (w : WasmModule) (items : List (Item ι)) (log : List κ) (failure : Failure)
      (m' : Machine ι) (haccept : m.host.accept name = .ok (w, items))
      (hrun : Q ((m.requesting name).allocating w items) log (some failure) m') :
      LoadRun Q name m log (.error (.instantiationFailed name failure)) m'
  | loaded (w : WasmModule) (items : List (Item ι)) (log : List κ) (m' : Machine ι)
      (haccept : m.host.accept name = .ok (w, items))
      (hrun : Q ((m.requesting name).allocating w items) log none m') :
      LoadRun Q name m log (.ok (m'.finishLoad name m.store.instances.size).1)
        (m'.finishLoad name m.store.instances.size).2

section

variable {Q : Trace ι κ} {calls : Caller.Calls ι} {recorder : List (String × Item ι) → Recorder ι κ}

theorem Exec.runStart_traces (hQ : Q.Sequential)
    (hcalls : ∀ exports f args, Action.Traces Q (calls exports f args) (recorder exports f args))
    (w : WasmModule) (inst : Instance ι) :
    Action.Traces Q (Exec.runStart calls w inst) (w.recordStart recorder inst) := by
  unfold Exec.runStart WasmModule.recordStart
  rcases w.start with _ | f
  · exact .quiet hQ (.pure _)
  · exact .bind_quiet hQ (Exec.addressOf_quiet _ _) fun func =>
      (hcalls inst.exports func []).then_quiet hQ fun _ => .pure _

/-- **A load goes in one of the ways that are listed**, and the run of the start function has every
    property that each call has. -/
theorem loadModule_run (hQ : Q.Sequential)
    (hcalls : ∀ exports f args, Action.Traces Q (calls exports f args) (recorder exports f args))
    (name : String) (m : Machine ι) :
    LoadRun Q name m (recordLoad recorder name m) (loadModule calls name m).1
      (loadModule calls name m).2 := by
  rw [loadModule_apply, recordLoad]
  rcases haccept : m.host.accept name with err | ⟨w, items⟩
  · exact .refused err haccept
  dsimp only
  rw [WasmModule.instantiate_eq, bind_apply_of_ok (Action.getStore_apply _)]
  -- the types are checked before the instance is made, so a mismatch leaves the store as it was
  rcases haccepts : w.acceptsImports (m.requesting name).store items
  · have hprepare := WasmModule.prepare_of_not_accepts (m := m.requesting name) haccepts
    rw [bind_apply_of_error hprepare]
    simp only [Action.andThen, hprepare]
    exact .mistyped w items _ haccept
  have hsegments := w.writeSegments_quiet (w.newInstance (m.requesting name).store items)
    ((m.requesting name).allocating w items)
  rcases hwrite : w.writeSegments (w.newInstance (m.requesting name).store items)
    ((m.requesting name).allocating w items) with ⟨failure | _, m₂⟩ <;> rw [hwrite] at hsegments
  · have hprepare : w.prepare items (m.requesting name) = (.error failure, m₂) := by
      rw [WasmModule.prepare_of_accepts haccepts, bind_apply_of_error hwrite]
    rw [bind_apply_of_error hprepare]
    simp only [Action.andThen, hprepare]
    exact .failed w items [] failure m₂ haccept (hQ.quiet _ hsegments)
  · have hprepare : w.prepare items (m.requesting name)
        = (.ok (w.newInstance (m.requesting name).store items), m₂) := by
      rw [WasmModule.prepare_of_accepts haccepts, bind_apply_of_ok hwrite]
      rfl
    rw [bind_apply_of_ok hprepare]
    simp only [Action.andThen, hprepare]
    -- of the whole load only the start function is recorded; the segments before it are quiet
    have hstart := Exec.runStart_traces hQ hcalls w
      (w.newInstance (m.requesting name).store items) m₂
    rcases hrun : Exec.runStart calls w (w.newInstance (m.requesting name).store items) m₂
      with ⟨failure | _, m₃⟩ <;> rw [hrun] at hstart
    · rw [bind_apply_of_error hrun]
      exact .failed w items _ failure m₃ haccept (hQ.append (hQ.quiet none hsegments) hstart)
    · rw [bind_apply_of_ok hrun]
      exact .loaded w items _ m₃ haccept (hQ.append (hQ.quiet none hsegments) hstart)

end

end WasmHost
