import WasmHost.Engine
import WasmHost.Proofs.Loader.Loading

set_option autoImplicit false

/-! # Running code never unlinks anything

Whatever code does, the symbol environment and the module source stay as they are, and an instance
that exists stays as it is (`Machine.Extends`). This holds of every call and of every load at any
depth, and of every moment at which they come to a stub (`Engine.invoke_visits`), provided that the
stubs themselves do not break it (`StubSemantics.Lawful`): a stub may change the machine and load
modules, but it has no access to the environment and cannot change instances. -/

namespace WasmHost

variable {ι : Type}

/-- The environment and the source are the same, and the instances are still there. -/
structure Machine.Extends (m m' : Machine ι) : Prop where
  env : m'.host.env = m.host.env
  source : m'.host.source = m.host.source
  instances (addr : Nat) (inst : Instance ι) (h : m.store.instances[addr]? = some inst) :
    m'.store.instances[addr]? = some inst

instance : IsPreorder (Machine ι) Machine.Extends where
  refl _ := ⟨rfl, rfl, fun _ _ h => h⟩
  trans _ _ _ h₁ h₂ :=
    ⟨h₂.env.trans h₁.env, h₂.source.trans h₁.source,
      fun addr inst h => h₂.instances addr inst (h₁.instances addr inst h)⟩

theorem Machine.Extends.trans {m m' m'' : Machine ι} (h₁ : m.Extends m') (h₂ : m'.Extends m'') :
    m.Extends m'' :=
  trans_of Machine.Extends h₁ h₂

theorem Machine.Quiet.extends {m m' : Machine ι} (h : m.Quiet m') : m.Extends m' :=
  ⟨by rw [h.host], by rw [h.host], fun _ _ hinst => by rwa [h.instances]⟩

/-- Stubs that unlink nothing, provided that the loads they are given do not. -/
def StubSemantics.Lawful (stubs : StubSemantics ι) : Prop :=
  ∀ (f : ι) (caller : Caller ι) (args : List Value),
    (∀ name, Action.Keeps Machine.Extends (caller.load name)) →
      Action.Keeps Machine.Extends (stubs f caller args)

/-! ## The steps of a load -/

namespace Machine

theorem extends_requesting (m : Machine ι) (name : String) : m.Extends (m.requesting name) :=
  ⟨rfl, rfl, fun _ _ h => h⟩

theorem extends_allocating (m : Machine ι) (w : WasmModule) (items : List (Item ι)) :
    m.Extends (m.allocating w items) := by
  refine ⟨rfl, rfl, fun addr inst h => ?_⟩
  have hlt : addr < m.store.instances.size := (Array.getElem?_eq_some_iff.1 h).1
  show (m.store.instances.push _)[addr]? = _
  rw [Array.getElem?_push_lt hlt, ← h, Array.getElem?_eq_getElem hlt]

theorem extends_finishLoad (m : Machine ι) (name : String) (addr : Nat) :
    m.Extends (m.finishLoad name addr).2 := by
  obtain ⟨arena, h⟩ := m.finishLoad_eq name addr
  rw [h]
  exact ⟨rfl, rfl, fun _ _ h => h⟩

end Machine

/-- The last machine extends the first, and so do those at which stubs were called in between. -/
def Machine.Visits : Trace ι (Machine ι) := fun m visited _ m' =>
  m.Extends m' ∧ ∀ v ∈ visited, m.Extends v

theorem Machine.Visits.sequential : (Machine.Visits : Trace ι (Machine ι)).Sequential where
  quiet _ h := ⟨h.extends, fun _ hv => absurd hv List.not_mem_nil⟩
  append h h' := by
    refine ⟨h.1.trans h'.1, fun v hv => ?_⟩
    rcases List.mem_append.1 hv with hv | hv
    · exact h.2 v hv
    · exact h.1.trans (h'.2 v hv)

theorem loadModule_visits {calls : Caller.Calls ι}
    {recorder : List (String × Item ι) → Recorder ι (Machine ι)}
    (hcalls : ∀ exports f args,
      Action.Traces Machine.Visits (calls exports f args) (recorder exports f args))
    (name : String) (m : Machine ι) :
    m.Extends (loadModule calls name m).2 ∧ ∀ v ∈ recordLoad recorder name m, m.Extends v := by
  have hrun := loadModule_run Machine.Visits.sequential hcalls name m
  generalize recordLoad recorder name m = visited, (loadModule calls name m).1 = result,
    (loadModule calls name m).2 = m' at hrun ⊢
  have hnone : ∀ v ∈ ([] : List (Machine ι)), m.Extends v := fun _ hv => absurd hv List.not_mem_nil
  cases hrun with
  | refused | mistyped => exact ⟨m.extends_requesting name, hnone⟩
  | failed w items visited failure _ _ hstart =>
      have hbefore := (m.extends_requesting name).trans (Machine.extends_allocating _ w items)
      exact ⟨hbefore.trans hstart.1, fun v hv => hbefore.trans (hstart.2 v hv)⟩
  | loaded w items visited m' _ hstart =>
      have hbefore := (m.extends_requesting name).trans (Machine.extends_allocating _ w items)
      exact ⟨hbefore.trans (hstart.1.trans (m'.extends_finishLoad name _)),
        fun v hv => hbefore.trans (hstart.2 v hv)⟩

/-! ## Calls and loads at any depth -/

namespace Engine

variable {e : Engine ι}

/-- The machines at which a call comes to a stub, in order. -/
def stubVisits (e : Engine ι) : (depth : Nat) → List (String × Item ι) → Recorder ι (Machine ι)
  | 0, _, _, _, _ => []
  | depth + 1, _, f, args, m =>
      match f with
      | .stub _ _ _ => [m]
      | .code owner defn =>
          let inst := m.store.instanceAt owner
          defn.record e.loopFuel (e.invoke depth inst.exports) (e.stubVisits depth inst.exports)
            inst args m

theorem callStub_extends (he : e.stubs.Lawful) (name : String) (stub : Stub ι) (type : FuncType)
    {caller : Caller ι} (hload : ∀ name, Action.Keeps Machine.Extends (caller.load name))
    (args : List Value) :
    Action.Keeps Machine.Extends (e.callStub name stub type caller args) := by
  cases stub with
  | placeholder => exact .ofExcept _
  | implemented f => exact (he f caller args hload).bind fun _ => .pure _

/-- **Calls unlink nothing**, however deeply they are nested, and nothing is unlinked when they come
    to a stub. -/
theorem invoke_visits (he : e.stubs.Lawful) (depth : Nat) (exports : List (String × Item ι))
    (f : Func ι) (args : List Value) :
    Action.Traces Machine.Visits (e.invoke depth exports f args)
      (e.stubVisits depth exports f args) := by
  induction depth generalizing exports f args with
  | zero => exact .quiet Machine.Visits.sequential (.ofExcept _)
  | succ depth ih =>
      cases f with
      | stub name stub type =>
          intro m
          -- the start functions of what a stub loads have one nested call less
          have hload (name : String) : Action.Keeps Machine.Extends
              (loadModule (e.invoke depth) name) := fun m => (loadModule_visits ih name m).1
          refine ⟨callStub_extends he name stub type hload args m, fun v hv => ?_⟩
          rw [List.mem_singleton.1 hv]
          exact refl_of Machine.Extends m
      | code owner defn =>
          intro m
          exact defn.run_traces Machine.Visits.sequential (fun f args => ih _ f args) args m

theorem loadModule_extends (he : e.stubs.Lawful) (depth : Nat) (name : String) :
    Action.Keeps Machine.Extends (loadModule (e.invoke depth) name) :=
  fun m => (loadModule_visits (invoke_visits he depth) name m).1

/-- What a load that succeeds leaves: the instance that was made from the module and the items that
    its imports were bound to, whatever its start function did. -/
theorem loadModule_ok (he : e.stubs.Lawful) {depth : Nat} {name : String} {m m' : Machine ι}
    {loaded : LoadedModule ι} (h : loadModule (e.invoke depth) name m = (.ok loaded, m')) :
    ∃ w items, m.host.accept name = .ok (w, items) ∧ loaded.name = name
      ∧ loaded.exports = (w.newInstance m.store items).exports
      ∧ m'.store.instances[loaded.instanceAddr]? = some (w.newInstance m.store items) := by
  have hrun := loadModule_run Machine.Visits.sequential (invoke_visits he depth) name m
  rw [h] at hrun
  generalize recordLoad _ name m = visited, hresult : Except.ok loaded = result at hrun
  cases hrun with
  | refused | mistyped | failed => cases hresult
  | loaded w items visited m₁ haccept hstart =>
      -- the instance is there before the start function runs, and stays there
      have hnew : ((m.requesting name).allocating w items).store.instances[m.store.instances.size]?
          = some (w.newInstance m.store items) :=
        Array.getElem?_push_size
      have hinst := hstart.1.instances _ _ hnew
      have haddr : m₁.store.instanceAt m.store.instances.size = w.newInstance m.store items := by
        rw [Store.instanceAt, Array.getD_eq_getD_getElem?, hinst, Option.getD_some]
      have hfinish := m₁.finishLoad_fst name m.store.instances.size
      rw [← Except.ok.inj hresult] at hfinish
      refine ⟨w, items, haccept, hfinish.1, by rw [hfinish.2.2, haddr], ?_⟩
      rw [hfinish.2.1]
      exact (m₁.extends_finishLoad name _).instances _ _ hinst

end Engine

end WasmHost
