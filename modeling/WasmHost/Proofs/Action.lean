import Mathlib.Order.Defs.Unbundled
import WasmHost.Exec.Instr
import WasmHost.Proofs.Computation

set_option autoImplicit false

/-! # What actions do to the machine

The equations `ofExcept_apply`, `getHost_apply`, … evaluate actions, and `bind_apply` those that are
composed of others.

`Keeps R x` says that whatever `x` is given, the machine that it leaves is `R`-related to the one it
was given, also when it fails. For a preorder `R` that is closed under composition, so that a fact
about a whole run reduces to a fact about the few actions that change anything. -/

namespace WasmHost

variable {ι ε ε' α β : Type}

/-! ## Panics -/

namespace Machine

variable (m : Machine ι) (r : Except WordFault α)

theorem panicIf_store : (m.panicIf r).store = m.store := by
  rcases r with (_ | _) | _ <;> rfl

theorem panicIf_host : (m.panicIf r).host = m.host := by
  rcases r with (_ | _) | _ <;> rfl

theorem panicIf_panicked :
    (m.panicIf r).panicked = true ↔ m.panicked = true ∨ r = .error .overflow := by
  rcases r with (_ | _) | _ <;> simp [panicIf]

end Machine

namespace Action

/-! ## Evaluation -/

@[simp] theorem ofExcept_apply (r : Except ε α) (m : Machine ι) : ofExcept r m = (r, m) := rfl

@[simp] theorem getHost_apply (m : Machine ι) :
    (getHost : Action ι ε (Host ι)) m = (.ok m.host, m) := rfl

@[simp] theorem getStore_apply (m : Machine ι) :
    (getStore : Action ι ε (Store ι)) m = (.ok m.store, m) := rfl

@[simp] theorem modifyHost_apply (f : Host ι → Host ι) (m : Machine ι) :
    (modifyHost f : Action ι ε Unit) m = (.ok (), { m with host := f m.host }) := rfl

theorem mapError_apply (f : ε → ε') (x : Action ι ε α) (m : Machine ι) :
    x.mapError f m = ((x m).1.mapError f, (x m).2) := rfl

theorem orPanic_apply (x : Action ι WordFault α) (m : Machine ι) :
    x.orPanic m = ((x m).1.mapError .ofWordFault, (x m).2.panicIf (x m).1) := rfl

/-- Nothing overflows in a computation without arithmetic. -/
theorem orPanic_lift (x : Action ι MemoryError α) (m : Machine ι) :
    orPanic (WordFault.lift x) m = x.mapError .ofMemoryError m := by
  rw [orPanic_apply, WordFault.lift_apply, mapError_apply]
  rcases x m with ⟨err | a, m'⟩ <;> rfl

theorem attempt_apply (x : Action ι ε α) (m : Machine ι) :
    (x.attempt : Action ι ε' (Except ε α)) m = (.ok (x m).1, (x m).2) := rfl

/-! ## The active memory -/

theorem activeMemory_of_active {m : Machine ι} {addr : Nat} (h : m.host.arena.active = .ok addr) :
    m.activeMemory = .ok (addr, (m.store.memoryAt addr).contents) := by
  rw [Machine.activeMemory, h]
  rfl

theorem active_of_activeMemory {m : Machine ι} {addr : Nat} {contents : LinearMemory}
    (h : m.activeMemory = .ok (addr, contents)) :
    m.host.arena.active = .ok addr ∧ contents = (m.store.memoryAt addr).contents := by
  rw [Machine.activeMemory] at h
  rcases hactive : m.host.arena.active with err | addr' <;> rw [hactive] at h <;> cases h
  exact ⟨rfl, rfl⟩

theorem onContents_of_active {m : Machine ι} {addr : Nat} (h : m.host.arena.active = .ok addr)
    (fail : MemoryError → ε) (x : ExceptT ε (StateM LinearMemory) α) :
    onContents fail x m = ((x (m.store.memoryAt addr).contents).1,
      { m with store := m.store.setContents addr (x (m.store.memoryAt addr).contents).2 }) := by
  rw [onContents, activeMemory_of_active h]
  rfl

theorem onMemory_of_active {m : Machine ι} {addr : Nat} (h : m.host.arena.active = .ok addr)
    (x : MemoryAction α) :
    onMemory x m = ((x (m.store.memoryAt addr).contents).1,
      { m with store := m.store.setContents addr (x (m.store.memoryAt addr).contents).2 }) :=
  onContents_of_active h id x

/-! ## Strings in blocks -/

theorem requireMemory_of_active {m : Machine ι} {active : Nat × LinearMemory}
    (h : m.activeMemory = .ok active) : requireMemory m = (.ok (), m) := by
  rw [requireMemory, look, h]
  rfl

theorem requireMemory_of_error {m : Machine ι} {err : MemoryError}
    (h : m.activeMemory = .error err) : requireMemory m = (.error err, m) := by
  rw [requireMemory, look, h]
  rfl

theorem allocateString_of_error {m : Machine ι} {err : MemoryError}
    (h : m.activeMemory = .error err) (s : List UInt8) :
    allocateString s m = (.error (.memory err), m) :=
  bind_apply_of_error (WordFault.lift_of_error (requireMemory_of_error h))

/-- The size of the block for a string is computed once a memory is active. -/
theorem allocateString_of_active {m : Machine ι} {active : Nat × LinearMemory}
    (h : m.activeMemory = .ok active) (s : List UInt8) :
    allocateString s m
      = match WordFault.add s.length.toUInt32 1 with
        | .error fault => (.error fault, m)
        | .ok size => WordFault.lift (storeString size s) m := by
  rw [allocateString, bind_apply_of_ok (WordFault.lift_of_ok (requireMemory_of_active h)),
    bind_apply, WordFault.compute_apply]
  rcases WordFault.add s.length.toUInt32 1 with fault | size <;> rfl

/-- A string that has been copied has been stored in a block of its size. -/
theorem allocateString_eq_ok {m m' : Machine ι} {s : List UInt8} {ptr : UInt32}
    (h : allocateString s m = (.ok ptr, m')) :
    ∃ size, WordFault.add s.length.toUInt32 1 = .ok size
      ∧ storeString size s m = (.ok ptr, m') := by
  rcases hactive : m.activeMemory with err | active
  · rw [allocateString_of_error hactive] at h
    cases h
  rw [allocateString_of_active hactive] at h
  rcases hsize : WordFault.add s.length.toUInt32 1 with fault | size <;> rw [hsize] at h
  · cases h
  · rcases hrun : storeString size s m with ⟨err | block, m₁⟩
    · cases (WordFault.lift_of_error hrun).symm.trans h
    · cases (WordFault.lift_of_ok hrun).symm.trans h
      exact ⟨size, rfl, hrun⟩

/-! ## What an action keeps -/

/-- The machine that the action leaves is related to the one it was given. -/
def Keeps (R : Machine ι → Machine ι → Prop) (x : Action ι ε α) : Prop := ∀ m, R m (x m).2

variable {R : Machine ι → Machine ι → Prop}

section Preorder

variable [IsPreorder (Machine ι) R]

theorem Keeps.of_eq {x : Action ι ε α} (h : ∀ m, (x m).2 = m) : Keeps R x := by
  intro m
  rw [h]
  exact refl_of R m

theorem Keeps.pure (a : α) : Keeps R (pure a : Action ι ε α) := .of_eq fun _ => rfl

theorem Keeps.ofExcept (r : Except ε α) : Keeps R (ofExcept r : Action ι ε α) := .of_eq fun _ => rfl

theorem Keeps.compute (r : Except WordFault α) :
    Keeps R (WordFault.compute r : Action ι WordFault α) :=
  .of_eq fun _ => rfl

theorem Keeps.getHost : Keeps R (getHost : Action ι ε (Host ι)) := .of_eq fun _ => rfl

theorem Keeps.getStore : Keeps R (getStore : Action ι ε (Store ι)) := .of_eq fun _ => rfl

theorem Keeps.bind {x : Action ι ε α} {f : α → Action ι ε β} (hx : Keeps R x)
    (hf : ∀ a, Keeps R (f a)) : Keeps R (x >>= f) := by
  intro m
  have hm := hx m
  rcases hr : x m with ⟨e | a, m'⟩ <;> rw [hr] at hm
  · rwa [bind_apply_of_error hr]
  · rw [bind_apply_of_ok hr]
    exact trans_of R hm (hf a m')

end Preorder

theorem Keeps.mapError {x : Action ι ε α} (f : ε → ε') (hx : Keeps R x) :
    Keeps R (x.mapError f) :=
  hx

theorem Keeps.lift {x : Action ι MemoryError α} (hx : Keeps R x) :
    Keeps R (WordFault.lift x : Action ι WordFault α) :=
  hx

theorem Keeps.modifyHost {f : Host ι → Host ι} (h : ∀ m, R m { m with host := f m.host }) :
    Keeps R (modifyHost f : Action ι ε Unit) :=
  h

theorem Keeps.modifyStore {f : Store ι → Store ι} (h : ∀ m, R m { m with store := f m.store }) :
    Keeps R (modifyStore f : Action ι ε Unit) :=
  h

end Action

end WasmHost
