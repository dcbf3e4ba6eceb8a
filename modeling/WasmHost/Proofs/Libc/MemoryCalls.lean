import WasmHost.Proofs.Libc.Calls
import WasmHost.Proofs.Memory.Overwriting
import WasmHost.Proofs.Run.Steps

set_option autoImplicit false

/-! # Calls that work on the active memory

A call of a function that only looks at memory leaves the machine as it is (`Libc.stubs_query`), and
a call of one that changes memory changes the contents of the active memory alone
(`Libc.stubs_edit`). So a statement about a memory becomes one about the machine: that bytes are
put somewhere (`Machine.Overwritten`), or that a call either does all it should or changes nothing
(`Atomic`). -/

namespace WasmHost

open WasmHost.Action

variable {ι : Type}

/-! ## The contents of the active memory -/

/-- The machine after the contents of the memory at `addr` have been changed. -/
def Machine.withContents (m : Machine ι) (addr : Nat) (contents : LinearMemory) : Machine ι :=
  { m with store := m.store.setContents addr contents }

theorem Store.setContents_self (s : Store ι) (addr : Nat) :
    s.setContents addr (s.memoryAt addr).contents = s := by
  have hmemories : s.memories.setIfInBounds addr (s.memoryAt addr) = s.memories := by
    refine Array.ext (Array.size_setIfInBounds ..) fun i hi hi' => ?_
    rw [Array.getElem_setIfInBounds hi']
    split
    · rename_i haddr
      subst haddr
      rw [memoryAt, Array.getD_eq_getD_getElem?, Array.getElem?_eq_getElem hi', Option.getD_some]
    · rfl
  show { s with memories := s.memories.setIfInBounds addr (s.memoryAt addr) } = s
  rw [hmemories]

namespace Machine

variable {m : Machine ι} {addr : Nat} {contents after : LinearMemory} {start : Nat}
variable {data : List UInt8}

theorem withContents_self (hactive : m.activeMemory = .ok (addr, contents)) :
    m.withContents addr contents = m := by
  obtain ⟨-, rfl⟩ := active_of_activeMemory hactive
  rw [withContents, m.store.setContents_self]

theorem activeMemory_withContents_of_lt (hactive : m.activeMemory = .ok (addr, contents))
    (haddr : addr < m.store.memories.size) (contents' : LinearMemory) :
    (m.withContents addr contents').activeMemory = .ok (addr, contents') := by
  obtain ⟨harena, -⟩ := active_of_activeMemory hactive
  have harena' : (m.withContents addr contents').host.arena.active = .ok addr := harena
  rw [activeMemory_of_active harena', withContents, m.store.memoryAt_setContents haddr]

/-- A memory that is not in the store has no bytes. -/
theorem contents_of_le (hactive : m.activeMemory = .ok (addr, contents))
    (haddr : m.store.memories.size ≤ addr) : contents.size = 0 := by
  obtain ⟨-, rfl⟩ := active_of_activeMemory hactive
  rw [Store.memoryAt, Array.getD_eq_getD_getElem?, Array.getElem?_eq_none haddr]
  rfl

/-- The active memory is in the store if it has any bytes. -/
theorem activeMemory_withContents (hactive : m.activeMemory = .ok (addr, contents))
    (hsize : 0 < contents.size) (contents' : LinearMemory) :
    (m.withContents addr contents').activeMemory = .ok (addr, contents') := by
  refine activeMemory_withContents_of_lt hactive (Nat.lt_of_not_le fun haddr => ?_) contents'
  exact absurd (contents_of_le hactive haddr) (Nat.ne_of_gt hsize)

/-- The bytes `data` have been put at `start` of the active memory, and nothing else in the machine
    has changed. -/
def Overwritten (m m' : Machine ι) (start : Nat) (data : List UInt8) : Prop :=
  ∃ addr before after, m.activeMemory = .ok (addr, before) ∧ m'.activeMemory = .ok (addr, after)
    ∧ before.Overwritten after start data ∧ m' = m.withContents addr after

theorem overwritten_withContents (hactive : m.activeMemory = .ok (addr, contents))
    (h : contents.Overwritten after start data) :
    m.Overwritten (m.withContents addr after) start data := by
  by_cases haddr : addr < m.store.memories.size
  · exact ⟨addr, contents, after, hactive, activeMemory_withContents_of_lt hactive haddr after, h,
      rfl⟩
  · -- without bytes there is nothing to put, and no place in the store to put it
    have hsize := contents_of_le hactive (Nat.le_of_not_lt haddr)
    have hbounds : start + data.length ≤ contents.size := h.inBounds
    obtain rfl : data = [] := List.eq_nil_of_length_eq_zero (by omega)
    have hkeep (contents' : LinearMemory) : m.withContents addr contents' = m := by
      have hmemories := m.store.memories.setIfInBounds_eq_of_size_le (Nat.le_of_not_lt haddr)
        (a := { m.store.memoryAt addr with contents := contents' })
      show { m with store := { m.store with memories := m.store.memories.setIfInBounds addr _ } }
        = m
      rw [hmemories]
    rw [hkeep after]
    exact ⟨addr, contents, contents, hactive, hactive, .nothing (by omega), (hkeep contents).symm⟩

theorem stringAt_of_active (hactive : m.activeMemory = .ok (addr, contents)) {ptr : UInt32}
    {s : List UInt8} (h : contents.StringAt ptr s) : m.stringAt ptr = .ok s := by
  rw [stringAt, hactive]
  exact h.string_eq

theorem active_of_stringAt {ptr : UInt32} {s : List UInt8} (h : m.stringAt ptr = .ok s) :
    ∃ addr contents, m.activeMemory = .ok (addr, contents) ∧ contents.StringAt ptr s := by
  rw [stringAt] at h
  rcases hactive : m.activeMemory with err | ⟨addr, contents⟩ <;> rw [hactive] at h
  · cases h
  · exact ⟨addr, contents, rfl, .of_string_eq h⟩

end Machine

/-! ## All or nothing -/

/-- The computation succeeds just if `allowed` is so. Then its result and the state that it leaves
    are as `effect` says; a failure is as `refused` says and leaves the state as it was. -/
structure Atomic {σ ε α : Type} (before : σ) (run : Except ε α × σ) (allowed : Prop)
    (effect : α → σ → Prop) (refused : ε → Prop) : Prop where
  succeeds_iff : (∃ a, run.1 = .ok a) ↔ allowed
  does (a : α) (h : run.1 = .ok a) : effect a run.2
  fails (err : ε) (h : run.1 = .error err) : run.2 = before ∧ refused err

namespace Atomic

variable {σ ε α : Type} {before : σ} {run : Except ε α × σ} {allowed : Prop}
variable {effect : α → σ → Prop} {refused : ε → Prop}

theorem of_cases (hok : allowed → ∃ a after, run = (.ok a, after) ∧ effect a after)
    (herror : ¬ allowed → ∃ err, run = (.error err, before) ∧ refused err) :
    Atomic before run allowed effect refused := by
  by_cases hallowed : allowed
  · obtain ⟨a, after, rfl, heffect⟩ := hok hallowed
    exact
      { succeeds_iff := ⟨fun _ => hallowed, fun _ => ⟨a, rfl⟩⟩
        does := fun b hb => by cases hb; exact heffect
        fails := fun err herr => by cases herr }
  · obtain ⟨err, rfl, hrefused⟩ := herror hallowed
    exact
      { succeeds_iff := ⟨fun ⟨a, ha⟩ => (by cases ha), fun h => absurd h hallowed⟩
        does := fun a ha => by cases ha
        fails := fun err' herr => by cases herr; exact ⟨rfl, hrefused⟩ }

theorem eq_ok (h : Atomic before run allowed effect refused) (hallowed : allowed) :
    ∃ a after, run = (.ok a, after) ∧ effect a after := by
  obtain ⟨a, ha⟩ := h.succeeds_iff.2 hallowed
  exact ⟨a, run.2, Prod.ext ha rfl, h.does a ha⟩

theorem eq_error (h : Atomic before run allowed effect refused) (hnot : ¬ allowed) :
    ∃ err, run = (.error err, before) ∧ refused err := by
  rcases hresult : run.1 with err | a
  · obtain ⟨hkept, hrefused⟩ := h.fails err hresult
    exact ⟨err, Prod.ext hresult hkept, hrefused⟩
  · exact absurd (h.succeeds_iff.1 ⟨a, hresult⟩) hnot

theorem mono {effect' : α → σ → Prop} {refused' : ε → Prop}
    (h : Atomic before run allowed effect refused)
    (heffect : ∀ a after, effect a after → effect' a after)
    (hrefused : ∀ err, refused err → refused' err) :
    Atomic before run allowed effect' refused' where
  succeeds_iff := h.succeeds_iff
  does a ha := heffect a _ (h.does a ha)
  fails err herr := ⟨(h.fails err herr).1, hrefused err (h.fails err herr).2⟩

theorem congr {allowed' : Prop} (h : Atomic before run allowed effect refused)
    (hallowed : allowed ↔ allowed') : Atomic before run allowed' effect refused where
  succeeds_iff := h.succeeds_iff.trans hallowed
  does := h.does
  fails := h.fails

/-- Giving back something afterwards. -/
theorem andReturn {β : Type} {x : ExceptT ε (StateM σ) α} (b : β)
    (h : Atomic before (x before) allowed effect refused) :
    Atomic before ((do let _ ← x; return b : ExceptT ε (StateM σ) β) before) allowed
      (fun b' after => b' = b ∧ ∃ a, effect a after) refused := by
  rw [bind_apply]
  refine .of_cases (fun hallowed => ?_) fun hnot => ?_
  · obtain ⟨a, after, hrun, heffect⟩ := h.eq_ok hallowed
    rw [hrun]
    exact ⟨b, after, rfl, rfl, a, heffect⟩
  · obtain ⟨err, hrun, hrefused⟩ := h.eq_error hnot
    rw [hrun]
    exact ⟨err, rfl, hrefused⟩

/-- A computation without arithmetic does not overflow. -/
theorem lift {x : ExceptT MemoryError (StateM σ) α} {refused : MemoryError → Prop}
    (h : Atomic before (x before) allowed effect refused) :
    Atomic before (WordFault.lift x before) allowed effect (WordFault.IsAccess refused) := by
  refine .of_cases (fun hallowed => ?_) fun hnot => ?_
  · obtain ⟨a, after, hrun, heffect⟩ := h.eq_ok hallowed
    exact ⟨a, after, WordFault.lift_of_ok hrun, heffect⟩
  · obtain ⟨err, hrun, hrefused⟩ := h.eq_error hnot
    exact ⟨.memory err, WordFault.lift_of_error hrun, hrefused⟩

end Atomic

/-! ## Calls -/

namespace Libc

variable {m : Machine Function} {addr : Nat} {contents : LinearMemory}

/-- A failed call has accessed bytes outside of the memory. -/
def FailedOutside (size : Nat) (failure : Failure) : Prop :=
  ∃ err : MemoryError, failure = .ofMemoryError err ∧ err.Outside size

/-- The machine at the start of a run, with other contents of its memory. -/
def holding (contents : LinearMemory) : Machine Function :=
  Machine.withContents (.initial .default (.ofList []) .accepting) 0 contents

theorem activeMemory_holding (contents : LinearMemory) :
    (holding contents).activeMemory = .ok (0, contents) := by
  obtain ⟨start, hactive, hsize⟩ : ∃ start : LinearMemory,
      Machine.activeMemory (.initial .default (.ofList []) .accepting : Machine Function)
        = .ok (0, start) ∧ 0 < start.size := ⟨_, rfl, by decide +kernel⟩
  exact Machine.activeMemory_withContents hactive hsize contents

variable [Budget]

/-- Code of a module without exports. -/
def plainCaller : Caller Function := ⟨[], loadModule (engine.invoke 0)⟩

/-- **A question** is answered from the active memory, and nothing changes. -/
theorem stubs_query (hactive : m.activeMemory = .ok (addr, contents)) (q : MemoryQuery)
    (caller : Caller Function) (args : List Value) :
    engine.stubs (.word (.query q)) caller args m
      = (((q.answer (Args.word args) contents).mapError .ofMemoryError).map .i32, m) := by
  have hlook : (look (q.answer (Args.word args)) : Action Function MemoryError UInt32) m
      = (q.answer (Args.word args) contents, m) := by
    rw [look, hactive]
    rfl
  refine (replyWord_apply _ m).trans ?_
  rw [hlook]

theorem query_eq_ok (hactive : m.activeMemory = .ok (addr, contents)) {q : MemoryQuery}
    {caller : Caller Function} {args : List Value} {r : UInt32}
    (h : q.answer (Args.word args) contents = .ok r) :
    engine.stubs (.word (.query q)) caller args m = (.ok (.i32 r), m) := by
  rw [stubs_query hactive, h]
  rfl

theorem query_eq_error (hactive : m.activeMemory = .ok (addr, contents)) {q : MemoryQuery}
    {caller : Caller Function} {args : List Value} {err : MemoryError}
    (h : q.answer (Args.word args) contents = .error err) :
    engine.stubs (.word (.query q)) caller args m = (.error (.ofMemoryError err), m) := by
  rw [stubs_query hactive, h]
  rfl

/-- **A change** is made to the active memory, and nothing else changes unless the host panics. -/
theorem stubs_edit (hactive : m.activeMemory = .ok (addr, contents)) (e : MemoryEdit)
    (caller : Caller Function) (args : List Value) :
    engine.stubs (.word (.edit e)) caller args m
      = (((e.perform (Args.word args) contents).1.mapError .ofWordFault).map .i32,
          (m.withContents addr (e.perform (Args.word args) contents).2).panicIf
            (e.perform (Args.word args) contents).1) := by
  have hmemory : (onContents .memory (e.perform (Args.word args))
      : Action Function WordFault UInt32) m
      = ((e.perform (Args.word args) contents).1,
          m.withContents addr (e.perform (Args.word args) contents).2) := by
    rw [onContents, hactive]
    rfl
  refine (replyChecked_apply _ m).trans ?_
  rw [orPanic_apply, hmemory]

section

variable (hactive : m.activeMemory = .ok (addr, contents)) {e : MemoryEdit}
variable {caller : Caller Function} {args : List Value}

include hactive

theorem stub_eq_ok {reply : Reply}
    (h : (engine.stubs (.word (.edit e)) caller args m).1 = .ok reply) :
    ∃ dst after, e.perform (Args.word args) contents = (.ok dst, after) ∧ reply = .i32 dst
      ∧ (engine.stubs (.word (.edit e)) caller args m).2 = m.withContents addr after := by
  rw [stubs_edit hactive] at h ⊢
  rcases hrun : e.perform (Args.word args) contents with ⟨err | dst, after⟩ <;>
    rw [hrun] at h <;> cases h
  exact ⟨dst, after, rfl, rfl, rfl⟩

theorem stub_succeeds_iff :
    (∃ reply, (engine.stubs (.word (.edit e)) caller args m).1 = .ok reply)
      ↔ ∃ dst, (e.perform (Args.word args) contents).1 = .ok dst := by
  constructor
  · rintro ⟨reply, h⟩
    obtain ⟨dst, after, hrun, -⟩ := stub_eq_ok hactive h
    exact ⟨dst, congrArg Prod.fst hrun⟩
  · rintro ⟨dst, h⟩
    rw [stubs_edit hactive, h]
    exact ⟨.i32 dst, rfl⟩

/-- A change of the memory that does all or nothing does so as a call, too. -/
theorem atomic_stub {allowed : Prop} {effect : UInt32 → LinearMemory → Prop}
    {refused : MemoryError → Prop}
    (h : Atomic contents (e.perform (Args.word args) contents) allowed effect
      (WordFault.IsAccess refused)) :
    Atomic m (engine.stubs (.word (.edit e)) caller args m) allowed
      (fun reply m' => ∃ dst after, reply = .i32 dst ∧ m' = m.withContents addr after
        ∧ effect dst after)
      (fun failure => ∃ err, failure = .ofMemoryError err ∧ refused err) := by
  rw [stubs_edit hactive]
  refine .of_cases (fun hallowed => ?_) fun hnot => ?_
  · obtain ⟨dst, after, hrun, heffect⟩ := h.eq_ok hallowed
    rw [hrun]
    exact ⟨.i32 dst, m.withContents addr after, rfl, dst, after, rfl, rfl, heffect⟩
  · obtain ⟨fault, hrun, hrefused⟩ := h.eq_error hnot
    rw [hrun, m.withContents_self hactive]
    cases fault with
    | memory err => exact ⟨.ofMemoryError err, rfl, err, rfl, hrefused⟩
    | overflow => exact hrefused.elim

end

end Libc

end WasmHost
