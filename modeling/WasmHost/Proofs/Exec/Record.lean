import WasmHost.Proofs.Action

set_option autoImplicit false

/-! # What running code calls

The only way out of a function is `call`. `Instr.record` and its companions list what happens in the
calls that an execution makes, in order, given what happens in each single call. They follow the
execution and change nothing about it.

The main result, `FuncDef.run_traces`, is about every property of runs that holds of steps without
calls and of sequences (`Trace.Sequential`): if it holds of each single call, it holds of the whole
execution with what was recorded of it. Between two calls code changes nothing but memories, tables
and globals (`Machine.Quiet`). -/

namespace WasmHost

variable {ι κ α β : Type}

/-! ## Steps without calls -/

/-- The two machines differ at most in the contents of memories, tables and globals. -/
structure Machine.Quiet (m m' : Machine ι) : Prop where
  host : m'.host = m.host
  panicked : m'.panicked = m.panicked
  instances : m'.store.instances = m.store.instances
  memories : m'.store.memories.size = m.store.memories.size
  tables : m'.store.tables.size = m.store.tables.size

instance : IsPreorder (Machine ι) Machine.Quiet where
  refl _ := ⟨rfl, rfl, rfl, rfl, rfl⟩
  trans _ _ _ h₁ h₂ :=
    ⟨h₂.host.trans h₁.host, h₂.panicked.trans h₁.panicked, h₂.instances.trans h₁.instances,
      h₂.memories.trans h₁.memories,
      h₂.tables.trans h₁.tables⟩

theorem Machine.Quiet.rfl {m : Machine ι} : m.Quiet m := refl_of Machine.Quiet m

theorem Machine.Quiet.trans {m m' m'' : Machine ι} (h₁ : m.Quiet m') (h₂ : m'.Quiet m'') :
    m.Quiet m'' :=
  trans_of Machine.Quiet h₁ h₂

theorem Machine.quiet_setMemory (m : Machine ι) (addr : Nat) (memory : MemoryInstance) :
    m.Quiet { m with store := m.store.setMemory addr memory } :=
  ⟨rfl, rfl, rfl, Array.size_setIfInBounds, rfl⟩

theorem Machine.quiet_setTable (m : Machine ι) (addr : Nat) (table : TableInstance ι) :
    m.Quiet { m with store := m.store.setTable addr table } :=
  ⟨rfl, rfl, rfl, rfl, Array.size_setIfInBounds⟩

theorem Machine.quiet_setGlobal (m : Machine ι) (addr : Nat) (v : Value) :
    m.Quiet { m with store := m.store.setGlobal addr v } :=
  ⟨rfl, rfl, rfl, rfl, rfl⟩

namespace Exec

open WasmHost.Action

theorem addressOf_quiet (addrs : List α) (index : Nat) :
    Keeps Machine.Quiet (addressOf addrs index : Action ι Failure α) :=
  .ofExcept _

theorem memoryOf_quiet (inst : Instance ι) : Keeps Machine.Quiet (memoryOf inst) :=
  (addressOf_quiet _ _).bind fun _ => .bind .getStore fun _ => .pure _

theorem loadBytes_quiet (inst : Instance ι) (addr : UInt32) (count : Nat) :
    Keeps Machine.Quiet (loadBytes inst addr count) := by
  refine (memoryOf_quiet inst).bind ?_
  rintro ⟨_, memory⟩
  dsimp only
  split
  · exact .pure _
  · exact .ofExcept _

theorem storeBytes_quiet (inst : Instance ι) (addr : UInt32) (count n : Nat) :
    Keeps Machine.Quiet (storeBytes inst addr count n) := by
  refine (memoryOf_quiet inst).bind ?_
  rintro ⟨_, memory⟩
  dsimp only
  split
  · exact .modifyStore fun m => m.quiet_setMemory _ _
  · exact .ofExcept _

theorem growMemory_quiet (inst : Instance ι) (delta : UInt32) :
    Keeps Machine.Quiet (growMemory inst delta) := by
  refine (memoryOf_quiet inst).bind ?_
  rintro ⟨_, memory⟩
  dsimp only
  split
  · exact .bind (.modifyStore fun m => m.quiet_setMemory _ _) fun _ => .pure _
  · exact .pure _

theorem tableFunc_quiet (inst : Instance ι) (type : FuncType) (slot : UInt32) :
    Keeps Machine.Quiet (tableFunc inst type slot) := by
  refine (addressOf_quiet _ _).bind fun _ => .bind .getStore fun _ => ?_
  split
  · exact .ofExcept _
  · exact .ofExcept _
  · split
    · exact .pure _
    · exact .ofExcept _

end Exec

/-! ## Properties of runs -/

/-- The failure of a computation that failed. -/
def failureOf : Except Failure α → Option Failure
  | .ok _ => none
  | .error failure => some failure

@[simp] theorem failureOf_ok (a : α) : failureOf (.ok a) = none := rfl

@[simp] theorem failureOf_error (failure : Failure) :
    failureOf (.error failure : Except Failure α) = some failure := rfl

theorem error_of_failureOf {r : Except Failure α} {failure : Failure}
    (h : failureOf r = some failure) : r = .error failure := by
  rcases r with failure' | a <;> cases h
  rfl

theorem ok_of_toOption {ε : Type} {r : Except ε α} {a : α} (h : r.toOption = some a) : r = .ok a := by
  rcases r with err | a' <;> cases h
  rfl

/-- A property of runs: of the machine at the start, of what was recorded on the way, of the failure
    that ended the run, if one did, and of the machine at the end. -/
abbrev Trace (ι κ : Type) := Machine ι → List κ → Option Failure → Machine ι → Prop

/-- The property holds of runs without calls, however they end, and of a run that goes on after
    another one. -/
structure Trace.Sequential (Q : Trace ι κ) : Prop where
  quiet {m m' : Machine ι} (failure : Option Failure) (h : m.Quiet m') : Q m [] failure m'
  append {m m' m'' : Machine ι} {log log' : List κ} {failure : Option Failure}
    (h : Q m log none m') (h' : Q m' log' failure m'') : Q m (log ++ log') failure m''

/-- The property holds of every run of the computation, with what `log` records of it. -/
def Action.Traces (Q : Trace ι κ) (x : Action ι Failure α) (log : Machine ι → List κ) : Prop :=
  ∀ m, Q m (log m) (failureOf (x m).1) (x m).2

/-- What is recorded of a computation that comes after another one. -/
def Action.andThen {ε : Type} (x : Action ι ε α) (log : α → Machine ι → List κ) (m : Machine ι) :
    List κ :=
  match x m with
  | (.ok a, m') => log a m'
  | (.error _, _) => []

namespace Action

variable {Q : Trace ι κ} {x : Action ι Failure α} {f : α → Action ι Failure β}

theorem Traces.quiet (hQ : Q.Sequential) (hx : Keeps Machine.Quiet x) :
    Traces Q x fun _ => [] :=
  fun m => hQ.quiet _ (hx m)

theorem Traces.bind (hQ : Q.Sequential) {log : Machine ι → List κ}
    {logs : α → Machine ι → List κ} (hx : Traces Q x log) (hf : ∀ a, Traces Q (f a) (logs a)) :
    Traces Q (x >>= f) fun m => log m ++ x.andThen logs m := by
  intro m
  have hm := hx m
  rcases hr : x m with ⟨failure | a, m'⟩ <;> rw [hr] at hm
  · simpa only [bind_apply_of_error hr, andThen, hr, List.append_nil, failureOf_error] using hm
  · simpa only [bind_apply_of_ok hr, andThen, hr] using hQ.append hm (hf a m')

/-- Before a computation of which something is recorded others may run that make no calls. -/
theorem Traces.bind_quiet (hQ : Q.Sequential) {logs : α → Machine ι → List κ}
    (hx : Keeps Machine.Quiet x) (hf : ∀ a, Traces Q (f a) (logs a)) :
    Traces Q (x >>= f) (x.andThen logs) :=
  (Traces.quiet hQ hx).bind hQ hf

/-- After a computation of which something is recorded others may run that make no calls. -/
theorem Traces.then_quiet (hQ : Q.Sequential) {log : Machine ι → List κ} (hx : Traces Q x log)
    (hf : ∀ a, Keeps Machine.Quiet (f a)) : Traces Q (x >>= f) log := by
  intro m
  have hm := hx m
  rcases hr : x m with ⟨failure | a, m'⟩ <;> rw [hr] at hm
  · simpa only [bind_apply_of_error hr, failureOf_error] using hm
  · simpa only [bind_apply_of_ok hr, List.append_nil] using hQ.append hm (hQ.quiet _ (hf a m'))

end Action

/-! ## Recording an execution -/

/-- What is to be recorded of a call, given the function, its arguments and the machine. -/
abbrev Recorder (ι κ : Type) := Func ι → List Value → Machine ι → List κ

/-- What is recorded of a call with operands from the stack. -/
def Exec.recordCallFrom (recorder : Recorder ι κ) (f : Func ι) (fr : Frame) (m : Machine ι) :
    List κ :=
  (Action.ofExcept (fr.popMany f.type.params.length)).andThen (fun e => recorder f e.1) m

/-- What is recorded of a loop: the rounds in order. -/
def Exec.recordLoop (body : Frame → Action ι Failure Flow)
    (log : Frame → Machine ι → List κ) (stack : List Value) : Nat → Frame → Machine ι → List κ
  | 0, _, _ => []
  | fuel + 1, fr, m =>
      log fr m ++ (body fr).andThen (fun flow m' =>
        match flow with
        | .branch 0 fr' => recordLoop body log stack fuel { fr' with stack := stack } m'
        | _ => []) m

section

open Exec

variable (fuel : Nat) (call : Call ι) (recorder : Recorder ι κ) (inst : Instance ι)

mutual

/-- What is recorded of one instruction. -/
def Instr.record : Instr → Frame → Machine ι → List κ
  | .call f, fr, m =>
      (addressOf inst.funcs f).andThen (fun func => recordCallFrom recorder func fr) m
  | .callIndirect type, fr, m =>
      (Action.ofExcept fr.popWord).andThen (fun e =>
        (tableFunc inst type e.1).andThen fun func => recordCallFrom recorder func e.2) m
  | .ifElse thenBody elseBody, fr, m =>
      (Action.ofExcept fr.popWord).andThen (fun e m' =>
        if e.1 ≠ 0 then recordBody thenBody e.2 m' else recordBody elseBody e.2 m') m
  | .block body, fr, m => recordBody body fr m
  | .loop body, fr, m =>
      recordLoop (execBody fuel call inst body) (recordBody body) fr.stack fuel fr m
  | _, _, _ => []

/-- What is recorded of a sequence of instructions. -/
def recordBody : List Instr → Frame → Machine ι → List κ
  | [], _, _ => []
  | i :: is, fr, m =>
      i.record fr m ++ (i.exec fuel call inst fr).andThen (fun flow m' =>
        match flow with
        | .next fr' => recordBody is fr' m'
        | _ => []) m

end

/-- What is recorded of a function. -/
def FuncDef.record (f : FuncDef) (args : List Value) (m : Machine ι) : List κ :=
  recordBody fuel call recorder inst f.body ⟨(args ++ f.locals.map Value.zero).toArray, []⟩ m

end

/-! ## The calls are all that matters -/

section

open Exec WasmHost.Action

variable {Q : Trace ι κ} {fuel : Nat} {call : Call ι} {recorder : Recorder ι κ}
  {inst : Instance ι}

theorem Exec.callFrom_traces (hQ : Q.Sequential)
    (hcall : ∀ f args, Traces Q (call f args) (recorder f args)) (f : Func ι) (fr : Frame) :
    Traces Q (callFrom call f fr) (recordCallFrom recorder f fr) := by
  refine .bind_quiet hQ (.ofExcept _) ?_
  rintro ⟨args, fr'⟩
  exact (hcall f args).then_quiet hQ fun _ => .pure _

theorem Exec.repeatLoop_traces (hQ : Q.Sequential) {body : Frame → Action ι Failure Flow}
    {log : Frame → Machine ι → List κ} (hbody : ∀ fr, Traces Q (body fr) (log fr))
    (stack : List Value) (rounds : Nat) (fr : Frame) :
    Traces Q (repeatLoop body stack rounds fr) (recordLoop body log stack rounds fr) := by
  induction rounds generalizing fr with
  | zero => exact .quiet hQ (.ofExcept _)
  | succ rounds ih =>
      -- only a branch to the loop itself starts another round
      refine (hbody fr).bind hQ fun flow => ?_
      rcases flow with fr' | ⟨_ | depth, fr'⟩ | fr'
      · exact .quiet hQ (.pure _)
      · exact ih _
      · exact .quiet hQ (.pure _)
      · exact .quiet hQ (.pure _)

/-- Whether an instruction neither calls a function nor holds further instructions. -/
def Instr.isPlain : Instr → Bool
  | .call _ | .callIndirect _ | .ifElse _ _ | .block _ | .loop _ => false
  | _ => true

theorem Instr.exec_quiet {i : Instr} (h : i.isPlain) (fr : Frame) :
    Keeps Machine.Quiet (i.exec fuel call inst fr) := by
  cases i with
  | call | callIndirect | ifElse | block | loop => exact absurd h (by simp [isPlain])
  | const | localGet | ret | br => exact .pure _
  | unreachable => exact .ofExcept _
  | localSet | drop => exact .bind (.ofExcept _) fun _ => .pure _
  | brIf | wordEqz | wrap => exact .bind (.ofExcept _) fun _ => .pure _
  | globalGet => exact (addressOf_quiet _ _).bind fun _ => .bind .getStore fun _ => .pure _
  | globalSet =>
      exact .bind (.ofExcept _) fun _ => (addressOf_quiet _ _).bind fun _ =>
        .bind (.modifyStore fun m => m.quiet_setGlobal _ _) fun _ => .pure _
  | word | long =>
      refine .bind (.ofExcept _) fun _ => .bind (.ofExcept _) fun _ => ?_
      dsimp only
      split
      · exact .pure _
      · exact .ofExcept _
  | truncToWord =>
      refine .bind (.ofExcept _) fun _ => ?_
      dsimp only
      split
      · exact .pure _
      · exact .ofExcept _
  | load | loadByte =>
      exact .bind (.ofExcept _) fun _ => (loadBytes_quiet _ _ _).bind fun _ => .pure _
  | store | storeByte =>
      exact .bind (.ofExcept _) fun _ => .bind (.ofExcept _) fun _ =>
        (storeBytes_quiet _ _ _ _).bind fun _ => .pure _
  | memorySize => exact (memoryOf_quiet _).bind fun _ => .pure _
  | memoryGrow => exact .bind (.ofExcept _) fun _ => (growMemory_quiet _ _).bind fun _ => .pure _
  | tableSize => exact (addressOf_quiet _ _).bind fun _ => .bind .getStore fun _ => .pure _

mutual

theorem Instr.exec_traces (hQ : Q.Sequential)
    (hcall : ∀ f args, Traces Q (call f args) (recorder f args)) (i : Instr) (fr : Frame) :
    Traces Q (i.exec fuel call inst fr) (i.record fuel call recorder inst fr) := by
  cases i with
  | call f =>
      exact .bind_quiet hQ (addressOf_quiet _ _) fun func => callFrom_traces hQ hcall func fr
  | callIndirect type =>
      refine .bind_quiet hQ (.ofExcept _) ?_
      rintro ⟨slot, fr'⟩
      exact .bind_quiet hQ (tableFunc_quiet _ _ _) fun func => callFrom_traces hQ hcall func fr'
  | ifElse thenBody elseBody =>
      refine .bind_quiet hQ (.ofExcept _) ?_
      rintro ⟨c, fr'⟩
      dsimp only
      -- the branch is chosen before anything is called, so the record has the same condition
      by_cases hc : c ≠ 0
      · simp only [if_pos hc]
        exact (execBody_traces hQ hcall thenBody fr').then_quiet hQ fun _ => .pure _
      · simp only [if_neg hc]
        exact (execBody_traces hQ hcall elseBody fr').then_quiet hQ fun _ => .pure _
  | block body => exact (execBody_traces hQ hcall body fr).then_quiet hQ fun _ => .pure _
  | loop body => exact repeatLoop_traces hQ (execBody_traces hQ hcall body) _ _ _
  | _ => exact .quiet hQ (Instr.exec_quiet rfl fr)

theorem execBody_traces (hQ : Q.Sequential)
    (hcall : ∀ f args, Traces Q (call f args) (recorder f args)) (is : List Instr) (fr : Frame) :
    Traces Q (execBody fuel call inst is fr) (recordBody fuel call recorder inst is fr) := by
  cases is with
  | nil => exact .quiet hQ (.pure _)
  | cons i is =>
      refine (Instr.exec_traces hQ hcall i fr).bind hQ fun flow => ?_
      -- instructions after a branch or a return are neither executed nor recorded
      cases flow with
      | next fr' => exact execBody_traces hQ hcall is fr'
      | branch depth fr' => exact .quiet hQ (.pure _)
      | ret fr' => exact .quiet hQ (.pure _)

end

/-- **A property of runs that every call has, an execution has.** -/
theorem FuncDef.run_traces (hQ : Q.Sequential)
    (hcall : ∀ f args, Traces Q (call f args) (recorder f args)) (f : FuncDef)
    (args : List Value) :
    Traces Q (f.run fuel call inst args) (f.record fuel call recorder inst args) := by
  refine (execBody_traces hQ hcall f.body _).then_quiet hQ fun flow => ?_
  cases flow <;> exact .bind (.ofExcept _) fun _ => .pure _

end

end WasmHost
