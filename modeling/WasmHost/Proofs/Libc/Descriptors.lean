import WasmHost.Proofs.Descriptors.OpenSet
import WasmHost.Proofs.Libc.MemoryCalls

set_option autoImplicit false

/-! # Descriptors of programs

A call of `open`, `creat` or `close` is one use of the table of descriptors, and no other call
touches it. So whatever a program does, its calls use the table one after the other, from the three
standard streams on, and reply what the table answers.

The main result is `Libc.descriptors_exact`. -/

namespace WasmHost

open WasmHost.Action

/-- The machine with other descriptors. -/
def Machine.withDescriptors {ι : Type} (m : Machine ι) (descriptors : Descriptors) : Machine ι :=
  { m with host := { m.host with descriptors := descriptors } }

/-- The number that a function gives back for an event: the descriptor, or 0 or -1. -/
inductive DescriptorEvent.RepliedAs : DescriptorEvent → Int → Prop where
  | opened (n : ℕ) : RepliedAs (.opened n) n
  | full : RepliedAs .full (-1)
  | closed (fd : Int32) : RepliedAs (.closed fd) 0
  | notOpen (fd : Int32) : RepliedAs (.notOpen fd) (-1)

namespace Libc

variable {ι : Type}

/-! ## Single calls -/

/-- The use of the table that a function makes. -/
def Function.descriptorUse? (f : Function) (args : List Value) : Option DescriptorUse :=
  match f with
  | .word .openFile => some .openLowest
  | .word .closeFile => some (.close (Args.word args 0).toInt32)
  | _ => none

theorem openDescriptor_perform (m : Machine ι) :
    ∃ w : UInt32, (m.host.descriptors.perform .openLowest).1.RepliedAs w.toInt32.toInt
      ∧ openDescriptor m
        = (.ok w, m.withDescriptors (m.host.descriptors.perform .openLowest).2) := by
  rw [openDescriptor, Descriptors.perform]
  rcases m.host.descriptors.openLowest with _ | ⟨i, d⟩
  · exact ⟨0xffffffff, .full, rfl⟩
  · refine ⟨i.val.toUInt32, ?_, rfl⟩
    have hint : i.val.toUInt32.toInt32.toInt = i.val := by
      have hi : i.val < 256 := i.isLt
      rw [Nat.toUInt32, UInt32.toInt32_ofNat', Int32.toInt_ofNat_of_lt (by omega)]
    rw [hint]
    exact .opened i

theorem closeDescriptor_perform (fd : Int32) (m : Machine ι) :
    ∃ w : UInt32, (m.host.descriptors.perform (.close fd)).1.RepliedAs w.toInt32.toInt
      ∧ closeDescriptor fd m
        = (.ok w, m.withDescriptors (m.host.descriptors.perform (.close fd)).2) := by
  rw [closeDescriptor, Descriptors.perform]
  rcases m.host.descriptors.close fd.toInt with _ | d
  · exact ⟨0xffffffff, .notOpen fd, rfl⟩
  · exact ⟨0, .closed fd, rfl⟩

/-- A call uses the table: it replies what the table answers, and changes nothing else. -/
def Answers (use : DescriptorUse) (m : Machine Function)
    (r : Except Failure Reply × Machine Function) : Prop :=
  ∃ w : UInt32, (m.host.descriptors.perform use).1.RepliedAs w.toInt32.toInt
    ∧ r = (.ok (.i32 w), m.withDescriptors (m.host.descriptors.perform use).2)

section

variable [Budget]

/-- **A function that uses the table** does what the table does. -/
theorem stubs_descriptors {f : Function} {args : List Value} {use : DescriptorUse}
    (h : f.descriptorUse? args = some use) (caller : Caller Function) (m : Machine Function) :
    Answers use m (engine.stubs f caller args m) := by
  unfold Function.descriptorUse? at h
  split at h <;> cases h
  · obtain ⟨w, hreplied, hrun⟩ := openDescriptor_perform m
    refine ⟨w, hreplied, (bind_pure_apply _ Reply.i32 m).trans ?_⟩
    rw [hrun]
    rfl
  · obtain ⟨w, hreplied, hrun⟩ := closeDescriptor_perform (Args.word args 0).toInt32 m
    refine ⟨w, hreplied, (bind_pure_apply _ Reply.i32 m).trans ?_⟩
    rw [hrun]
    rfl

/-- **No other function touches the table.** A load that `dlopen` makes may call others. -/
theorem stubs_reserves {f : Function} {args : List Value} (h : f.descriptorUse? args = none)
    {m : Machine Function} (hload : loads f args m = none) (caller : Caller Function) :
    m.Reserves (engine.stubs f caller args m).2 := by
  rcases f with f | _ | f
  · rfl
  · rfl
  by_cases hf : f = .dlopen
  · subst hf
    rw [stubs_dlopen]
    exact dlopen_of_not_loads Machine.Reserves.loaderLenient hload
  · have hdescriptors : f.usesDescriptors = false := by
      cases f <;> first | rfl | cases h
    exact f.call_reserves hdescriptors hf caller (Args.word args) m

/-! ## Programs -/

/-- The use of the table that a call in a history makes, apart from those of the calls inside it. -/
def descriptorUse? (c : StubCall Function) : Option DescriptorUse :=
  match c.stub with
  | .implemented f => f.descriptorUse? c.args
  | .placeholder => none

/-- The calls of a history that use the table, wherever they are made. -/
def descriptorCalls (cs : List (StubCall Function)) : List (StubCall Function) :=
  (flattenAll cs).filter fun c => (descriptorUse? c).isSome

/-- Their uses of the table. -/
def descriptorUses (cs : List (StubCall Function)) : List DescriptorUse :=
  (flattenAll cs).filterMap descriptorUse?

/-- A call gives back what the table has answered. -/
def GivesBack (c : StubCall Function) (event : DescriptorEvent) : Prop :=
  ∃ w : UInt32, event.RepliedAs w.toInt32.toInt
    ∧ (c.run engine).1 = .ok (c.type.resultsOf (.i32 w))

theorem run_of_uses {c : StubCall Function} {use : DescriptorUse}
    (h : descriptorUse? c = some use) :
    GivesBack c (c.before.host.descriptors.perform use).1
      ∧ (c.run engine).2.host.descriptors = (c.before.host.descriptors.perform use).2 := by
  rcases hstub : c.stub with f | _ <;> rw [descriptorUse?, hstub] at h
  case placeholder => cases h
  obtain ⟨w, hreplied, hstubs⟩ :=
    stubs_descriptors h ⟨c.exports, loadModule (engine.invoke c.depth)⟩ c.before
  have hrun : c.run engine = (.ok (c.type.resultsOf (.i32 w)),
      c.before.withDescriptors (c.before.host.descriptors.perform use).2) := by
    rw [StubCall.run, hstub, Engine.callStub, bind_pure_apply, hstubs]
    rfl
  rw [GivesBack, hrun]
  exact ⟨⟨w, hreplied, rfl⟩, rfl⟩

theorem run_of_not_uses {c : StubCall Function} (h : descriptorUse? c = none)
    (hload : c.stub.loaded? loads c.args c.before = none) :
    c.before.Reserves (c.run engine).2 := by
  rw [StubCall.run]
  rcases hstub : c.stub with f | _ <;> rw [hstub] at hload <;> rw [descriptorUse?, hstub] at h
  · rw [callStub_machine]
    exact stubs_reserves h hload _
  · rfl

/-- The calls of a history use the table one after the other, and nothing else changes it. -/
def DescriptorTrace : Trace Function (StubCall Function) := fun m cs _ m' =>
  List.Forall₂ GivesBack (descriptorCalls cs) (m.host.descriptors.performAll (descriptorUses cs)).1
    ∧ m'.host.descriptors = (m.host.descriptors.performAll (descriptorUses cs)).2

theorem DescriptorTrace.steady : DescriptorTrace.Steady where
  calm _ h := ⟨.nil, h.descriptors⟩
  append := by
    rintro m m' m'' cs ds failure ⟨hcs, hm'⟩ ⟨hds, hm''⟩
    rw [DescriptorTrace, descriptorCalls, descriptorUses, flattenAll_append, List.filter_append,
      List.filterMap_append, Descriptors.performAll_append]
    rw [hm'] at hds hm''
    exact ⟨List.rel_append hcs hds, hm''⟩

/-- **Every call** is its use of the table, after those of the calls inside it. -/
theorem DescriptorTrace.stubs : engine.TracesStubs loads DescriptorTrace := by
  refine tracesStubs_of_calls DescriptorTrace.steady (fun c _ hflatten hname => ?_) ?_
  · rw [DescriptorTrace, descriptorCalls, descriptorUses, hflatten]
    rcases huse : descriptorUse? c with _ | use
    · rw [List.filter_cons_of_neg (by rw [huse]; exact Bool.false_ne_true),
        List.filterMap_cons_none huse]
      exact ⟨.nil, run_of_not_uses huse hname⟩
    · obtain ⟨hgives, hdescriptors⟩ := run_of_uses huse
      rw [List.filter_cons_of_pos (by rw [huse]; rfl), List.filterMap_cons_some huse]
      exact ⟨.cons hgives .nil, hdescriptors⟩
  · -- opening a library uses the table only through the calls that a start function makes
    intro c _ _ m t hstub htrace
    have huse : descriptorUse? c = none := by rw [descriptorUse?, hstub]; rfl
    have hcalls : descriptorCalls [c] = descriptorCalls c.inner := by
      rw [descriptorCalls, flattenAll_singleton, List.filter_append,
        List.filter_cons_of_neg (by rw [huse]; exact Bool.false_ne_true)]
      exact List.append_nil _
    have huses : descriptorUses [c] = descriptorUses c.inner := by
      rw [descriptorUses, flattenAll_singleton, List.filterMap_append,
        List.filterMap_cons_none huse]
      exact List.append_nil _
    rw [DescriptorTrace, hcalls, huses]
    exact htrace

/-- The calls of a program use the table that a run starts with. -/
theorem descriptors_program (config : Config) (source : ModuleSource ModuleObject) (sink : Sink)
    (libs : List (StubLibrary Function)) (main : String) (extra : List String) :
    let start : Machine Function := .initial config source sink
    let history := engine.recordProgram loads libs main extra start
    let uses := Descriptors.initial.performAll (descriptorUses history)
    List.Forall₂ GivesBack (descriptorCalls history) uses.1
      ∧ (engine.program libs main extra start).2.host.descriptors = uses.2 := by
  intro start history uses
  obtain ⟨_, htrace⟩ := Engine.program_trace_of_reporting DescriptorTrace.steady
    DescriptorTrace.stubs (fun _ h => h) libs main extra start
  exact htrace

end

theorem provides_openFile : ∀ name ∈ ["open", "creat"], Provides name (.word .openFile) :=
  provides_of_entries (by decide +kernel)

theorem provides_closeFile : ∀ name ∈ ["close"], Provides name (.word .closeFile) :=
  provides_of_entries (by decide +kernel)

/-- **Descriptors are a set.** Any uses of the table, and so the calls of `open`, `creat` and
    `close` that a program makes, whatever else it does, are a run of a set that starts with the
    standard streams: the least number is opened that is not in the set, a member is closed and
    nothing else, and being open is being a member. -/
theorem descriptors_exact [Budget] :
    (∀ uses, let run := Descriptors.initial.performAll uses
      SetHistory uses run.1 run.2.openSet)
      ∧ (∀ (d : Descriptors) (fd : Int32), fd.toInt < 0 ∨ 255 < fd.toInt →
        d.isOpen fd.toInt = false)
      ∧ ((∀ name ∈ ["open", "creat"], Provides name (.word .openFile))
        ∧ Provides "close" (.word .closeFile))
      ∧ (∀ (caller : Caller Function) (args : List Value) (m : Machine Function),
        Answers .openLowest m (engine.stubs (.word .openFile) caller args m)
          ∧ Answers (.close (Args.word args 0).toInt32) m
            (engine.stubs (.word .closeFile) caller args m))
      ∧ ∀ (config : Config) (source : ModuleSource ModuleObject) (sink : Sink)
          (libs : List (StubLibrary Function)) (main : String) (extra : List String),
        let start : Machine Function := .initial config source sink
        let history := engine.recordProgram loads libs main extra start
        ∃ events, List.Forall₂ GivesBack (descriptorCalls history) events
          ∧ SetHistory (descriptorUses history) events
            (engine.program libs main extra start).2.host.descriptors.openSet := by
  refine ⟨Descriptors.setHistory, fun d fd => Descriptors.isOpen_eq_false,
    ⟨provides_openFile, provides_closeFile "close" List.mem_cons_self⟩,
    fun caller args m => ⟨stubs_descriptors rfl caller m, stubs_descriptors rfl caller m⟩, ?_⟩
  intro config source sink libs main extra start history
  obtain ⟨hgives, hfinal⟩ := descriptors_program config source sink libs main extra
  refine ⟨_, hgives, ?_⟩
  rw [hfinal]
  exact Descriptors.setHistory _

/-- Descriptor 3 is handed out twice, and closed in between; the standard output is closed and its
    number handed out as well. Negative numbers and 256 are nothing that could be closed or open. -/
theorem descriptors_exact_reopened :
    let uses : List DescriptorUse :=
      [.openLowest, .close 1, .close (-1), .close 3, .openLowest, .openLowest, .isOpen 256]
    let run := Descriptors.initial.performAll uses
    let m := holding (.zeros 64)
    run.1 = [.opened 3, .closed 1, .notOpen (-1), .closed 3, .opened 1, .opened 3, .asked 256 false]
      ∧ (∃ fd : Int32, .closed fd ∈ run.1 ∧ fd.toInt = 3)
      ∧ run.2.openSet.card = 4
      ∧ run.2.isOpen (256 : Int32).toInt = false
      ∧ Answers (.close (-1)) m
        (engine.stubs (.word .closeFile) plainCaller [.i32 0xffffffff] m) := by
  intro uses run m
  obtain ⟨htable, hnever, -, hcalls, -⟩ := descriptors_exact
  have hevents : run.1 = [.opened 3, .closed 1, .notOpen (-1), .closed 3, .opened 1, .opened 3,
    .asked 256 false] := by decide +kernel
  have hhistory := htable uses
  refine ⟨hevents, ?_, ?_, hnever run.2 256 (.inr (by decide)),
    (hcalls plainCaller [.i32 0xffffffff] m).2⟩
  · obtain ⟨fd, hfd, hint⟩ := hhistory.differ [] [.closed 1, .notOpen (-1), .closed 3, .opened 1]
      [.asked 256 false] 3 hevents
    have hlater := List.mem_append_left [.opened 3, .asked 256 false] hfd
    exact ⟨fd, hevents ▸ List.mem_cons_of_mem (.opened 3) hlater, hint⟩
  · have hcard := hhistory.card
    have hopened : run.1.countP (·.isOpened) = 3 := by rw [hevents]; rfl
    have hclosed : run.1.countP (·.isClosed) = 2 := by rw [hevents]; rfl
    change run.2.openSet.card + run.1.countP (·.isClosed)
      = 3 + run.1.countP (·.isOpened) at hcard
    omega

end Libc

end WasmHost
