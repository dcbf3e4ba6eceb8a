import Mathlib.Data.List.Induction
import WasmHost.Proofs.Libc.Dynamic
import WasmHost.Proofs.Run.Calls

set_option autoImplicit false

/-! # The failure that is kept for dlerror

`Libc.DlFails` says which calls of the dynamic loader fail, and with which error. Such a call keeps
its message, a call of `dlerror` takes it, and no other call touches it. So the message that is kept
is that of the latest failure since the last call of `dlerror` (`Libc.Recalls`), at any depth of
calls inside calls.

The main result is `Libc.recalls_of_callsOf`: it holds of every run, at every call of `dlerror`. -/

namespace WasmHost

open WasmHost.Action

variable {ι : Type}

namespace Libc

/-! ## Failures -/

/-- A table has no slot for another function, or none whose number is no negative 32-bit integer. -/
def TableFull (table : TableInstance ι) : Prop :=
  table.max.getD (UInt32.size - 1) ≤ table.slots.size ∨ UInt32.size ≤ 2 * table.slots.size

/-- The call is one of the dynamic loader and has failed with the error. -/
inductive DlFails [Budget] (c : StubCall Function) : LinkError → Prop where
  /-- The library of the name cannot be opened. -/
  | opening (name : String) (err : LinkError) (hstub : c.stub = .implemented (.word .dlopen))
      (hptr : Args.word c.args 0 ≠ 0) (hname : textOf c.before (Args.word c.args 0) = .ok name)
      (hopen : (openLibrary (loadModule (engine.invoke c.depth)) name ⟨Args.word c.args 1⟩
        c.before).1 = .error err) : DlFails c err
  /-- No library has the handle that is to be closed. -/
  | closing (hstub : c.stub = .implemented (.word .dlclose))
      (hclosed : c.before.host.libraries.library? (Args.word c.args 0) = none) :
      DlFails c (LinkError.ofKind (.invalidHandle (Args.word c.args 0)))
  /-- There is no such symbol. -/
  | missing (name : String) (err : LinkError) (hstub : c.stub = .implemented (.word .dlsym))
      (hname : textOf c.before (Args.word c.args 1) = .ok name)
      (hmissing : c.before.host.libraries.NotFound (Args.word c.args 0) name err) : DlFails c err
  /-- There is no room for a pointer to the function in the table of the caller. -/
  | full (name : String) (f : Func Function) (addr : Nat)
      (hstub : c.stub = .implemented (.word .dlsym))
      (hname : textOf c.before (Args.word c.args 1) = .ok name)
      (hsymbol : c.before.host.libraries.Exports (Args.word c.args 0) name (.func f))
      (htable : Caller.functionTable? ⟨c.exports, loadModule (engine.invoke c.depth)⟩ = some addr)
      (hfull : TableFull (c.before.store.tableAt addr)) :
      DlFails c (LinkError.ofKind (.functionTableFull name))

/-- The call is one of `dlerror`. -/
def Asks (c : StubCall Function) : Prop := c.stub = .implemented (.word .dlerror)

/-! ## Functions -/

section

variable {caller : Caller ι} {m m' : Machine ι} {handle : UInt32} {name : String}

/-- A symbol of a library is not found, or it is a function or a global. -/
theorem found_or_not (t : LibraryTable ι) (handle : UInt32) (name : String) :
    (∃ err, t.NotFound handle name err) ∨ (∃ f, t.Exports handle name (.func f))
      ∨ ∃ addr, t.Exports handle name (.global addr) := by
  rcases hlib : t.library? handle with _ | lib
  · exact .inl ⟨_, .closed hlib⟩
  by_cases hname : name = ""
  · exact .inl ⟨_, .unnamed lib hlib hname⟩
  rcases hitem : lib.loaded.lookup? name with _ | item
  · exact .inl ⟨_, .missing lib hlib hname hitem⟩
  cases item with
  | func f => exact .inr (.inl ⟨f, lib, hlib, hname, hitem⟩)
  | global addr => exact .inr (.inr ⟨addr, lib, hlib, hname, hitem⟩)
  | table addr => exact .inl ⟨_, .noAddress lib _ hlib hname hitem (.inl rfl)⟩
  | memory addr => exact .inl ⟨_, .noAddress lib _ hlib hname hitem (.inr rfl)⟩

/-- A pointer to a function is refused by a full table. -/
theorem functionPointer_of_full {f : Func ι} {addr : Nat}
    (htable : caller.functionTable? = some addr) (hfull : TableFull (m.store.tableAt addr)) :
    (functionPointer caller name f m).2.pendingError
      = some (LinkError.ofKind (.functionTableFull name)).fullMessage := by
  rw [functionPointer_of_table htable, growTable_apply, TableInstance.push?]
  by_cases hroom :
      (m.store.tableAt addr).slots.size + 1 ≤ (m.store.tableAt addr).max.getD (UInt32.size - 1)
  · have hslot : ¬ 2 * (m.store.tableAt addr).slots.size < UInt32.size := by
      rcases hfull with hfull | hfull <;> omega
    simp only [if_pos hroom, if_neg hslot, Machine.pendingError_failing]
  · simp only [if_neg hroom, Machine.pendingError_failing]

/-- Otherwise nothing happens to the message that is kept. -/
theorem functionPointer_pendingError {f : Func ι}
    (h : ∀ addr, caller.functionTable? = some addr → ¬ TableFull (m.store.tableAt addr)) :
    (functionPointer caller name f m).2.pendingError = m.pendingError := by
  rcases htable : caller.functionTable? with _ | addr
  · rw [functionPointer_of_no_table htable]
  have hroom := h addr htable
  simp only [TableFull, not_or, Nat.not_le] at hroom
  rw [functionPointer_of_table htable, growTable_apply, TableInstance.push?]
  simp only [if_pos (Nat.succ_le_of_lt hroom.1), if_pos hroom.2]
  rfl

/-- Opening a library that has to be loaded ends with the load or with recording it. -/
theorem openLibrary_of_loads (load : String → Action ι LinkError (LoadedModule ι))
    {filename flags : UInt32} (h : loadedByOpen? filename flags m = some name) :
    filename ≠ 0 ∧ textOf m filename = .ok name
      ∧ (openLibrary load name ⟨flags⟩ m).1 = (load name m).1.map fun loaded =>
          ((load name m).2.host.libraries.insert name loaded).1 := by
  rw [loadedByOpen?] at h
  split at h
  · cases h
  rename_i hfilename
  rcases htext : textOf m filename with err | name' <;> rw [htext] at h
  · cases h
  dsimp only at h
  split at h <;> cases h
  rename_i hnew
  rw [Bool.and_eq_true, Option.isNone_iff_eq_none] at hnew
  refine ⟨hfilename, rfl, ?_⟩
  simp only [openLibrary_apply, hnew.1, hnew.2, if_true]
  rcases load name m with ⟨err | loaded, m'⟩ <;> rfl

/-- Opening a library that need not be loaded keeps the message if it does not fail. -/
theorem dlopen_pendingError {filename flags : UInt32} (h : loadedByOpen? filename flags m = none)
    (hfails : ∀ name err, filename ≠ 0 → textOf m filename = .ok name →
      (openLibrary caller.load name ⟨flags⟩ m).1 ≠ .error err) :
    (dlopen caller filename flags m).2.pendingError = m.pendingError := by
  rw [dlopen_apply]
  by_cases hfilename : filename = 0
  · rw [if_pos hfilename]
  rw [loadedByOpen?, if_neg hfilename] at h
  rw [if_neg hfilename]
  rcases htext : textOf m filename with failure | name
  · rfl
  rw [htext] at h
  have hopen := fun err => hfails name err hfilename htext
  dsimp only at h ⊢
  rw [openLibrary_apply] at hopen ⊢
  rcases hretain : m.host.libraries.retain name with _ | ⟨handle, t⟩
  · simp only [hretain, Option.isNone_none, Bool.true_and] at h hopen
    split at h
    · cases h
    · rename_i hflags
      exact absurd (by rw [if_neg hflags]) (hopen _)
  · obtain ⟨lib, -, -, rfl⟩ := LibraryTable.retain_eq_some hretain
    rfl

end

section

variable [Budget]

/-! ## Calls -/

section

variable {c : StubCall Function} {err : LinkError}

theorem run_implemented {f : Function} (hstub : c.stub = .implemented f) :
    (c.run engine).2
      = (engine.stubs f ⟨c.exports, loadModule (engine.invoke c.depth)⟩ c.args c.before).2 := by
  rw [StubCall.run, hstub, callStub_machine]

/-- **A failure is kept.** -/
theorem run_of_fails (h : DlFails c err) :
    (c.run engine).2.pendingError = some err.fullMessage := by
  cases h with
  | opening name err hstub hptr hname hopen =>
      rw [run_implemented hstub, stubs_dlopen, dlopen_apply, if_neg hptr, hname]
      dsimp only
      rcases hresult : openLibrary (loadModule (engine.invoke c.depth)) name ⟨Args.word c.args 1⟩
        c.before with ⟨err' | handle, m'⟩ <;> rw [hresult] at hopen <;> cases hopen
      rfl
  | closing hstub hclosed =>
      rw [run_implemented hstub, stubs_dlclose, dlclose_apply,
        LibraryTable.close_of_closed hclosed]
      rfl
  | missing name err hstub hname hmissing =>
      rw [run_implemented hstub, stubs_dlsym, dlsym_apply, hname]
      dsimp only
      rw [symbolNamed_of_notFound hmissing, Machine.pendingError_failing]
  | full name f addr hstub hname hsymbol htable hfull =>
      rw [run_implemented hstub, stubs_dlsym, dlsym_apply, hname]
      dsimp only
      rw [symbolNamed_of_function hsymbol, functionPointer_of_full htable hfull]

/-- A call of `dlerror` does what `dlerror` does. -/
theorem run_of_asks (h : Asks c) :
    c.run engine
      = ((dlerror c.before).1.map fun word => c.type.resultsOf (.i32 word),
          (dlerror c.before).2) := by
  have hdlerror : engine.stubs (.word .dlerror) ⟨c.exports, loadModule (engine.invoke c.depth)⟩
      c.args c.before = ((dlerror c.before).1.map .i32, (dlerror c.before).2) :=
    bind_pure_apply _ Reply.i32 c.before
  rw [StubCall.run, show c.stub = _ from h, Engine.callStub, bind_pure_apply, hdlerror]
  rcases dlerror c.before with ⟨failure | word, m'⟩ <;> rfl

omit [Budget] in
/-- Whatever becomes of the copy, the message is taken. -/
theorem pendingError_dlerror (m : Machine ι) : (dlerror m).2.pendingError = none := by
  rcases hpending : m.pendingError with _ | message
  · rw [dlerror_of_none hpending, hpending]
  · have hkept : Keeps Machine.Shelves
        ((allocateString message.toUTF8.data.toList).orPanic : Action ι Failure UInt32) :=
      orPanic_keeps Machine.Shelves.panicLenient
        (allocateString_keeps Machine.Shelves.heapLenient _)
    rw [dlerror_of_some hpending]
    exact congrArg LibraryTable.pendingError (hkept m.forgetting)

/-- No other call that loads nothing touches the message that is kept. -/
theorem run_of_not_fails (hasks : ¬ Asks c) (hfails : ∀ err, ¬ DlFails c err)
    (hload : c.stub.loaded? loads c.args c.before = none) :
    (c.run engine).2.pendingError = c.before.pendingError := by
  rcases hstub : c.stub with f | _
  case placeholder => rw [StubCall.run, hstub]; rfl
  rw [hstub] at hload
  rw [run_implemented hstub]
  rcases f with f | _ | f
  · rfl
  · rfl
  by_cases hdynamic : f.isDynamic = false
  · exact congrArg LibraryTable.pendingError (f.call_shelves hdynamic _ _ c.before)
  cases f with
  | dlopen =>
      rw [stubs_dlopen]
      exact dlopen_pendingError hload fun name err hptr hname hopen =>
        hfails err (.opening name err hstub hptr hname hopen)
  | dlclose =>
      rw [stubs_dlclose, dlclose_apply]
      rcases hlib : c.before.host.libraries.library? (Args.word c.args 0) with _ | lib
      · exact absurd (.closing hstub hlib) (hfails _)
      · rw [LibraryTable.close_of_open hlib]
        exact LibraryTable.pendingError_recount _ _ _ _
  | dlsym =>
      rw [stubs_dlsym, dlsym_apply]
      rcases hname : textOf c.before (Args.word c.args 1) with failure | name
      · rfl
      dsimp only
      obtain ⟨err, hmissing⟩ | ⟨f, hsymbol⟩ | ⟨addr, hsymbol⟩ :=
        found_or_not c.before.host.libraries (Args.word c.args 0) name
      · exact absurd (.missing name err hstub hname hmissing) (hfails err)
      · rw [symbolNamed_of_function hsymbol]
        exact functionPointer_pendingError fun addr htable hfull =>
          hfails _ (.full name f addr hstub hname hsymbol htable hfull)
      · rw [symbolNamed_of_global hsymbol]
  | dlerror => exact absurd hstub hasks
  | _ => exact absurd rfl hdynamic

/-- A call that loads a module keeps the message that the load leaves, if it does not fail. -/
theorem run_of_loads_pendingError {name : String} (hfails : ∀ err, ¬ DlFails c err)
    (hload : c.stub.loaded? loads c.args c.before = some name) :
    (c.run engine).2.pendingError
      = (loadModule (engine.invoke c.depth) name c.before).2.pendingError := by
  obtain ⟨hstub, hname⟩ := stub_of_loads hload
  obtain ⟨hptr, htext, hopen⟩ :=
    openLibrary_of_loads (loadModule (engine.invoke c.depth)) hname
  rw [run_of_loads hload]
  rcases hresult : loadModule (engine.invoke c.depth) name c.before with ⟨err | loaded, m'⟩ <;>
    rw [hresult] at hopen
  · exact absurd (.opening name err hstub hptr htext hopen) (hfails err)
  · rfl

end

/-! ## Histories -/

/-- What is kept after the calls, if `kept` is kept before them. -/
inductive Recalls (kept : Option String) : List (StubCall Function) → Option String → Prop where
  | nil : Recalls kept [] kept
  | failed {cs : List (StubCall Function)} {kept' : Option String} (h : Recalls kept cs kept')
      (c : StubCall Function) (err : LinkError) (hfails : DlFails c err) :
      Recalls kept (cs ++ [c]) (some err.fullMessage)
  | asked {cs : List (StubCall Function)} {kept' : Option String} (h : Recalls kept cs kept')
      (c : StubCall Function) (hasks : Asks c) : Recalls kept (cs ++ [c]) none
  | other {cs : List (StubCall Function)} {kept' : Option String} (h : Recalls kept cs kept')
      (c : StubCall Function) (hasks : ¬ Asks c) (hfails : ∀ err, ¬ DlFails c err) :
      Recalls kept (cs ++ [c]) kept'

/-- One of the calls is the event, and all calls after it are `quiet`. -/
def Since (quiet event : StubCall Function → Prop) (cs : List (StubCall Function)) : Prop :=
  ∃ before c after, cs = before ++ c :: after ∧ event c ∧ ∀ d ∈ after, quiet d

/-- A call of the dynamic loader has failed since the last call of `dlerror`. -/
def FailedSince (cs : List (StubCall Function)) : Prop :=
  Since (fun d => ¬ Asks d) (fun c => ∃ err, DlFails c err) cs

/-- The latest failure since the last call of `dlerror` is the error. -/
def LatestFailure (cs : List (StubCall Function)) (err : LinkError) : Prop :=
  Since (fun d => ¬ Asks d ∧ ∀ err', ¬ DlFails d err') (fun c => DlFails c err) cs

section

variable {kept kept' kept'' : Option String} {cs ds : List (StubCall Function)}
  {c : StubCall Function} {err : LinkError}

theorem Recalls.append (h : Recalls kept cs kept') (h' : Recalls kept' ds kept'') :
    Recalls kept (cs ++ ds) kept'' := by
  induction h' with
  | nil => rwa [List.append_nil]
  | failed _ c err hfails ih =>
      rw [← List.append_assoc]
      exact .failed ih c err hfails
  | asked _ c hasks ih =>
      rw [← List.append_assoc]
      exact .asked ih c hasks
  | other _ c hasks hfails ih =>
      rw [← List.append_assoc]
      exact .other ih c hasks hfails

omit [Budget] in
theorem not_since_nil {quiet event : StubCall Function → Prop} : ¬ Since quiet event [] := by
  rintro ⟨before, c, after, hsplit, -⟩
  simp at hsplit

omit [Budget] in
/-- The last call is the event, or it is quiet and the event has been before. -/
theorem since_append_singleton {quiet event : StubCall Function → Prop} :
    Since quiet event (cs ++ [c]) ↔ event c ∨ quiet c ∧ Since quiet event cs := by
  constructor
  · rintro ⟨before, d, after, hsplit, hevent, hafter⟩
    rcases List.eq_nil_or_concat after with rfl | ⟨after, last, rfl⟩
    · obtain ⟨-, hd⟩ := List.append_inj' hsplit rfl
      cases hd
      exact .inl hevent
    · rw [List.concat_eq_append, ← List.cons_append, ← List.append_assoc] at hsplit
      obtain ⟨rfl, hlast⟩ := List.append_inj' hsplit rfl
      cases hlast
      rw [List.concat_eq_append, List.forall_mem_append, List.forall_mem_singleton] at hafter
      exact .inr ⟨hafter.2, before, d, after, rfl, hevent, hafter.1⟩
  · rintro (hevent | ⟨hquiet, before, d, after, rfl, hevent, hafter⟩)
    · exact ⟨cs, c, [], rfl, hevent, fun _ h => absurd h List.not_mem_nil⟩
    · refine ⟨before, d, after ++ [c], by simp, hevent, ?_⟩
      rw [List.forall_mem_append, List.forall_mem_singleton]
      exact ⟨hafter, hquiet⟩

theorem not_fails_of_asks (h : Asks c) (err : LinkError) : ¬ DlFails c err := by
  intro hfails
  rw [Asks] at h
  cases hfails <;> simp_all

/-- If a call has failed since the last call of `dlerror`, there is a latest one that has. -/
theorem failedSince_iff : FailedSince cs ↔ ∃ err, LatestFailure cs err := by
  constructor
  · intro h
    induction cs using List.reverseRecOn with
    | nil => exact absurd h not_since_nil
    | append_singleton cs c ih =>
        rcases since_append_singleton.1 h with ⟨err, hfails⟩ | ⟨hasks, hbefore⟩
        · exact ⟨err, since_append_singleton.2 (.inl hfails)⟩
        · by_cases hfails : ∃ err, DlFails c err
          · obtain ⟨err, hfails⟩ := hfails
            exact ⟨err, since_append_singleton.2 (.inl hfails)⟩
          · obtain ⟨err, hlatest⟩ := ih hbefore
            exact ⟨err, since_append_singleton.2 (.inr ⟨⟨hasks, not_exists.1 hfails⟩, hlatest⟩)⟩
  · rintro ⟨err, before, c, after, hsplit, hfails, hafter⟩
    exact ⟨before, c, after, hsplit, ⟨err, hfails⟩, fun d hd => (hafter d hd).1⟩

/-- **Nothing is kept** just if no call has failed since the last call of `dlerror`. -/
theorem Recalls.eq_none_iff (h : Recalls none cs kept) : kept = none ↔ ¬ FailedSince cs := by
  induction h with
  | nil => exact iff_of_true rfl not_since_nil
  | failed _ c err hfails =>
      exact iff_of_false (by simp) (not_not.2 (since_append_singleton.2 (.inl ⟨err, hfails⟩)))
  | asked _ c hasks =>
      refine iff_of_true rfl fun hsince => ?_
      rcases since_append_singleton.1 hsince with ⟨err, hfails⟩ | ⟨hnot, -⟩
      · exact not_fails_of_asks hasks err hfails
      · exact hnot hasks
  | other _ c hasks hfails ih =>
      rw [ih, FailedSince, FailedSince, since_append_singleton, not_or]
      exact ⟨fun h => ⟨fun ⟨err, he⟩ => hfails err he, fun hand => h hand.2⟩,
        fun h hsince => h.2 ⟨hasks, hsince⟩⟩

/-- **The message of the latest failure is kept.** -/
theorem Recalls.eq_some (h : Recalls none cs kept) (hlatest : LatestFailure cs err) :
    kept = some err.fullMessage := by
  induction h with
  | nil => exact absurd hlatest not_since_nil
  | failed _ c err' hfails =>
      rcases since_append_singleton.1 hlatest with hlast | ⟨⟨-, hquiet⟩, -⟩
      · rw [← run_of_fails hfails, run_of_fails hlast]
      · exact absurd hfails (hquiet err')
  | asked _ c hasks =>
      rcases since_append_singleton.1 hlatest with hlast | ⟨⟨hquiet, -⟩, -⟩
      · exact absurd hlast (not_fails_of_asks hasks err)
      · exact absurd hasks hquiet
  | other _ c _ hfails ih =>
      rcases since_append_singleton.1 hlatest with hlast | ⟨-, hbefore⟩
      · exact absurd hlast (hfails err)
      · exact ih hbefore

end

/-! ## Runs -/

omit [Budget] in
/-- A member of two lists one after the other is in the first or in the second. -/
theorem split_of_append_eq {α : Type} {as bs earlier later : List α} {a : α}
    (h : as ++ bs = earlier ++ a :: later) :
    (∃ rest, as = earlier ++ a :: rest)
      ∨ ∃ rest, earlier = as ++ rest ∧ bs = rest ++ a :: later := by
  rcases List.append_eq_append_iff.1 h with hsecond | ⟨_ | ⟨b, rest⟩, rfl, hrest⟩
  · exact .inr hsecond
  · exact .inr ⟨[], by simp, hrest.symm⟩
  · obtain ⟨rfl, -⟩ := List.cons.inj hrest
    exact .inl ⟨rest, rfl⟩

/-- What is kept at the end of a stretch, and at each call of `dlerror` in it, is what the calls
    leave. -/
def Remembers : Stretch Function := fun m cs m' =>
  Recalls m.pendingError (flattenAll cs) m'.pendingError
    ∧ ∀ earlier c later, flattenAll cs = earlier ++ c :: later → Asks c →
        Recalls m.pendingError earlier c.before.pendingError

theorem Remembers.steady : Remembers.Steady where
  calm h := by
    refine ⟨?_, fun earlier c later hsplit => ?_⟩
    · rw [Machine.pendingError, Machine.pendingError, h.libraries]
      exact .nil
    · simp [flattenAll] at hsplit
  reporting m outcome := by
    refine ⟨.nil, fun earlier c later hsplit => ?_⟩
    simp [flattenAll] at hsplit
  append h h' := by
    rw [Remembers, flattenAll_append]
    refine ⟨h.1.append h'.1, fun earlier c later hsplit hasks => ?_⟩
    rcases split_of_append_eq hsplit with ⟨rest, hfirst⟩ | ⟨rest, rfl, hsecond⟩
    · exact h.2 earlier c rest hfirst hasks
    · exact h.1.append (h'.2 rest c later hsecond hasks)

/-- One more call is made. -/
theorem Recalls.step {kept kept' : Option String} {cs : List (StubCall Function)}
    {c : StubCall Function} (h : Recalls kept cs kept')
    (hother : ¬ Asks c → (∀ err, ¬ DlFails c err) → (c.run engine).2.pendingError = kept') :
    Recalls kept (cs ++ [c]) (c.run engine).2.pendingError := by
  by_cases hasks : Asks c
  · rw [run_of_asks hasks, pendingError_dlerror]
    exact .asked h c hasks
  by_cases hfails : ∃ err, DlFails c err
  · obtain ⟨err, hfails⟩ := hfails
    rw [run_of_fails hfails]
    exact .failed h c err hfails
  · rw [hother hasks (not_exists.1 hfails)]
    exact .other h c hasks (not_exists.1 hfails)

theorem Remembers.stubs : engine.TracesStubs loads Remembers.trace := by
  intro c hinner hloads
  show Remembers c.before [c] (c.run engine).2
  rw [Remembers, flattenAll_singleton, hinner]
  rcases hload : c.stub.loaded? loads c.args c.before with _ | name
  · rw [Engine.innerHistory_of_none hload]
    refine ⟨Recalls.nil.step fun hasks hfails => run_of_not_fails hasks hfails hload, ?_⟩
    intro earlier d later hsplit _
    rcases earlier with _ | ⟨first, earlier⟩
    · obtain ⟨rfl, -⟩ := List.cons.inj hsplit
      exact .nil
    · simp [flattenAll] at hsplit
  · obtain ⟨_, hcalls, -⟩ := (hloads name c.before).trace Remembers.steady.trace
    rw [Engine.innerHistory_of_some hload]
    refine ⟨hcalls.1.step fun _ hfails => run_of_loads_pendingError hfails hload, ?_⟩
    intro earlier d later hsplit hasks
    -- the call itself is one of `dlopen`, so `dlerror` has been called inside it
    rcases split_of_append_eq hsplit with ⟨rest, hinside⟩ | ⟨rest, -, hlast⟩
    · exact hcalls.2 earlier d rest hinside hasks
    · have hd : d ∈ [c] := hlast ▸ List.mem_append_right _ List.mem_cons_self
      rw [List.mem_singleton.1 hd, Asks, (stub_of_loads hload).1] at hasks
      cases hasks

/-- **At each call of `dlerror` in a run** the message that is kept is what the calls before have
    left, wherever they were made. -/
theorem recalls_of_callsOf {requests : List (Run.Request Function)} {start : Run Function}
    {earlier later : List (StubCall Function)} {c : StubCall Function}
    (hcalls : Run.callsOf engine loads requests start = earlier ++ c :: later) (hasks : Asks c) :
    Recalls start.machine.pendingError earlier c.before.pendingError := by
  obtain ⟨cs, m', hflatten, hremembers⟩ :=
    Run.callsOf_trace Remembers.steady Remembers.stubs requests start
  rw [hflatten] at hcalls
  exact hremembers.2 earlier c later hcalls hasks

end

end Libc

end WasmHost
