import WasmHost.Libc.Tables
import WasmHost.Proofs.Libc.Effects
import WasmHost.Proofs.Run.History

set_option autoImplicit false

/-! # Calls of the C library

What a call of the library in a history does. `dlopen` is the only function that loads modules, and
it does so before anything else (`Libc.loads`); a call that loads nothing writes what `written` says
and keeps the library table consistent. -/

namespace WasmHost

open WasmHost.Action

variable {ι : Type}

/-- The string at an address of the active memory. -/
def Machine.stringAt (m : Machine ι) (ptr : UInt32) : Except MemoryError (List UInt8) :=
  m.activeMemory.bind fun active => active.2.string ptr

/-- The machine after bytes have been added to the output. -/
def Machine.writing (m : Machine ι) (bytes : List UInt8) : Machine ι :=
  { m with host := { m.host with output := m.host.output.push bytes } }

namespace Libc

/-- Whether the stub is implemented by `f`. -/
def implementedBy (f : Function) : Stub Function → Bool
  | .implemented g => g == f
  | .placeholder => false

theorem eq_of_implementedBy {f : Function} {stub : Stub Function}
    (h : implementedBy f stub = true) : stub = .implemented f := by
  cases stub with
  | placeholder => cases h
  | implemented g => rw [eq_of_beq h]

/-- The library has the function `f` under the name, and nothing else. -/
def Provides (name : String) (f : Function) : Prop :=
  ∀ stub, (∃ lib ∈ libraries, (name, stub) ∈ lib.entries) ↔ stub = .implemented f

theorem provides_of_entries {names : List String} {f : Function}
    (h : ∀ name ∈ names, (∃ lib ∈ libraries, ∃ entry ∈ lib.entries, entry.1 = name)
      ∧ ∀ lib ∈ libraries, ∀ entry ∈ lib.entries, entry.1 = name →
        implementedBy f entry.2 = true) : ∀ name ∈ names, Provides name f := by
  intro name hname stub
  obtain ⟨hsome, hall⟩ := h name hname
  constructor
  · rintro ⟨lib, hlib, hentry⟩
    exact eq_of_implementedBy (hall lib hlib _ hentry rfl)
  · rintro rfl
    obtain ⟨lib, hlib, ⟨_, stub⟩, hentry, rfl⟩ := hsome
    obtain rfl : stub = _ := eq_of_implementedBy (hall lib hlib _ hentry rfl)
    exact ⟨lib, hlib, hentry⟩

/-! ## Equations -/

theorem replyWord_apply (x : Action ι MemoryError UInt32) (m : Machine ι) :
    replyWord x m = (((x m).1.mapError .ofMemoryError).map .i32, (x m).2) := by
  rw [replyWord, bind_pure_apply, mapError_apply]

theorem replyChecked_apply (x : Action ι WordFault UInt32) (m : Machine ι) :
    replyChecked x m = ((x.orPanic m).1.map .i32, (x.orPanic m).2) := by
  rw [replyChecked, bind_pure_apply]

theorem puts_apply (ptr : UInt32) (m : Machine ι) :
    puts ptr m
      = match m.stringAt ptr with
        | .ok s => (.ok (), m.writing (s ++ [10]))
        | .error err => (.error (.ofMemoryError err), m) := by
  have hlook : (look (·.string ptr) : Action ι MemoryError (List UInt8)).mapError
      Failure.ofMemoryError m = ((m.stringAt ptr).mapError .ofMemoryError, m) := rfl
  rw [puts, bind_apply, hlook]
  rcases m.stringAt ptr with err | s <;> rfl

/-- The text at an address; no text at address zero. -/
def textOf (m : Machine ι) (ptr : UInt32) : Except Failure String :=
  if ptr = 0 then .ok "" else ((m.stringAt ptr).map latin1).mapError .ofMemoryError

theorem textAt_apply (ptr : UInt32) (m : Machine ι) : textAt ptr m = (textOf m ptr, m) := by
  rw [textAt, textOf]
  by_cases hptr : ptr = 0
  · rw [if_pos hptr, if_pos hptr]
    rfl
  · rw [if_neg hptr, if_neg hptr]
    have hlook : (look (·.string ptr) : Action ι MemoryError (List UInt8)).mapError
        Failure.ofMemoryError m = ((m.stringAt ptr).mapError .ofMemoryError, m) := rfl
    rw [bind_apply, hlook]
    rcases m.stringAt ptr with err | s <;> rfl

/-- Opening a library of which a name is given: a failure is kept for `dlerror` and reported by a
    zero. -/
theorem dlopen_apply (caller : Caller ι) (filename flags : UInt32) (m : Machine ι) :
    dlopen caller filename flags m
      = if filename = 0 then (.error (.ofFault (.unimplemented "dlopen(NULL, ...)")), m)
        else
          match textOf m filename with
          | .error failure => (.error failure, m)
          | .ok name =>
              match openLibrary caller.load name ⟨flags⟩ m with
              | (.ok handle, m') => (.ok handle, m')
              | (.error err, m') => (.ok 0, m'.withLibraries (m'.host.libraries.setError err)) := by
  rw [dlopen]
  by_cases hfilename : filename = 0
  · rw [if_pos hfilename, if_pos hfilename]
    rfl
  rw [if_neg hfilename, if_neg hfilename]
  rcases htext : textOf m filename with failure | name
  · rw [bind_apply_of_error (htext ▸ textAt_apply filename m)]
  rw [bind_apply_of_ok (htext ▸ textAt_apply filename m), bind_apply, attempt_apply]
  dsimp only
  rcases openLibrary caller.load name ⟨flags⟩ m with ⟨err | handle, m'⟩ <;> rfl

/-- The module that is loaded if code opens the library of the name at `filename`: none if there is
    no name, if a library of that name is open, or if the flags are not supported. -/
def loadedByOpen? (filename flags : UInt32) (m : Machine ι) : Option String :=
  if filename = 0 then none
  else
    match textOf m filename with
    | .error _ => none
    | .ok name =>
        if (m.host.libraries.retain name).isNone && DlFlags.isSupported ⟨flags⟩ then some name
        else none

/-- Opening a library that has to be loaded. Every failure of the load is reported by a zero. -/
theorem dlopen_of_loads {caller : Caller ι} {filename flags : UInt32} {m : Machine ι}
    {name : String} (h : loadedByOpen? filename flags m = some name) :
    dlopen caller filename flags m
      = match caller.load name m with
        | (.ok loaded, m') =>
            (.ok (m'.host.libraries.insert name loaded).1,
              m'.withLibraries (m'.host.libraries.insert name loaded).2)
        | (.error err, m') => (.ok 0, m'.withLibraries (m'.host.libraries.setError err)) := by
  rw [loadedByOpen?] at h
  split at h
  · cases h
  rename_i hfilename
  rcases htext : textOf m filename with err | name' <;> rw [htext] at h
  · cases h
  dsimp only at h
  split at h <;> cases h
  rename_i hnew
  rw [Bool.and_eq_true, Option.isNone_iff_eq_none] at hnew
  rw [dlopen_apply, if_neg hfilename, htext]
  simp only [openLibrary_apply, hnew.1, hnew.2, if_true]
  rcases caller.load name m with ⟨err | loaded, m'⟩ <;> rfl

/-- Opening a library otherwise is the work of the dynamic loader alone. -/
theorem dlopen_of_not_loads {R : Machine ι → Machine ι → Prop} [IsPreorder (Machine ι) R]
    (hR : Machine.LoaderLenient R) {caller : Caller ι} {filename flags : UInt32} {m : Machine ι}
    (h : loadedByOpen? filename flags m = none) : R m (dlopen caller filename flags m).2 := by
  rw [loadedByOpen?] at h
  rw [dlopen_apply]
  by_cases hfilename : filename = 0
  · rw [if_pos hfilename]
    exact refl_of R m
  rw [if_neg hfilename] at h ⊢
  rcases htext : textOf m filename with err | name <;> rw [htext] at h
  · exact refl_of R m
  dsimp only at h ⊢
  rw [openLibrary_apply]
  -- without a load the name is open already or the flags are refused
  rcases hretain : m.host.libraries.retain name with _ | ⟨handle, t⟩
  · simp only [hretain, Option.isNone_none, Bool.true_and] at h
    split at h
    · cases h
    · rename_i hflags
      simp only [hflags, Bool.false_eq_true, if_false]
      exact hR.libraries (.setError (.refl _) _)
  · exact hR.libraries (.retain (.refl _) hretain)

/-! ## Calls in a history -/

/-- The module that a function of the library loads, if any. Only `dlopen` loads modules. -/
def loads : Loads Function
  | .word .dlopen, args, m => loadedByOpen? (Args.word args 0) (Args.word args 1) m
  | _, _, _ => none

/-- The bytes that a call adds to the output, apart from those added by the calls inside it: the low
    byte of the argument of `putchar`, and the string and a line end of a call of `puts` that is
    completed. -/
def written (c : StubCall Function) : List UInt8 :=
  match c.stub with
  | .implemented (.word .putchar) => [(Args.word c.args 0).toUInt8]
  | .implemented (.word .puts) =>
      match c.before.stringAt (Args.word c.args 0) with
      | .ok s => s ++ [10]
      | .error _ => []
  | _ => []

/-- Whether the call is one of the function. -/
def isCallOf (f : Function) (c : StubCall Function) : Bool :=
  match c.stub with
  | .implemented g => g == f
  | .placeholder => false

theorem stub_of_isCallOf {f : Function} {c : StubCall Function} (h : isCallOf f c = true) :
    c.stub = .implemented f :=
  eq_of_implementedBy h

/-- The library table is consistent at the end if it was at the start. -/
def KeepsConsistent (m m' : Machine ι) : Prop :=
  m.host.libraries.Consistent → m'.host.libraries.Consistent

theorem push_nil (b : OutputBuffer) : b.push [] = b := by
  rw [OutputBuffer.push, List.toArray, Array.append_empty]

theorem callStub_machine (e : Engine ι) (name : String) (f : ι) (type : FuncType)
    (caller : Caller ι) (args : List Value) (m : Machine ι) :
    (e.callStub name (.implemented f) type caller args m).2 = (e.stubs f caller args m).2 := by
  rw [Engine.callStub, bind_pure_apply]

/-- Only calls of `dlopen` load modules. -/
theorem stub_of_loads {c : StubCall Function} {name : String}
    (h : c.stub.loaded? loads c.args c.before = some name) :
    c.stub = .implemented (.word .dlopen)
      ∧ loadedByOpen? (Args.word c.args 0) (Args.word c.args 1) c.before = some name := by
  obtain ⟨name, stub, type, exports, depth, args, m, inner⟩ := c
  rcases stub with f | _
  · rcases f with f | _ | f
    · cases h
    · cases h
    · cases f <;> first | exact ⟨rfl, h⟩ | cases h
  · cases h

section

variable [Budget]

/-- A call of `puts` does what `puts` does, whatever becomes of its result. -/
theorem stubs_puts (caller : Caller Function) (args : List Value) (m : Machine Function) :
    (engine.stubs (.word .puts) caller args m).2 = (puts (Args.word args 0) m).2 :=
  congrArg Prod.snd (bind_pure_apply (puts (Args.word args 0)) (fun _ => Reply.i32 0) m)

/-- A call of `dlopen` gives back the handle as it is. -/
theorem stubs_dlopen (caller : Caller Function) (args : List Value) (m : Machine Function) :
    engine.stubs (.word .dlopen) caller args m
      = ((dlopen caller (Args.word args 0) (Args.word args 1) m).1.map .i32,
          (dlopen caller (Args.word args 0) (Args.word args 1) m).2) :=
  bind_pure_apply _ Reply.i32 m

theorem stubs_dlsym (caller : Caller Function) (args : List Value) (m : Machine Function) :
    engine.stubs (.word .dlsym) caller args m
      = ((dlsym caller (Args.word args 0) (Args.word args 1) m).1.map .i32,
          (dlsym caller (Args.word args 0) (Args.word args 1) m).2) :=
  bind_pure_apply _ Reply.i32 m

theorem stubs_dlclose (caller : Caller Function) (args : List Value) (m : Machine Function) :
    engine.stubs (.word .dlclose) caller args m
      = ((dlclose (Args.word args 0) m).1.map .i32, (dlclose (Args.word args 0) m).2) :=
  bind_pure_apply _ Reply.i32 m

/-- A function that loads nothing writes its own bytes, and otherwise only serves. -/
theorem stubs_serves {c : StubCall Function} {f : Function} (hstub : c.stub = .implemented f)
    (h : loads f c.args c.before = none) (caller : Caller Function) :
    (c.before.writing (written c)).Serves (engine.stubs f caller c.args c.before).2 := by
  obtain ⟨name, stub, type, exports, depth, args, m, inner⟩ := c
  subst hstub
  have hnil : m.writing [] = m := by rw [Machine.writing, push_nil]
  rcases f with f | _ | f
  · exact hnil.symm ▸ refl_of Machine.Serves m
  · exact hnil.symm ▸ refl_of Machine.Serves m
  by_cases hsilent : f.isSilent = true
  · have hwritten : written ⟨name, .implemented (.word f), type, exports, depth, args, m, inner⟩
        = [] := by
      cases f <;> first | rfl | cases hsilent
    rw [hwritten, hnil]
    exact f.call_serves hsilent _ _ m
  · cases f <;> first | exact absurd rfl hsilent | skip
    · exact refl_of Machine.Serves _
    · rw [stubs_puts, puts_apply, written]
      dsimp only
      rcases m.stringAt (Args.word args 0) with err | s
      · exact hnil.symm ▸ refl_of Machine.Serves m
      · exact refl_of Machine.Serves _
    · rw [stubs_dlopen]
      exact hnil.symm ▸ dlopen_of_not_loads Machine.Serves.loaderLenient h

/-- **A call that loads nothing** writes its own bytes, and otherwise only serves. -/
theorem run_serves {c : StubCall Function} (h : c.stub.loaded? loads c.args c.before = none) :
    (c.before.writing (written c)).Serves (c.run engine).2 := by
  rcases hstub : c.stub with f | _
  · rw [hstub] at h
    rw [StubCall.run, hstub, callStub_machine]
    exact stubs_serves hstub h _
  · have hwritten : written c = [] := by rw [written, hstub]
    rw [StubCall.run, hstub, hwritten, Machine.writing, push_nil]
    exact refl_of Machine.Serves _

theorem run_of_not_loads {c : StubCall Function}
    (h : c.stub.loaded? loads c.args c.before = none) :
    (c.run engine).2.host.output = c.before.host.output.push (written c)
      ∧ KeepsConsistent c.before (c.run engine).2 :=
  ⟨(run_serves h).output, fun hconsistent => hconsistent.served (run_serves h).libraries⟩

/-- **A call that loads a module** records it, or reports the failure of the load by a zero. -/
theorem run_of_loads {c : StubCall Function} {name : String}
    (h : c.stub.loaded? loads c.args c.before = some name) :
    c.run engine
      = match loadModule (engine.invoke c.depth) name c.before with
        | (.ok loaded, m) =>
            (.ok (c.type.resultsOf (.i32 (m.host.libraries.insert name loaded).1)),
              m.withLibraries (m.host.libraries.insert name loaded).2)
        | (.error err, m) =>
            (.ok (c.type.resultsOf (.i32 0)), m.withLibraries (m.host.libraries.setError err)) := by
  obtain ⟨hstub, hname⟩ := stub_of_loads h
  rw [StubCall.run, hstub, Engine.callStub, bind_pure_apply, stubs_dlopen, dlopen_of_loads hname]
  dsimp only
  rcases loadModule (engine.invoke c.depth) name c.before with ⟨err | loaded, m⟩ <;> rfl

/-- **A property of histories holds of every call** if it holds of calls that load nothing, and if a
    call that loads a module adds nothing to what its start function calls but a change of the
    library table. -/
theorem tracesStubs_of_calls {Q : Trace Function (StubCall Function)} (hQ : Q.Steady)
    (hown : ∀ c failure, flattenAll [c] = [c] → c.stub.loaded? loads c.args c.before = none →
      Q c.before [c] failure (c.run engine).2)
    (hload : ∀ c failure failure' m t, c.stub = .implemented (.word .dlopen) →
      Q c.before c.inner failure m → Q c.before [c] failure' (m.withLibraries t)) :
    engine.TracesStubs loads Q := by
  intro c hinner hloads
  rcases hname : c.stub.loaded? loads c.args c.before with _ | name
  · refine hown c _ ?_ hname
    rw [flattenAll_singleton, hinner, Engine.innerHistory_of_none hname]
    rfl
  · obtain ⟨failure, htrace, -⟩ := (hloads name c.before).trace hQ
    rw [← Engine.innerHistory_of_some hname, ← hinner] at htrace
    rw [run_of_loads hname]
    rcases hrun : loadModule (engine.invoke c.depth) name c.before with ⟨err | loaded, m⟩ <;>
      rw [hrun] at htrace <;> exact hload c failure _ m _ (stub_of_loads hname).1 htrace

/-- The library unlinks nothing. -/
theorem stubs_lawful : engine.stubs.Lawful := by
  intro f caller args hload m
  rcases hname : loads f args m with _ | name
  · have hserves := stubs_serves (c := ⟨"", .implemented f, ⟨[], []⟩, [], 0, args, m, []⟩) rfl hname
      caller
    exact ⟨hserves.env, hserves.source, hserves.extends.instances⟩
  · cases f with
    | math | llabs => cases hname
    | word f =>
        cases f with
        | dlopen =>
            rw [stubs_dlopen, dlopen_of_loads hname]
            have hkeeps := hload name m
            rcases hrun : caller.load name m with ⟨err | loaded, m'⟩ <;> rw [hrun] at hkeeps <;>
              exact ⟨hkeeps.env, hkeeps.source, hkeeps.instances⟩
        | _ => cases hname

end

end Libc

end WasmHost
