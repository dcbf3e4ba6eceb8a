import WasmHost.Proofs.Libc.Dynamic
import WasmHost.Proofs.Libc.Faults
import WasmHost.Proofs.Memory.Strings
import WasmHost.Proofs.Run.Moments
import WasmHost.Proofs.Text.Encoding

set_option autoImplicit false

/-! # Names that come out of memory

`dlopen` and `dlsym` take the name that lies in the active memory byte by byte. A compiled module
spells its names in UTF-8, and so does the host when it writes a message, so the name that is asked
for is the one that was meant just if it is ASCII (`Libc.names_as_bytes`). -/

namespace WasmHost

open WasmHost.Action

variable {ι : Type}

theorem Machine.HoldsString.stringAt_eq {m : Machine ι} {ptr : UInt32} {s : List UInt8}
    (h : m.HoldsString ptr s) (hs : 0 ∉ s) : m.stringAt ptr = .ok s := by
  obtain ⟨active, hactive, hheld⟩ := h
  rw [Machine.stringAt, hactive]
  exact hheld.string_eq hs

namespace Libc

theorem textOf_of_holds {m : Machine ι} {ptr : UInt32} (hptr : ptr ≠ 0) {s : List UInt8}
    (h : m.HoldsString ptr s) (hs : 0 ∉ s) : textOf m ptr = .ok (latin1 s) := by
  rw [textOf, if_neg hptr, h.stringAt_eq hs]
  rfl

/-! ## What the source is asked for -/

/-- The source has been asked for more names, if for any, since. -/
def AskTrace : Trace Function (StubCall Function) := fun m _ _ m' =>
  m.host.requested <:+ m'.host.requested

theorem AskTrace.sequential : AskTrace.Sequential where
  quiet {m m'} _ h := by
    have hrequested : m'.host.requested = m.host.requested := congrArg Host.requested h.host
    show m.host.requested <:+ m'.host.requested
    exact hrequested.symm ▸ List.suffix_refl _
  append h h' := List.IsSuffix.trans h h'

/-- The first name that the source is asked for in a load is that of the module. -/
theorem AskTrace.asks {name : String} {m m' : Machine Function} {cs : List (StubCall Function)}
    {result : Except LinkError (LoadedModule Function)} (h : LoadRun AskTrace name m cs result m') :
    name :: m.host.requested <:+ m'.host.requested := by
  cases h with
  | refused | mistyped => exact List.suffix_refl _
  | failed w items _ failure _ haccept hrun => exact hrun
  | loaded w items _ m₁ haccept hrun =>
      obtain ⟨arena, hfinish⟩ := m₁.finishLoad_eq name m.store.instances.size
      rw [hfinish]
      exact hrun

theorem AskTrace.stubs [Budget] : engine.TracesStubs loads AskTrace := by
  intro c _ hloads
  rcases hname : c.stub.loaded? loads c.args c.before with _ | name
  · rw [AskTrace, (run_serves hname).requested]
    exact List.suffix_refl _
  · have hasks := AskTrace.asks (hloads name c.before)
    rw [AskTrace, run_of_loads hname]
    rcases hload : loadModule (engine.invoke c.depth) name c.before with ⟨err | loaded, m⟩ <;>
      rw [hload] at hasks <;> exact (List.suffix_cons name _).trans hasks

/-- **A load asks the source for its module** before anything else. -/
theorem loadModule_asks [Budget] (depth : Nat) (name : String) (m : Machine Function) :
    name :: m.host.requested <:+ (loadModule (engine.invoke depth) name m).2.host.requested :=
  AskTrace.asks (Engine.loadModule_traces AskTrace.sequential AskTrace.stubs depth name m)

/-! ## Names -/

/-- The loader takes what lies at the address for the name `asked`. -/
structure AsksFor [Budget] (m : Machine Function) (ptr : UInt32) (asked : String) : Prop where
  /-- `dlopen` opens the library of that name. -/
  dlopen (caller : Caller Function) (flags : UInt32) :
    Libc.dlopen caller ptr flags m
      = match openLibrary caller.load asked ⟨flags⟩ m with
        | (.ok handle, m') => (.ok handle, m')
        | (.error err, m') => (.ok 0, m'.failing err)
  /-- If no library of that name is open, the source is asked for it. -/
  source (exports : List (String × Item Function)) (depth : Nat) (flags : UInt32)
    (hclosed : m.host.libraries.retain asked = none) (hflags : DlFlags.isSupported ⟨flags⟩ = true) :
    asked :: m.host.requested
      <:+ (Libc.dlopen ⟨exports, loadModule (engine.invoke depth)⟩ ptr flags m).2.host.requested
  /-- `dlsym` looks that name up. -/
  dlsym (caller : Caller Function) (handle : UInt32) :
    Libc.dlsym caller handle ptr m = symbolNamed caller handle asked m

theorem asksFor_of_textOf [Budget] {m : Machine Function} {ptr : UInt32} (hptr : ptr ≠ 0)
    {asked : String}
    (h : textOf m ptr = .ok asked) : AsksFor m ptr asked where
  dlopen caller flags := by
    rw [dlopen_apply, if_neg hptr, h]
    dsimp only
    rcases openLibrary caller.load asked ⟨flags⟩ m with ⟨err | handle, m'⟩ <;> rfl
  source exports depth flags hclosed hflags := by
    have hloads : loadedByOpen? ptr flags m = some asked := by
      rw [loadedByOpen?, if_neg hptr, h]
      simp only [hclosed, hflags, Option.isNone_none, Bool.and_self, if_true]
    have hasks := loadModule_asks depth asked m
    rw [dlopen_of_loads hloads]
    dsimp only
    rcases hload : loadModule (engine.invoke depth) asked m with ⟨err | loaded, m'⟩ <;>
      rw [hload] at hasks <;> exact hasks
  dlsym caller handle := by rw [dlsym_apply, h]

/-- **Names are taken byte by byte.** If a text without the zero character lies in memory as UTF-8,
    `dlopen` and `dlsym` ask for the text that has a character for each byte, and the same text is
    read back after it has been copied into a block of the heap. It is the text that was meant just
    if that is ASCII. -/
theorem names_as_bytes [Budget] (name : String) (hname : '\x00' ∉ name.toList) :
    let asked := latin1 (Utf8.encode name)
    (asked = name ↔ Utf8.IsAscii name)
      ∧ (∀ (m : Machine Function) ptr, ptr ≠ 0 → m.HoldsString ptr (Utf8.encode name) →
          AsksFor m ptr asked)
      ∧ ∀ (m m' : Machine Function) ptr, ptr ≠ 0 →
          allocateString (Utf8.encode name) m = (.ok ptr, m') →
            (m'.stringAt ptr).map latin1 = .ok asked ∧ AsksFor m' ptr asked := by
  intro asked
  have hzero := Utf8.zero_notMem_encode hname
  have hasks {m : Machine Function} {ptr : UInt32} (hptr : ptr ≠ 0)
      (h : m.HoldsString ptr (Utf8.encode name)) : AsksFor m ptr asked :=
    asksFor_of_textOf hptr (textOf_of_holds hptr h hzero)
  refine ⟨latin1_encode_eq_iff name, fun m ptr hptr h => hasks hptr h, fun m m' ptr hptr h => ?_⟩
  have hheld := Machine.holdsString_allocateString h hptr
  refine ⟨?_, hasks hptr hheld⟩
  rw [hheld.stringAt_eq hzero]
  rfl

/-- A name with an accent comes back as two characters. -/
theorem names_as_bytes_accented :
    let m : Machine Function :=
      .initial ⟨1, 16384, "main", []⟩ (twoModules openingProgram exitingLibrary) .accepting
    '\x00' ∉ "é".toList
      ∧ ∃ m', allocateString (Utf8.encode "é") m = (.ok 16384, m')
          ∧ (m'.stringAt 16384).map latin1 = .ok "Ã©" ∧ AsksFor m' 16384 "Ã©" := by
  intro m
  have hname : '\x00' ∉ "é".toList := by decide
  have hasked : latin1 (Utf8.encode "é") = "Ã©" := by decide +kernel
  have hptr : (allocateString (Utf8.encode "é") m).1.toOption = some 16384 := by decide +kernel
  have hrun : allocateString (Utf8.encode "é") m
      = (.ok 16384, (allocateString (Utf8.encode "é") m).2) :=
    Prod.ext (ok_of_toOption hptr) rfl
  have hstored := (names_as_bytes "é" hname).2.2 m _ 16384 (by decide) hrun
  rw [hasked] at hstored
  exact ⟨hname, _, hrun, hstored⟩

/-- A main module that opens the library `é`. -/
def accentedProgram : WasmModule :=
  { openingProgram with data := [⟨1024, Utf8.encode "é" ++ [0]⟩] }

/-- The library is there, and it is not found. -/
theorem accented_library_not_found :
    let source : ModuleSource ModuleObject := fun name =>
      if name = "main" then .ok (.parsed accentedProgram)
      else if name = "é" then .ok (.parsed .empty)
      else .error (LinkError.ofKind (.moduleNotFound name))
    let start : Run Function :=
      ⟨.initial ⟨1, 16384, "main", []⟩ source .accepting, .initializing, [], none⟩
    let requests : List (Run.Request Function) :=
      [.addStubs sampleLibraries, .loadModules [], .loadMain "main", .execute]
    ∃ c ∈ Run.callsOf engine loads requests start,
      c.stub = .implemented (.word .dlopen) ∧ c.args = [.i32 1024, .i32 2]
        ∧ c.before.stringAt 1024 = .ok (Utf8.encode "é") ∧ c.before.host.requested = ["main"]
        ∧ (c.run engine).1 = .ok [.i32 0]
        ∧ (c.run engine).2.host.requested = ["Ã©", "main"] := by
  intro source start requests
  have hcalls : ((Run.callsOf engine loads requests start).any fun c =>
      isCallOf (.word .dlopen) c && (c.args, (c.before.stringAt 1024).toOption, c.before.host.requested,
          (c.run engine).1.toOption, (c.run engine).2.host.requested)
        == ([.i32 1024, .i32 2], some (Utf8.encode "é"), ["main"], some [.i32 0],
          ["Ã©", "main"])) = true := by
    decide +kernel
  obtain ⟨c, hc, hfacts⟩ := List.any_eq_true.1 hcalls
  simp only [Bool.and_eq_true, beq_iff_eq, Prod.mk.injEq] at hfacts
  obtain ⟨hstub, hargs, hstring, hbefore, hresult, hafter⟩ := hfacts
  exact ⟨c, hc, stub_of_isCallOf hstub, hargs, ok_of_toOption hstring, hbefore,
    ok_of_toOption hresult, hafter⟩

end Libc

end WasmHost
