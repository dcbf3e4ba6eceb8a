import WasmHost.Engine
import WasmHost.Proofs.Library.Representation
import WasmHost.Proofs.Linking.Binding

set_option autoImplicit false

/-! # Counting references to libraries

Every command on the table of open libraries is a step of the ledger that the table represents, with
the same reply (`LibraryCommand.refines`), as long as handles are left and the module that is opened
has no start function, which could open libraries meanwhile. So every sequence of commands is a run
of the ledger (`Engine.libraries_counted`). -/

namespace WasmHost

variable {ι : Type}

/-! ## Loading a module without a start function -/

/-- The module of a name, if there is one, has no start function. -/
def Host.Startless (host : Host ι) (name : String) : Prop :=
  ∀ object w, host.source name = .ok object → object.parse name = .ok w → w.start = none

/-- Without calls the host stays as it is. -/
def SilentTrace : Trace ι Unit := fun m log _ m' => log = [] → m'.host = m.host

theorem SilentTrace.sequential : (SilentTrace : Trace ι Unit).Sequential where
  quiet _ h := fun _ => h.host
  append h h' := by
    intro hlog
    obtain ⟨hfirst, hsecond⟩ := List.append_eq_nil_iff.1 hlog
    exact (h' hsecond).trans (h hfirst)

/-- A load without a start function leaves only its traces in the list of requests and, if it
    succeeds, in the memory arena. -/
theorem loadModule_host (calls : Caller.Calls ι) {name : String} {m : Machine ι}
    (hstart : m.host.Startless name) :
    ∃ arena, (loadModule calls name m).2.host
      = { m.host with requested := name :: m.host.requested, arena := arena } := by
  -- every call would be recorded, and nothing is
  let recorder : List (String × Item ι) → Recorder ι Unit := fun _ _ _ _ => [()]
  have hcalls (exports : List (String × Item ι)) (f : Func ι) (args : List Value) :
      Action.Traces SilentTrace (calls exports f args) (recorder exports f args) :=
    fun _ hlog => absurd hlog (List.cons_ne_nil _ _)
  have hsilent : recordLoad recorder name m = [] := by
    refine recordLoad_of_startless fun w items haccept => ?_
    obtain ⟨object, hsource, hparse, -⟩ := Host.accept_eq_ok haccept
    exact hstart object w hsource hparse
  have hrun := loadModule_run SilentTrace.sequential hcalls name m
  rw [hsilent] at hrun
  generalize (loadModule calls name m).1 = result, (loadModule calls name m).2 = m' at hrun ⊢
  generalize hlog : ([] : List Unit) = log at hrun
  cases hrun with
  | refused | mistyped => exact ⟨m.host.arena, rfl⟩
  | failed w items log failure m' _ hquiet => exact ⟨m.host.arena, hquiet hlog.symm⟩
  | loaded w items log m' _ hquiet =>
      obtain ⟨arena, hfinish⟩ := m'.finishLoad_eq name m.store.instances.size
      refine ⟨arena, ?_⟩
      rw [hfinish]
      show { m'.host with arena := arena } = _
      rw [hquiet hlog.symm]
      rfl

/-! ## Commands on the table -/

/-- Carry out a command on the table of open libraries. -/
def LibraryCommand.perform (e : Engine ι) :
    LibraryCommand → Action ι LinkError (LibraryReply ι)
  | .open name flags => do return .handle (← openLibrary e.load name flags)
  | .close handle => fun m =>
      match m.host.libraries.close handle with
      | .ok (left, t) => (.ok (.left left), m.withLibraries t)
      | .error err => (.error err, m)
  | .lookup handle symbol => fun m => ((m.host.libraries.lookup handle symbol).map .item, m)

/-- A command that has been carried out. -/
structure LibraryCall (ι : Type) where
  command : LibraryCommand
  before : Machine ι
  reply : Except LinkError (LibraryReply ι)
  after : Machine ι

/-- Carry out a command and record it. -/
def LibraryCommand.call (e : Engine ι) (command : LibraryCommand) (m : Machine ι) :
    LibraryCall ι :=
  ⟨command, m, (command.perform e m).1, (command.perform e m).2⟩

/-- Carry out commands one after the other. -/
def Engine.libraryCalls (e : Engine ι) : List LibraryCommand → Machine ι → List (LibraryCall ι)
  | [], _ => []
  | command :: commands, m =>
      command.call e m :: e.libraryCalls commands (command.call e m).after

namespace LibraryCall

/-- The handle that is given out. -/
def opened? (c : LibraryCall ι) : Option UInt32 := c.command.opened? c.reply

/-- The handle that is given back. -/
def closed? (c : LibraryCall ι) : Option UInt32 := c.command.closed? c.reply

/-- The handle of the library that is loaded. -/
def loaded? (c : LibraryCall ι) : Option UInt32 :=
  match c.command with
  | .open name _ =>
      if (c.before.host.libraries.handleOf? name).isSome then none else c.opened?
  | _ => none

/-- The call looks something up, or has nothing to close. -/
def IsIdle (c : LibraryCall ι) : Prop :=
  match c.command, c.reply with
  | .lookup _ _, _ => True
  | .close _, .error _ => True
  | _, _ => False

end LibraryCall

namespace Ledger

/-- The call is a step of the ledger, which represents the table before and after it. -/
structure Accounts (e : Engine ι) (l : Ledger ι) (c : LibraryCall ι) (l' : Ledger ι) : Prop where
  before : l.Represents c.before.host
  step : Step (fun name => (e.load name c.before).1) l c.command c.reply l'
  after : l'.Represents c.after.host
  idle : c.IsIdle → c.after = c.before

/-- The calls are a sequence of steps of the ledger. -/
inductive Run (e : Engine ι) : Ledger ι → List (LibraryCall ι) → Ledger ι → Prop where
  | nil (l : Ledger ι) : Run e l [] l
  | cons {l l' l'' : Ledger ι} {c : LibraryCall ι} {calls : List (LibraryCall ι)}
      (hcall : Accounts e l c l') (hrest : Run e l' calls l'') : Run e l (c :: calls) l''

variable {e : Engine ι} {l l' : Ledger ι} {c : LibraryCall ι} {calls : List (LibraryCall ι)}

/-- Only a load changes the number of loads, and that number is the handle that it gives out. -/
theorem Accounts.loads (h : Accounts e l c l') :
    (c.loaded? = none ∧ l'.loads = l.loads)
      ∨ ∃ handle, c.loaded? = some handle ∧ handle.toNat = l.loads + 1
        ∧ l'.loads = l.loads + 1 := by
  obtain ⟨command, m, reply, m'⟩ := c
  obtain ⟨hbefore, hstep, -, -⟩ := h
  dsimp only at hbefore hstep
  cases hstep with
  | @retained name entry flags handle hlive _ =>
      rw [← hbefore.entries] at hlive
      obtain ⟨handle', -, hhandle', -⟩ := LibraryTable.entryOf?_eq_some.1 hlive
      refine .inl ⟨?_, rfl⟩
      simp [LibraryCall.loaded?, hhandle']
  | @loaded name loaded handle hfree _ hhandle =>
      rw [← hbefore.entries] at hfree
      have hunknown := hbefore.consistent.handleOf?_of_entryOf?_eq_none hfree
      refine .inr ⟨handle, ?_, hhandle, rfl⟩
      simp [LibraryCall.loaded?, LibraryCall.opened?, LibraryCommand.opened?, hunknown]
  | unsupported | notLoaded =>
      refine .inl ⟨?_, rfl⟩
      simp [LibraryCall.loaded?, LibraryCall.opened?, LibraryCommand.opened?]
  | notOpen | closed | notFound | lookedUp => exact .inl ⟨rfl, rfl⟩

/-- The handles of the loads are the numbers of the loads. -/
theorem Run.handles (h : Run e l calls l') :
    (calls.filterMap LibraryCall.loaded?).map UInt32.toNat
        = List.range' (l.loads + 1) (calls.filterMap LibraryCall.loaded?).length
      ∧ l'.loads = l.loads + (calls.filterMap LibraryCall.loaded?).length := by
  induction h with
  | nil => exact ⟨rfl, rfl⟩
  | @cons l l' l'' c calls hcall _ ih =>
      obtain ⟨ihhandles, ihloads⟩ := ih
      rcases hcall.loads with ⟨hnone, hloads⟩ | ⟨handle, hsome, hhandle, hloads⟩
      · rw [List.filterMap_cons_none hnone]
        rw [hloads] at ihhandles ihloads
        exact ⟨ihhandles, ihloads⟩
      · rw [List.filterMap_cons_some hsome, List.map_cons, List.length_cons, List.range'_succ,
          hhandle, ihhandles, ihloads, hloads]
        exact ⟨rfl, by omega⟩

/-- The count of a handle grows by the openings that give it out and shrinks by the closings. -/
theorem Run.counts (h : Run e l calls l') {handle : UInt32} {count : Nat}
    (hcounts : l.Counts handle count) :
    ∃ count', l'.Counts handle count'
      ∧ count + calls.countP (·.opened? = some handle)
        = count' + calls.countP (·.closed? = some handle) := by
  induction h generalizing count with
  | nil => exact ⟨count, hcounts, rfl⟩
  | @cons l l' l'' c calls hcall _ ih =>
      obtain ⟨count₁, hcounts₁, hstep⟩ := hcall.step.counts hcounts
      obtain ⟨count₂, hcounts₂, hrest⟩ := ih hcounts₁
      refine ⟨count₂, hcounts₂, ?_⟩
      change count + (if c.opened? = some handle then 1 else 0)
        = count₁ + if c.closed? = some handle then 1 else 0 at hstep
      rw [List.countP_cons, List.countP_cons]
      simp only [decide_eq_true_eq]
      omega

end Ledger

/-! ## One command -/

/-- What a command comes to: a step of the ledger, and the source of modules is the same. -/
def LibraryCommand.Refines (e : Engine ι) (l : Ledger ι) (command : LibraryCommand)
    (m : Machine ι) : Prop :=
  ∃ l', Ledger.Accounts e l (command.call e m) l'
    ∧ (command.call e m).after.host.source = m.host.source

section

variable {e : Engine ι} {l : Ledger ι} {m : Machine ι} {name : String} {flags : DlFlags}

/-- A library that is open is not loaded again, whatever the flags are. -/
theorem refines_open_of_live (h : l.Represents m.host) {entry : LibraryEntry ι}
    (hlive : l.entries name = some entry) :
    (LibraryCommand.open name flags).Refines e l m := by
  obtain ⟨handle, lib, hlib, rfl, rfl⟩ := h.library_of_entries hlive
  have hretain := h.consistent.retain_of_open hlib
  have hcall : (LibraryCommand.open lib.name flags).call e m
      = ⟨.open lib.name flags, m, .ok (.handle handle),
          m.withLibraries (m.host.libraries.recount handle lib (lib.refcount + 1))⟩ := by
    rw [LibraryCommand.call, LibraryCommand.perform, bind_pure_apply, openLibrary_apply,
      hretain]
    rfl
  rw [LibraryCommand.Refines, hcall]
  exact ⟨_, ⟨h, .retained flags handle hlive rfl, h.recount hlib (h.consistent.retain hretain),
    fun h => h.elim⟩, rfl⟩

/-- The call of a name that is not open. -/
theorem call_open_of_free (e : Engine ι) (flags : DlFlags) (h : l.Represents m.host)
    (hfree : l.entries name = none) :
    (LibraryCommand.open name flags).call e m
      = if flags.isSupported then
          match e.load name m with
          | (.ok loaded, m') =>
              ⟨.open name flags, m, .ok (.handle m'.host.libraries.nextHandle),
                m'.withLibraries (m'.host.libraries.insert name loaded).2⟩
          | (.error err, m') => ⟨.open name flags, m, .error err, m'⟩
        else
          ⟨.open name flags, m, .error (LinkError.ofKind (.unsupportedFlag flags.bits)), m⟩ := by
  have hunknown := h.consistent.handleOf?_of_entryOf?_eq_none (h.entries ▸ hfree)
  have hretain : m.host.libraries.retain name = none := by
    simp only [LibraryTable.retain, hunknown, Option.bind_eq_bind, Option.bind_none]
  rw [LibraryCommand.call, LibraryCommand.perform, bind_pure_apply, openLibrary_apply,
    hretain]
  by_cases hflags : flags.isSupported = true
  · simp only [if_pos hflags]
    rcases e.load name m with ⟨err | loaded, m'⟩ <;> rfl
  · simp only [if_neg hflags]
    rfl

theorem refines_open_of_free (h : l.Represents m.host) (hfree : l.entries name = none)
    (hstart : m.host.Startless name)
    (hroom : ((LibraryCommand.open name flags).call e m).loaded?.isSome → l.loads + 1 < UInt32.size) :
    (LibraryCommand.open name flags).Refines e l m := by
  have hcall := call_open_of_free e flags h hfree
  by_cases hflags : flags.isSupported = true
  · rw [if_pos hflags] at hcall
    have hnow : flags = .now := by simpa [DlFlags.isSupported] using hflags
    subst hnow
    obtain ⟨arena, hhost⟩ : ∃ arena, (e.load name m).2.host
        = { m.host with requested := name :: m.host.requested, arena := arena } :=
      loadModule_host e.calls hstart
    have hrequest := h.request name arena
    rw [← hhost] at hrequest
    rcases hload : e.load name m with ⟨err | loaded, m'⟩ <;>
      rw [hload] at hcall hhost hrequest
    · rw [LibraryCommand.Refines, hcall]
      refine ⟨_, ⟨h, .notLoaded hfree ?_, hrequest, fun h => h.elim⟩, by rw [hhost]⟩
      rw [hload]
    · have hloaded : ((LibraryCommand.open name .now).call e m).loaded?.isSome := by
        have hunknown := h.consistent.handleOf?_of_entryOf?_eq_none (h.entries ▸ hfree)
        rw [hcall]
        simp [LibraryCall.loaded?, LibraryCall.opened?, LibraryCommand.opened?, hunknown]
      have hlt := hroom hloaded
      rw [LibraryCommand.Refines, hcall]
      refine ⟨_, ⟨h, .loaded _ hfree ?_ (hrequest.nextHandle hlt),
        hrequest.record hfree hlt loaded, fun h => h.elim⟩, ?_⟩
      · rw [hload]
      · show m'.host.source = m.host.source
        rw [hhost]
  · rw [if_neg hflags] at hcall
    have hflags : flags ≠ .now := by simpa [DlFlags.isSupported] using hflags
    rw [LibraryCommand.Refines, hcall]
    exact ⟨l, ⟨h, .unsupported hfree hflags, h, fun h => h.elim⟩, rfl⟩

theorem refines_close (h : l.Represents m.host) (handle : UInt32) :
    (LibraryCommand.close handle).Refines e l m := by
  rcases hlib : m.host.libraries.library? handle with _ | lib
  · have hcall : (LibraryCommand.close handle).call e m
        = ⟨.close handle, m, .error (LinkError.ofKind (.invalidHandle handle)), m⟩ := by
      simp only [LibraryCommand.call, LibraryCommand.perform, LibraryTable.close, hlib]
    rw [LibraryCommand.Refines, hcall]
    exact ⟨l, ⟨h, .notOpen (h.not_live hlib), h, fun _ => rfl⟩, rfl⟩
  · have hclose := LibraryTable.close_of_open hlib
    have hcall : (LibraryCommand.close handle).call e m
        = ⟨.close handle, m, .ok (.left (lib.refcount - 1)),
            m.withLibraries (m.host.libraries.recount handle lib (lib.refcount - 1))⟩ := by
      simp only [LibraryCommand.call, LibraryCommand.perform, hclose]
    rw [LibraryCommand.Refines, hcall]
    exact ⟨_, ⟨h, .closed (h.entries_of_library hlib) rfl,
      h.recount hlib (h.consistent.close hclose), fun h => h.elim⟩, rfl⟩

theorem refines_lookup (h : l.Represents m.host) (handle : UInt32) (symbol : String) :
    (LibraryCommand.lookup handle symbol).Refines e l m := by
  rcases hlib : m.host.libraries.library? handle with _ | lib
  · have hcall : (LibraryCommand.lookup handle symbol).call e m
        = ⟨.lookup handle symbol, m, .error (LinkError.ofKind (.invalidHandle handle)), m⟩ := by
      simp only [LibraryCommand.call, LibraryCommand.perform, LibraryTable.lookup, hlib]
      rfl
    rw [LibraryCommand.Refines, hcall]
    exact ⟨l, ⟨h, .notFound symbol (h.not_live hlib), h, fun _ => rfl⟩, rfl⟩
  · have hcall : (LibraryCommand.lookup handle symbol).call e m
        = ⟨.lookup handle symbol, m,
            (LibraryEntry.lookup ⟨handle.toNat, lib.refcount, lib.loaded⟩ lib.name symbol).map .item,
            m⟩ := by
      simp only [LibraryCommand.call, LibraryCommand.perform, LibraryTable.lookup, hlib]
      rfl
    rw [LibraryCommand.Refines, hcall]
    exact ⟨l, ⟨h, .lookedUp symbol (h.entries_of_library hlib) rfl, h, fun _ => rfl⟩, rfl⟩

/-- **Every command is a step of the ledger that the table represents.** -/
theorem LibraryCommand.refines (h : l.Represents m.host) (command : LibraryCommand)
    (hstart : ∀ name flags, command = .open name flags → m.host.Startless name)
    (hroom : (command.call e m).loaded?.isSome → l.loads + 1 < UInt32.size) :
    command.Refines e l m := by
  cases command with
  | «open» name flags =>
      rcases hentry : l.entries name with _ | entry
      · exact refines_open_of_free h hentry (hstart name flags rfl) hroom
      · exact refines_open_of_live h hentry
  | close handle => exact refines_close h handle
  | lookup handle symbol => exact refines_lookup h handle symbol

end

/-! ## Sequences of commands -/

/-- A table that represents a ledger goes on to represent it, whatever the commands are. -/
theorem Engine.libraryCalls_run (e : Engine ι) (commands : List LibraryCommand) {l : Ledger ι}
    {m : Machine ι} (h : l.Represents m.host)
    (hstart : ∀ name flags, .open name flags ∈ commands → m.host.Startless name)
    (hroom : l.loads + ((e.libraryCalls commands m).filterMap LibraryCall.loaded?).length < UInt32.size) :
    ∃ l', Ledger.Run e l (e.libraryCalls commands m) l' := by
  induction commands generalizing l m with
  | nil => exact ⟨l, .nil l⟩
  | cons command commands ih =>
      have hhead : (command.call e m).loaded?.isSome → l.loads + 1 < UInt32.size := by
        intro hloaded
        obtain ⟨handle, hsome⟩ := Option.isSome_iff_exists.1 hloaded
        rw [libraryCalls, List.filterMap_cons_some hsome, List.length_cons] at hroom
        omega
      obtain ⟨l₁, hcall, hsource⟩ := command.refines h
        (fun name flags hopen => hstart name flags (hopen ▸ List.mem_cons_self)) hhead
      have hstart' (name : String) (flags : DlFlags) (hopen : .open name flags ∈ commands) :
          (command.call e m).after.host.Startless name := by
        rw [Host.Startless, hsource]
        exact hstart name flags (List.mem_cons_of_mem _ hopen)
      have htail : l₁.loads
          + ((e.libraryCalls commands (command.call e m).after).filterMap
              LibraryCall.loaded?).length < UInt32.size := by
        rw [libraryCalls] at hroom
        rcases hcall.loads with ⟨hnone, hloads⟩ | ⟨handle, hsome, -, hloads⟩
        · rw [List.filterMap_cons_none hnone] at hroom
          omega
        · rw [List.filterMap_cons_some hsome, List.length_cons] at hroom
          omega
      obtain ⟨l', hrest⟩ := ih hcall.after hstart' htail
      exact ⟨l', .cons hcall hrest⟩

/-- **The open libraries are counted.** Every sequence of commands on an empty table, over modules
    without start functions, is a run of the ledger: the handles of the loads are 1, 2 and so on,
    and in the end every handle has as many references as it was given out more often than it was
    given back. -/
theorem Engine.libraries_counted (e : Engine ι) (start : Machine ι)
    (hempty : start.host.libraries = .empty) (commands : List LibraryCommand)
    (hstart : ∀ name flags, .open name flags ∈ commands → start.host.Startless name)
    (hloads : ((e.libraryCalls commands start).filterMap LibraryCall.loaded?).length < UInt32.size) :
    let calls := e.libraryCalls commands start
    let given := calls.filterMap LibraryCall.loaded?
    ∃ l, Ledger.Run e (.new start.host.requested) calls l
      ∧ given.map UInt32.toNat = List.range' 1 given.length ∧ l.loads = given.length ∧ ¬ l.Live 0
      ∧ ∀ handle, ∃ count, l.Counts handle count
          ∧ calls.countP (·.opened? = some handle)
            = count + calls.countP (·.closed? = some handle) := by
  intro calls given
  have hroom : (Ledger.new start.host.requested : Ledger ι).loads + given.length < UInt32.size := by
    rw [show (Ledger.new start.host.requested : Ledger ι).loads = 0 from rfl, Nat.zero_add]
    exact hloads
  obtain ⟨l, hrun⟩ := e.libraryCalls_run commands (.of_new hempty) hstart hroom
  obtain ⟨hhandles, hlast⟩ := hrun.handles
  refine ⟨l, hrun, hhandles, hlast.trans (Nat.zero_add _), l.not_live_zero, fun handle => ?_⟩
  have hnone : ¬ (Ledger.new start.host.requested : Ledger ι).Live handle := by
    rintro ⟨name, entry, hlive, -⟩
    cases hlive
  obtain ⟨count, hcounts, hsum⟩ := hrun.counts (.dead hnone)
  rw [Nat.zero_add] at hsum
  exact ⟨count, hcounts, hsum⟩

/-- Two libraries without code. -/
def emptyLibraries : ModuleSource ModuleObject := fun name =>
  if name = "a" ∨ name = "b" then .ok (.parsed .empty)
  else .error (LinkError.ofKind (.moduleNotFound name))

/-- Three loads, of which the third is of a library that has been closed. One name is not found, one
    handle is not in use. -/
theorem Engine.libraries_counted_three :
    let e : Engine Empty := .ofStubs fun f _ _ => nomatch f
    let start : Machine Empty := ⟨.empty, .new .default emptyLibraries .accepting, false⟩
    let commands : List LibraryCommand :=
      [.open "a" .now, .open "b" .now, .open "a" .lazy, .open "c" .now, .close 1, .close 0,
        .close 1, .lookup 2 "f", .open "a" .now]
    let calls := e.libraryCalls commands start
    calls.filterMap LibraryCall.loaded? = [1, 2, 3]
      ∧ ∃ l, Ledger.Run e (.new []) calls l ∧ l.loads = 3 ∧ l.Counts 1 0 := by
  intro e start commands calls
  have hloaded : calls.filterMap LibraryCall.loaded? = [1, 2, 3] := by decide +kernel
  have hstart (name : String) (flags : DlFlags) (_ : .open name flags ∈ commands) :
      start.host.Startless name := by
    intro object w hsource hparse
    have hobject : emptyLibraries name = .ok object := hsource
    rw [emptyLibraries] at hobject
    split at hobject <;> cases hobject
    have hempty : (ModuleObject.parsed .empty).parse name = .ok .empty := rfl
    rw [hempty] at hparse
    cases hparse
    rfl
  obtain ⟨l, hrun, -, hloads, -, hcounts⟩ :=
    e.libraries_counted start rfl commands hstart (by rw [hloaded]; decide)
  obtain ⟨count, hcount, hsum⟩ := hcounts 1
  refine ⟨hloaded, l, hrun, by rw [hloads, hloaded]; rfl, ?_⟩
  have hopened : calls.countP (·.opened? = some 1) = 2 := by decide +kernel
  have hclosed : calls.countP (·.closed? = some 1) = 2 := by decide +kernel
  rw [hopened, hclosed] at hsum
  rwa [show count = 0 by omega] at hcount

end WasmHost
