import Mathlib.Logic.Function.Basic
import WasmHost.Library.Opening

set_option autoImplicit false

/-! # The ledger of open libraries

What the table of open libraries is about, without its two indexes: a map from names to handles and
counts, and the number of loads so far. `Ledger.Step` says how each command changes it and what is
replied. Handles are numbered by the loads, so they are never used again, and the count of a
library is the number of times that its handle was given out less the number of times that it was
closed (`Ledger.Step.counts`). -/

namespace WasmHost

variable {ι : Type}

/-! ## Commands -/

/-- What can be asked of the open libraries. -/
inductive LibraryCommand where
  | open (name : String) (flags : DlFlags)
  | close (handle : UInt32)
  | lookup (handle : UInt32) (symbol : String)

/-- What is replied if a command succeeds. -/
inductive LibraryReply (ι : Type) where
  | handle (handle : UInt32)
  /-- The number of references that are left. -/
  | left (count : Nat)
  | item (item : Item ι)

/-- The handle that is given out. -/
def LibraryCommand.opened? : LibraryCommand → Except LinkError (LibraryReply ι) → Option UInt32
  | .open _ _, .ok (.handle handle) => some handle
  | _, _ => none

/-- The handle that is given back. -/
def LibraryCommand.closed? : LibraryCommand → Except LinkError (LibraryReply ι) → Option UInt32
  | .close handle, .ok _ => some handle
  | _, _ => none

/-! ## Ledgers -/

/-- What a ledger holds of a library that is open. -/
structure LibraryEntry (ι : Type) where
  handle : Nat
  count : Nat
  loaded : LoadedModule ι

namespace LibraryEntry

/-- The export of a library that is open under a name. -/
def lookup (entry : LibraryEntry ι) (name symbol : String) : Except LinkError (Item ι) :=
  if symbol.isEmpty then .error (LinkError.ofKind .invalidSymbol)
  else
    match entry.loaded.lookup? symbol with
    | some item => .ok item
    | none => .error (LinkError.ofKind (.symbolNotFound symbol name))

/-- The entries with another count for one of them. Without references it is gone. -/
def recount (entries : String → Option (LibraryEntry ι)) (name : String) (entry : LibraryEntry ι)
    (count : Nat) : String → Option (LibraryEntry ι) :=
  Function.update entries name (if count = 0 then none else some { entry with count := count })

variable {entries : String → Option (LibraryEntry ι)} {name other : String}
  {entry entry' : LibraryEntry ι} {count : Nat}

theorem recount_self (hcount : 0 < count) :
    recount entries name entry count name = some { entry with count := count } := by
  rw [recount, Function.update_self, if_neg (Nat.ne_of_gt hcount)]

theorem recount_zero : recount entries name entry 0 name = none := by
  rw [recount, Function.update_self, if_pos rfl]

theorem recount_of_ne (hne : other ≠ name) :
    recount entries name entry count other = entries other :=
  Function.update_of_ne hne _ _

/-- Another count changes no handle, and leaves no entry without references. -/
theorem of_recount (hlive : entries name = some entry)
    (h : recount entries name entry count other = some entry') :
    ∃ old, entries other = some old ∧ entry'.handle = old.handle
      ∧ (entry'.count = old.count ∨ 0 < entry'.count) := by
  by_cases hother : other = name
  · subst hother
    rcases Nat.eq_zero_or_pos count with rfl | hcount
    · rw [recount_zero] at h
      cases h
    · rw [recount_self hcount] at h
      cases h
      exact ⟨entry, hlive, rfl, .inr hcount⟩
  · rw [recount_of_ne hother] at h
    exact ⟨entry', h, rfl, .inl rfl⟩

end LibraryEntry

/-- The libraries that are open, by name, and what has been loaded so far. -/
structure Ledger (ι : Type) where
  entries : String → Option (LibraryEntry ι)
  /-- The number of loads that have succeeded. -/
  loads : Nat
  /-- The names of the modules that have been asked for, latest first. -/
  requested : List String
  count_pos {name : String} {entry : LibraryEntry ι} (h : entries name = some entry) :
    0 < entry.count
  handle_pos {name : String} {entry : LibraryEntry ι} (h : entries name = some entry) :
    0 < entry.handle
  handle_le {name : String} {entry : LibraryEntry ι} (h : entries name = some entry) :
    entry.handle ≤ loads
  handle_inj {name other : String} {entry entry' : LibraryEntry ι} (h : entries name = some entry)
    (h' : entries other = some entry') (hhandle : entry.handle = entry'.handle) : name = other

namespace Ledger

/-- Nothing is open and nothing has been loaded. -/
def new (requested : List String) : Ledger ι where
  entries _ := none
  loads := 0
  requested := requested
  count_pos h := nomatch h
  handle_pos h := nomatch h
  handle_le h := nomatch h
  handle_inj h := nomatch h

/-- The ledger with another count for an open library. Without references it is closed. -/
def recount (l : Ledger ι) {name : String} {entry : LibraryEntry ι}
    (hlive : l.entries name = some entry) (count : Nat) : Ledger ι where
  entries := LibraryEntry.recount l.entries name entry count
  loads := l.loads
  requested := l.requested
  count_pos h := by
    obtain ⟨old, hold, -, hcount | hcount⟩ := LibraryEntry.of_recount hlive h
    · exact hcount ▸ l.count_pos hold
    · exact hcount
  handle_pos h := by
    obtain ⟨old, hold, hhandle, -⟩ := LibraryEntry.of_recount hlive h
    exact hhandle ▸ l.handle_pos hold
  handle_le h := by
    obtain ⟨old, hold, hhandle, -⟩ := LibraryEntry.of_recount hlive h
    exact hhandle ▸ l.handle_le hold
  handle_inj h h' hsame := by
    obtain ⟨old, hold, hhandle, -⟩ := LibraryEntry.of_recount hlive h
    obtain ⟨old', hold', hhandle', -⟩ := LibraryEntry.of_recount hlive h'
    exact l.handle_inj hold hold' (hhandle.symm.trans (hsame.trans hhandle'))

/-- The ledger after a module has been asked for. -/
def request (l : Ledger ι) (name : String) : Ledger ι :=
  { l with requested := name :: l.requested }

/-- The entries with one for a library that has just been loaded. -/
def recorded (l : Ledger ι) (name : String) (loaded : LoadedModule ι) :
    String → Option (LibraryEntry ι) :=
  Function.update l.entries name (some ⟨l.loads + 1, 1, loaded⟩)

theorem of_recorded {l : Ledger ι} {name other : String} {loaded : LoadedModule ι}
    {entry : LibraryEntry ι} (h : l.recorded name loaded other = some entry) :
    (other = name ∧ entry = ⟨l.loads + 1, 1, loaded⟩) ∨ l.entries other = some entry := by
  by_cases hother : other = name
  · subst hother
    rw [recorded, Function.update_self] at h
    exact .inl ⟨rfl, (Option.some.inj h).symm⟩
  · rw [recorded, Function.update_of_ne hother] at h
    exact .inr h

/-- The ledger after a library has been loaded. Its handle is the number of the load. -/
def record (l : Ledger ι) (name : String) (loaded : LoadedModule ι) : Ledger ι where
  entries := l.recorded name loaded
  loads := l.loads + 1
  requested := l.requested
  count_pos h := by
    obtain ⟨-, rfl⟩ | h := of_recorded h
    · exact Nat.one_pos
    · exact l.count_pos h
  handle_pos h := by
    obtain ⟨-, rfl⟩ | h := of_recorded h
    · exact Nat.succ_pos _
    · exact l.handle_pos h
  handle_le h := by
    obtain ⟨-, rfl⟩ | h := of_recorded h
    · exact Nat.le_refl _
    · exact Nat.le_succ_of_le (l.handle_le h)
  handle_inj h h' hsame := by
    -- the handles so far are at most the number of loads, so the new one is not among them
    rcases of_recorded h with ⟨rfl, rfl⟩ | hold <;> rcases of_recorded h' with ⟨rfl, rfl⟩ | hold'
    · rfl
    · exact absurd (hsame ▸ l.handle_le hold') (Nat.not_succ_le_self _)
    · exact absurd (hsame ▸ l.handle_le hold) (Nat.not_succ_le_self _)
    · exact l.handle_inj hold hold' hsame

/-- A library is open under the handle. -/
def Live (l : Ledger ι) (handle : UInt32) : Prop :=
  ∃ name entry, l.entries name = some entry ∧ entry.handle = handle.toNat

theorem not_live_zero (l : Ledger ι) : ¬ l.Live 0 := by
  rintro ⟨name, entry, hlive, hhandle⟩
  exact absurd (l.handle_pos hlive) (Nat.not_lt.2 (Nat.le_of_eq hhandle))

/-! ## Steps -/

/-- What a command does and what it replies, where `load` is what comes of loading a module. -/
inductive Step (load : String → Except LinkError (LoadedModule ι)) (l : Ledger ι) :
    LibraryCommand → Except LinkError (LibraryReply ι) → Ledger ι → Prop where
  /-- A library that is open has one more reference, whatever the flags are. -/
  | retained {name : String} {entry : LibraryEntry ι} (flags : DlFlags) (handle : UInt32)
      (hlive : l.entries name = some entry) (hhandle : handle.toNat = entry.handle) :
      Step load l (.open name flags) (.ok (.handle handle)) (l.recount hlive (entry.count + 1))
  | unsupported {name : String} {flags : DlFlags} (hfree : l.entries name = none)
      (hflags : flags ≠ .now) :
      Step load l (.open name flags) (.error (LinkError.ofKind (.unsupportedFlag flags.bits))) l
  | notLoaded {name : String} {err : LinkError} (hfree : l.entries name = none)
      (hload : load name = .error err) :
      Step load l (.open name .now) (.error err) (l.request name)
  | loaded {name : String} {loaded : LoadedModule ι} (handle : UInt32)
      (hfree : l.entries name = none) (hload : load name = .ok loaded)
      (hhandle : handle.toNat = l.loads + 1) :
      Step load l (.open name .now) (.ok (.handle handle)) ((l.request name).record name loaded)
  | notOpen {handle : UInt32} (hdead : ¬ l.Live handle) :
      Step load l (.close handle) (.error (LinkError.ofKind (.invalidHandle handle))) l
  /-- A library that is open has one reference less; without references it is closed. -/
  | closed {handle : UInt32} {name : String} {entry : LibraryEntry ι}
      (hlive : l.entries name = some entry) (hhandle : handle.toNat = entry.handle) :
      Step load l (.close handle) (.ok (.left (entry.count - 1)))
        (l.recount hlive (entry.count - 1))
  | notFound {handle : UInt32} (symbol : String) (hdead : ¬ l.Live handle) :
      Step load l (.lookup handle symbol) (.error (LinkError.ofKind (.invalidHandle handle))) l
  | lookedUp {handle : UInt32} {name : String} {entry : LibraryEntry ι} (symbol : String)
      (hlive : l.entries name = some entry) (hhandle : handle.toNat = entry.handle) :
      Step load l (.lookup handle symbol) ((entry.lookup name symbol).map .item) l

/-! ## Counting references -/

/-- The number of references to the library of a handle; none if there is no such library. -/
inductive Counts (l : Ledger ι) (handle : UInt32) : Nat → Prop where
  | dead (hdead : ¬ l.Live handle) : Counts l handle 0
  | live {name : String} {entry : LibraryEntry ι} (hlive : l.entries name = some entry)
      (hhandle : handle.toNat = entry.handle) : Counts l handle entry.count

variable {l l' : Ledger ι} {name : String} {entry : LibraryEntry ι} {handle : UInt32} {count : Nat}

theorem Counts.eq_count (h : l.Counts handle count) (hlive : l.entries name = some entry)
    (hhandle : handle.toNat = entry.handle) : count = entry.count := by
  cases h with
  | dead hdead => exact absurd ⟨name, entry, hlive, hhandle.symm⟩ hdead
  | live hlive' hhandle' =>
      have hname := l.handle_inj hlive hlive' (hhandle.symm.trans hhandle')
      rw [← hname, hlive] at hlive'
      rw [Option.some.inj hlive']

theorem Counts.eq_zero (h : l.Counts handle count) (hdead : ¬ l.Live handle) : count = 0 := by
  cases h with
  | dead => rfl
  | live hlive hhandle => exact absurd ⟨_, _, hlive, hhandle.symm⟩ hdead

theorem counts_recount (hlive : l.entries name = some entry) (hhandle : handle.toNat = entry.handle)
    (count : Nat) : (l.recount hlive count).Counts handle count := by
  rcases Nat.eq_zero_or_pos count with rfl | hcount
  · refine .dead ?_
    rintro ⟨other, entry', hlive', hhandle'⟩
    obtain ⟨old, hold, hsame, -⟩ := LibraryEntry.of_recount hlive hlive'
    have hname := l.handle_inj hlive hold (hhandle.symm.trans (hhandle'.symm.trans hsame))
    subst hname
    have hgone : (l.recount hlive 0).entries name = none := LibraryEntry.recount_zero
    rw [hgone] at hlive'
    cases hlive'
  · have hself : (l.recount hlive count).entries name = some { entry with count := count } :=
      LibraryEntry.recount_self hcount
    exact .live hself hhandle

/-- Another count for one library does not change the count of another. -/
theorem Counts.recount_of_ne (h : l.Counts handle count) (hlive : l.entries name = some entry)
    (hne : handle.toNat ≠ entry.handle) (count' : Nat) :
    (l.recount hlive count').Counts handle count := by
  cases h with
  | dead hdead =>
      refine .dead ?_
      rintro ⟨other, entry', hlive', hhandle'⟩
      obtain ⟨old, hold, hsame, -⟩ := LibraryEntry.of_recount hlive hlive'
      exact hdead ⟨other, old, hold, hsame.symm.trans hhandle'⟩
  | @live other entry' hlive' hhandle' =>
      have hother : other ≠ name := by
        rintro rfl
        rw [hlive] at hlive'
        rw [Option.some.inj hlive'] at hne
        exact hne hhandle'
      exact .live ((LibraryEntry.recount_of_ne hother).trans hlive') hhandle'

theorem Counts.request (h : l.Counts handle count) (name : String) :
    (l.request name).Counts handle count := by
  cases h with
  | dead hdead => exact .dead hdead
  | live hlive hhandle => exact .live hlive hhandle

theorem counts_record (name : String) (loaded : LoadedModule ι)
    (hhandle : handle.toNat = l.loads + 1) : (l.record name loaded).Counts handle 1 := by
  have hself : (l.record name loaded).entries name = some ⟨l.loads + 1, 1, loaded⟩ :=
    Function.update_self _ _ _
  exact .live hself hhandle

/-- Recording a library does not change the count of another. -/
theorem Counts.record_of_ne (h : l.Counts handle count) (hfree : l.entries name = none)
    (hne : handle.toNat ≠ l.loads + 1) (loaded : LoadedModule ι) :
    (l.record name loaded).Counts handle count := by
  cases h with
  | dead hdead =>
      refine .dead ?_
      rintro ⟨other, entry, hlive, hhandle⟩
      rcases of_recorded hlive with ⟨-, rfl⟩ | hlive
      · exact hne hhandle.symm
      · exact hdead ⟨other, entry, hlive, hhandle⟩
  | @live other entry hlive hhandle =>
      have hother : other ≠ name := by
        rintro rfl
        rw [hfree] at hlive
        cases hlive
      exact .live ((Function.update_of_ne hother _ _).trans hlive) hhandle

/-- The handle of the next load is not in use. -/
theorem not_live_of_loads_lt (h : l.loads < handle.toNat) : ¬ l.Live handle := by
  rintro ⟨name, entry, hlive, hhandle⟩
  exact absurd (l.handle_le hlive) (Nat.not_le.2 (hhandle ▸ h))

/-- **One step of the count of a handle**: one more if the handle is given out, one less if it is
    given back. -/
theorem Step.counts {load : String → Except LinkError (LoadedModule ι)} {command : LibraryCommand}
    {reply : Except LinkError (LibraryReply ι)} (hstep : Step load l command reply l')
    (hcounts : l.Counts handle count) :
    ∃ count', l'.Counts handle count'
      ∧ count + (if command.opened? reply = some handle then 1 else 0)
        = count' + if command.closed? reply = some handle then 1 else 0 := by
  cases hstep with
  | @retained name entry flags given hlive hgiven =>
      by_cases hsame : given = handle
      · subst hsame
        refine ⟨entry.count + 1, counts_recount hlive hgiven _, ?_⟩
        simp [LibraryCommand.opened?, LibraryCommand.closed?, hcounts.eq_count hlive hgiven]
      · have hne : handle.toNat ≠ entry.handle := fun h =>
          hsame (UInt32.toNat_inj.1 (hgiven.trans h.symm))
        refine ⟨count, hcounts.recount_of_ne hlive hne _, ?_⟩
        simp [LibraryCommand.opened?, LibraryCommand.closed?, hsame]
  | @loaded name loaded given hfree _ hgiven =>
      by_cases hsame : given = handle
      · subst hsame
        have hdead : ¬ l.Live given := not_live_of_loads_lt (hgiven ▸ Nat.lt_succ_self _)
        refine ⟨1, counts_record (l := l.request name) name loaded hgiven, ?_⟩
        simp [LibraryCommand.opened?, LibraryCommand.closed?, hcounts.eq_zero hdead]
      · have hne : handle.toNat ≠ l.loads + 1 := fun h =>
          hsame (UInt32.toNat_inj.1 (hgiven.trans h.symm))
        refine ⟨count, (hcounts.request name).record_of_ne hfree hne loaded, ?_⟩
        simp [LibraryCommand.opened?, LibraryCommand.closed?, hsame]
  | @closed given name entry hlive hgiven =>
      by_cases hsame : given = handle
      · subst hsame
        have hpos := l.count_pos hlive
        refine ⟨entry.count - 1, counts_recount hlive hgiven _, ?_⟩
        simp only [LibraryCommand.opened?, LibraryCommand.closed?, hcounts.eq_count hlive hgiven,
          reduceCtorEq, if_false, if_true]
        omega
      · have hne : handle.toNat ≠ entry.handle := fun h =>
          hsame (UInt32.toNat_inj.1 (hgiven.trans h.symm))
        refine ⟨count, hcounts.recount_of_ne hlive hne _, ?_⟩
        simp [LibraryCommand.opened?, LibraryCommand.closed?, hsame]
  | notLoaded => exact ⟨count, hcounts.request _, rfl⟩
  | unsupported | notOpen | notFound | lookedUp => exact ⟨count, hcounts, rfl⟩

end Ledger

end WasmHost
