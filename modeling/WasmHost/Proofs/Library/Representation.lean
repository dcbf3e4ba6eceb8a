import WasmHost.Proofs.Library.Consistency
import WasmHost.Proofs.Library.Ledger

set_option autoImplicit false

/-! # The table of open libraries as a ledger

A consistent table is a ledger (`Ledger.Represents`): a name has the entry of the library that is
open under its handle. What the operations of the table do to its two indexes is one change of an
entry each. -/

namespace WasmHost

variable {ι : Type}

/-! ## Entries of a table -/

namespace LibraryTable

/-- What the table says of the library that is open under a name. -/
def entryOf? (t : LibraryTable ι) (name : String) : Option (LibraryEntry ι) := do
  let handle ← t.handleOf? name
  let lib ← t.library? handle
  return ⟨handle.toNat, lib.refcount, lib.loaded⟩

/-- The table with another count for an open library. Without references it is forgotten. -/
def recount (t : LibraryTable ι) (handle : UInt32) (lib : OpenLibrary ι) (count : Nat) :
    LibraryTable ι :=
  if count = 0 then
    { t with libraries := t.libraries.erase handle, handles := t.handles.erase lib.name }
  else { t with libraries := t.libraries.insert handle { lib with refcount := count } }

variable {t : LibraryTable ι} {name : String} {handle : UInt32} {lib : OpenLibrary ι}
  {entry : LibraryEntry ι}

theorem entryOf?_eq_some :
    t.entryOf? name = some entry
      ↔ ∃ handle lib, t.handleOf? name = some handle ∧ t.library? handle = some lib
        ∧ entry = ⟨handle.toNat, lib.refcount, lib.loaded⟩ := by
  simp only [entryOf?, Option.bind_eq_bind, Option.bind_eq_some_iff]
  constructor
  · rintro ⟨handle, hhandle, lib, hlib, heq⟩
    exact ⟨handle, lib, hhandle, hlib, (Option.some.inj heq).symm⟩
  · rintro ⟨handle, lib, hhandle, hlib, rfl⟩
    exact ⟨handle, hhandle, lib, hlib, rfl⟩

theorem Consistent.entryOf?_of_library (ht : t.Consistent) (hlib : t.library? handle = some lib) :
    t.entryOf? lib.name = some ⟨handle.toNat, lib.refcount, lib.loaded⟩ :=
  entryOf?_eq_some.2 ⟨handle, lib, (ht _ _).2 ⟨lib, hlib, rfl⟩, hlib, rfl⟩

/-- A name that has no entry is not known at all. -/
theorem Consistent.handleOf?_of_entryOf?_eq_none (ht : t.Consistent) (h : t.entryOf? name = none) :
    t.handleOf? name = none := by
  rcases hhandle : t.handleOf? name with _ | handle
  · rfl
  · obtain ⟨lib, hlib, rfl⟩ := (ht name handle).1 hhandle
    rw [ht.entryOf?_of_library hlib] at h
    cases h

theorem Consistent.retain_of_open (ht : t.Consistent) (hlib : t.library? handle = some lib) :
    t.retain lib.name = some (handle, t.recount handle lib (lib.refcount + 1)) := by
  rw [ht.retain_open hlib, recount, if_neg (Nat.succ_ne_zero _)]

theorem close_of_open (hlib : t.library? handle = some lib) :
    t.close handle = .ok (lib.refcount - 1, t.recount handle lib (lib.refcount - 1)) := by
  simp only [close, hlib, recount]
  split
  · rename_i hleft
    rw [hleft]
  · rfl

/-- Another count for a library is another count for the entry of its name, and for no other. -/
theorem Consistent.entryOf?_recount (ht : t.Consistent) (hlib : t.library? handle = some lib)
    (count : Nat) :
    (t.recount handle lib count).entryOf?
      = LibraryEntry.recount t.entryOf? lib.name ⟨handle.toNat, lib.refcount, lib.loaded⟩ count := by
  funext other
  have hself := (ht lib.name handle).2 ⟨lib, hlib, rfl⟩
  by_cases hother : other = lib.name
  · subst hother
    rw [LibraryEntry.recount, Function.update_self, recount]
    split
    · simp [entryOf?, handleOf?]
    · rw [entryOf?_eq_some]
      refine ⟨handle, { lib with refcount := count }, hself, ?_, rfl⟩
      rw [library?, Assoc.get?_insert, if_pos rfl]
  · rw [LibraryEntry.recount_of_ne hother]
    -- the handle of another name is another handle
    have hne (handle' : UInt32) (h : t.handleOf? other = some handle') : handle ≠ handle' := by
      rintro rfl
      obtain ⟨lib', hlib', hname'⟩ := (ht other handle).1 h
      rw [hlib] at hlib'
      exact hother (by rw [← hname', Option.some.inj hlib'])
    have hnames : (t.recount handle lib count).handleOf? other = t.handleOf? other := by
      rw [recount]
      split
      · rw [handleOf?, Assoc.get?_erase, if_neg (Ne.symm hother)]
        rfl
      · rfl
    have hlibs (handle' : UInt32) (h : handle ≠ handle') :
        (t.recount handle lib count).library? handle' = t.library? handle' := by
      rw [recount]
      split
      · rw [library?, Assoc.get?_erase, if_neg h]
        rfl
      · rw [library?, Assoc.get?_insert, if_neg h]
        rfl
    rw [entryOf?, entryOf?, hnames]
    rcases hhandle : t.handleOf? other with _ | handle'
    · rfl
    · simp only [Option.bind_eq_bind, Option.bind_some, hlibs handle' (hne handle' hhandle)]

/-- Recording a library adds the entry of its name, if its handle is not in use. -/
theorem entryOf?_insert (loaded : LoadedModule ι)
    (hunused : ∀ other handle, t.handleOf? other = some handle → t.nextHandle ≠ handle) :
    (t.insert name loaded).2.entryOf?
      = Function.update t.entryOf? name (some ⟨t.nextHandle.toNat, 1, loaded⟩) := by
  funext other
  have hnames : (t.insert name loaded).2.handleOf? other
      = if name = other then some t.nextHandle else t.handleOf? other :=
    Assoc.get?_insert _ _ _ _
  have hlibs (handle : UInt32) : (t.insert name loaded).2.library? handle
      = if t.nextHandle = handle then some ⟨name, loaded, 1⟩ else t.library? handle :=
    Assoc.get?_insert _ _ _ _
  by_cases hother : other = name
  · subst hother
    rw [if_pos rfl] at hnames
    rw [Function.update_self, entryOf?_eq_some]
    exact ⟨t.nextHandle, _, hnames, (hlibs _).trans (if_pos rfl), rfl⟩
  · rw [if_neg (Ne.symm hother)] at hnames
    rw [Function.update_of_ne hother, entryOf?, entryOf?, hnames]
    rcases hhandle : t.handleOf? other with _ | handle
    · rfl
    · simp only [Option.bind_eq_bind, Option.bind_some, hlibs, if_neg (hunused other _ hhandle)]

end LibraryTable

/-! ## Representation -/

/-- The ledger says what the table says. -/
structure Ledger.Represents (l : Ledger ι) (host : Host ι) : Prop where
  consistent : host.libraries.Consistent
  entries : host.libraries.entryOf? = l.entries
  loads : host.libraries.lastHandle.toNat = l.loads
  requested : host.requested = l.requested

namespace Ledger.Represents

variable {l : Ledger ι} {host : Host ι} {name : String} {entry : LibraryEntry ι}
  {handle : UInt32} {lib : OpenLibrary ι}

theorem of_new (h : host.libraries = .empty) : (Ledger.new host.requested).Represents host where
  consistent := h ▸ .empty
  entries := by rw [h]; rfl
  loads := by rw [h]; rfl
  requested := rfl

/-- A library in the table has an entry. -/
theorem entries_of_library (h : l.Represents host)
    (hlib : host.libraries.library? handle = some lib) :
    l.entries lib.name = some ⟨handle.toNat, lib.refcount, lib.loaded⟩ := by
  rw [← h.entries]
  exact h.consistent.entryOf?_of_library hlib

/-- An entry is that of a library in the table. -/
theorem library_of_entries (h : l.Represents host) (hlive : l.entries name = some entry) :
    ∃ handle lib, host.libraries.library? handle = some lib ∧ lib.name = name
      ∧ entry = ⟨handle.toNat, lib.refcount, lib.loaded⟩ := by
  rw [← h.entries] at hlive
  obtain ⟨handle, lib, hhandle, hlib, heq⟩ := LibraryTable.entryOf?_eq_some.1 hlive
  obtain ⟨lib', hlib', hname⟩ := (h.consistent name handle).1 hhandle
  rw [hlib] at hlib'
  exact ⟨handle, lib, hlib, by rw [Option.some.inj hlib', hname], heq⟩

theorem not_live (h : l.Represents host) (hlib : host.libraries.library? handle = none) :
    ¬ l.Live handle := by
  rintro ⟨name, entry, hlive, hhandle⟩
  obtain ⟨handle', lib, hlib', -, rfl⟩ := h.library_of_entries hlive
  rw [UInt32.toNat_inj.1 hhandle, hlib] at hlib'
  cases hlib'

/-- Another count for a library in the table is another count in the ledger. -/
theorem recount (h : l.Represents host) (hlib : host.libraries.library? handle = some lib)
    {count : Nat} (hconsistent : (host.libraries.recount handle lib count).Consistent) :
    (l.recount (h.entries_of_library hlib) count).Represents
      { host with libraries := host.libraries.recount handle lib count } where
  consistent := hconsistent
  entries := by
    show (host.libraries.recount handle lib count).entryOf? = LibraryEntry.recount l.entries _ _ _
    rw [h.consistent.entryOf?_recount hlib, h.entries]
  loads := by
    show (host.libraries.recount handle lib count).lastHandle.toNat = l.loads
    rw [LibraryTable.recount, ← h.loads]
    split <;> rfl
  requested := h.requested

theorem request (h : l.Represents host) (name : String) (arena : MemoryArena Nat) :
    (l.request name).Represents
      { host with requested := name :: host.requested, arena := arena } where
  consistent := h.consistent
  entries := h.entries
  loads := h.loads
  requested := congrArg (name :: ·) h.requested

theorem nextHandle (h : l.Represents host) (hroom : l.loads + 1 < UInt32.size) :
    host.libraries.nextHandle.toNat = l.loads + 1 := by
  have hadd : (host.libraries.lastHandle + 1).toNat = l.loads + 1 := by
    rw [UInt32.toNat_add, h.loads]
    exact Nat.mod_eq_of_lt hroom
  have hne : host.libraries.lastHandle + 1 ≠ 0 := by
    intro hzero
    rw [hzero] at hadd
    exact absurd hadd (Nat.succ_ne_zero _).symm
  rw [LibraryTable.nextHandle, if_neg hne, hadd]

/-- The next handle is not in use. -/
theorem nextHandle_ne (h : l.Represents host) (hroom : l.loads + 1 < UInt32.size)
    (hhandle : host.libraries.handleOf? name = some handle) :
    host.libraries.nextHandle ≠ handle := by
  rintro rfl
  obtain ⟨lib, hlib, -⟩ := (h.consistent name _).1 hhandle
  have hle := l.handle_le (h.entries_of_library hlib)
  rw [h.nextHandle hroom] at hle
  exact absurd hle (Nat.not_succ_le_self _)

/-- Recording a library that has just been loaded adds an entry. -/
theorem record (h : l.Represents host) (hfree : l.entries name = none)
    (hroom : l.loads + 1 < UInt32.size) (loaded : LoadedModule ι) :
    (l.record name loaded).Represents
      { host with libraries := (host.libraries.insert name loaded).2 } := by
  have hunknown := h.consistent.handleOf?_of_entryOf?_eq_none (h.entries ▸ hfree)
  constructor
  · rw [LibraryTable.consistent_insert_iff h.consistent]
    intro other handle hhandle
    refine iff_of_false ?_ fun hsame => h.nextHandle_ne hroom hhandle hsame.symm
    rintro rfl
    rw [hunknown] at hhandle
    cases hhandle
  · show (host.libraries.insert name loaded).2.entryOf? = l.recorded name loaded
    rw [LibraryTable.entryOf?_insert loaded fun _ _ => h.nextHandle_ne hroom, recorded,
      h.nextHandle hroom, h.entries]
  · show (host.libraries.lastHandle + 1).toNat = l.loads + 1
    rw [UInt32.toNat_add, h.loads]
    exact Nat.mod_eq_of_lt hroom
  · exact h.requested

end Ledger.Represents

end WasmHost
