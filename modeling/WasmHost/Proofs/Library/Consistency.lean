import WasmHost.Library.Opening
import WasmHost.Proofs.Action

set_option autoImplicit false

/-! # The two sides of the library table

The table of open libraries is kept twice, by handle and by name. It is consistent if the two agree:
a name stands for a handle just if a library of that name is open under it. Every operation keeps
this, with one exception: recording a library whose name is open already, or under a handle that is
in use (`LibraryTable.consistent_insert_iff`). -/

namespace WasmHost

variable {ι : Type}

namespace LibraryTable

/-- A name stands for a handle just if a library of that name is open under that handle. -/
def Consistent (t : LibraryTable ι) : Prop :=
  ∀ name handle,
    t.handleOf? name = some handle ↔ ∃ lib, t.library? handle = some lib ∧ lib.name = name

/-- A library may be recorded under a name: neither the name nor the next handle is in use, or they
    belong together. -/
def Admits (t : LibraryTable ι) (name : String) : Prop :=
  ∀ name' handle, t.handleOf? name' = some handle → (name' = name ↔ handle = t.nextHandle)

variable {t t' : LibraryTable ι} {name : String} {handle : UInt32}

/-! ## What a consistent table promises -/

/-- Two handles under one name are the same. -/
theorem Consistent.handle_unique (ht : t.Consistent) {handle' : UInt32} {lib lib' : OpenLibrary ι}
    (h : t.library? handle = some lib) (h' : t.library? handle' = some lib')
    (hname : lib.name = lib'.name) : handle = handle' := by
  have hlib := (ht lib.name handle).2 ⟨lib, h, rfl⟩
  have hlib' := (ht lib.name handle').2 ⟨lib', h', hname.symm⟩
  rw [hlib] at hlib'
  exact Option.some.inj hlib'

theorem retain_eq_some (h : t.retain name = some (handle, t')) :
    ∃ lib, t.handleOf? name = some handle ∧ t.library? handle = some lib
      ∧ t' = { t with
          libraries := t.libraries.insert handle { lib with refcount := lib.refcount + 1 } } := by
  simp only [retain, Option.bind_eq_bind, Option.bind_eq_some_iff] at h
  obtain ⟨handle', hhandle, lib, hlib, heq⟩ := h
  cases heq
  exact ⟨lib, hhandle, hlib, rfl⟩

/-- A library that is open is not loaded again: its handle is found by its name, and its references
    are one more. -/
theorem Consistent.retain_open (ht : t.Consistent) {lib : OpenLibrary ι}
    (h : t.library? handle = some lib) :
    t.retain lib.name = some (handle,
      { t with
        libraries := t.libraries.insert handle { lib with refcount := lib.refcount + 1 } }) := by
  have hname := (ht lib.name handle).2 ⟨lib, h, rfl⟩
  simp only [retain, hname, h, Option.bind_eq_bind, Option.bind_some]
  rfl

/-! ## What the operations do to it -/

theorem Consistent.empty : (empty : LibraryTable ι).Consistent := by
  intro name handle
  constructor
  · intro h
    cases h
  · rintro ⟨lib, h, -⟩
    cases h

theorem Consistent.setError (ht : t.Consistent) (err : LinkError) : (t.setError err).Consistent :=
  ht

theorem Consistent.takeError (ht : t.Consistent) : t.takeError.2.Consistent := ht

/-- Another version of an open library in its place changes no name. -/
theorem Consistent.replace (ht : t.Consistent) {lib lib' : OpenLibrary ι}
    (hlib : t.library? handle = some lib) (hname : lib'.name = lib.name) :
    LibraryTable.Consistent { t with libraries := t.libraries.insert handle lib' } := by
  intro name' handle'
  rw [show LibraryTable.handleOf? { t with libraries := t.libraries.insert handle lib' } name'
    = t.handleOf? name' from rfl, ht, library?, library?, Assoc.get?_insert]
  by_cases hhandle : handle = handle'
  · subst hhandle
    rw [library?] at hlib
    simp [hlib, hname]
  · simp [hhandle]

theorem Consistent.retain (ht : t.Consistent) (h : t.retain name = some (handle, t')) :
    t'.Consistent := by
  obtain ⟨lib, -, hlib, rfl⟩ := retain_eq_some h
  exact ht.replace hlib rfl

/-- Closing a library forgets its own name only. -/
theorem Consistent.close (ht : t.Consistent) {left : Nat} (h : t.close handle = .ok (left, t')) :
    t'.Consistent := by
  simp only [LibraryTable.close] at h
  rcases hlib : t.library? handle with _ | lib
  · simp only [hlib] at h
    cases h
  simp only [hlib] at h
  split at h <;> cases h
  -- without references: both entries go, and by consistency no other name has this handle
  · intro name' handle'
    have hown := ht lib.name handle
    have hother := ht name' handle'
    simp only [handleOf?, library?, Assoc.get?_erase] at hown hother hlib ⊢
    by_cases hname : lib.name = name'
    · subst hname
      rw [if_pos rfl]
      by_cases hhandle : handle = handle'
      · rw [if_pos hhandle]
        simp
      · rw [if_neg hhandle, ← hother, hown.2 ⟨lib, hlib, rfl⟩]
        simp [hhandle]
    · rw [if_neg hname]
      by_cases hhandle : handle = handle'
      · subst hhandle
        rw [if_pos rfl, hother, hlib]
        simp [hname]
      · rw [if_neg hhandle]
        exact hother
  · exact ht.replace hlib rfl

/-- What can happen to a table while nothing is loaded: failures are recorded and taken, libraries
    are retained and closed. -/
inductive Served : LibraryTable ι → LibraryTable ι → Prop
  | refl (t : LibraryTable ι) : Served t t
  | setError {t t' : LibraryTable ι} (h : Served t t') (err : LinkError) : Served t (t'.setError err)
  | takeError {t t' : LibraryTable ι} (h : Served t t') : Served t t'.takeError.2
  | retain {t t' t'' : LibraryTable ι} (h : Served t t') {name : String} {handle : UInt32}
      (hretain : t'.retain name = some (handle, t'')) : Served t t''
  | close {t t' t'' : LibraryTable ι} (h : Served t t') {handle : UInt32} {left : Nat}
      (hclose : t'.close handle = .ok (left, t'')) : Served t t''

theorem Served.trans {t'' : LibraryTable ι} (h : Served t t') (h' : Served t' t'') :
    Served t t'' := by
  induction h' with
  | refl => exact h
  | setError _ err ih => exact ih.setError err
  | takeError _ ih => exact ih.takeError
  | retain _ hretain ih => exact ih.retain hretain
  | close _ hclose ih => exact ih.close hclose

theorem Consistent.served (ht : t.Consistent) (h : Served t t') : t'.Consistent := by
  induction h with
  | refl => exact ht
  | setError _ err ih => exact ih.setError err
  | takeError _ ih => exact ih.takeError
  | retain _ hretain ih => exact ih.retain hretain
  | close _ hclose ih => exact ih.close hclose

/-- Closing a library does not make another one that is open unknown. -/
theorem Consistent.close_other (ht : t.Consistent) {left : Nat} {handle' : UInt32}
    {lib : OpenLibrary ι} (h : t.close handle = .ok (left, t')) (hne : handle ≠ handle')
    (hlib : t.library? handle' = some lib) : t'.handleOf? lib.name = some handle' := by
  refine (ht.close h lib.name handle').2 ⟨lib, ?_, rfl⟩
  simp only [LibraryTable.close] at h
  rcases hclosed : t.library? handle with _ | closed
  · simp only [hclosed] at h
    cases h
  · simp only [hclosed] at h
    split at h <;> cases h
    · rw [library?, Assoc.get?_erase, if_neg hne]
      exact hlib
    · rw [library?, Assoc.get?_insert, if_neg hne]
      exact hlib

/-- **Recording a library keeps a table consistent just if the table admits its name.** -/
theorem consistent_insert_iff (ht : t.Consistent) (loaded : LoadedModule ι) :
    (t.insert name loaded).2.Consistent ↔ t.Admits name := by
  -- consistency of the new table, name by name and handle by handle, in terms of the old names
  have hinsert (name' : String) (handle' : UInt32) :
      ((t.insert name loaded).2.handleOf? name' = some handle' ↔
        ∃ lib, (t.insert name loaded).2.library? handle' = some lib ∧ lib.name = name')
      ↔ ((if name = name' then some t.nextHandle else t.handleOf? name') = some handle' ↔
          if t.nextHandle = handle' then name = name' else t.handleOf? name' = some handle') := by
    rw [ht name' handle']
    simp only [insert, handleOf?, library?, Assoc.get?_insert]
    by_cases hhandle : t.nextHandle = handle' <;> simp [hhandle]
  constructor
  · intro h name' handle' hname'
    have hiff := (hinsert name' handle').1 (h name' handle')
    rw [hname'] at hiff
    by_cases hname : name = name' <;> by_cases hhandle : t.nextHandle = handle'
    · exact ⟨fun _ => hhandle.symm, fun _ => hname.symm⟩
    · rw [if_pos hname, if_neg hhandle] at hiff
      exact absurd (Option.some.inj (hiff.2 rfl)) hhandle
    · rw [if_neg hname, if_pos hhandle] at hiff
      exact absurd (hiff.1 rfl) hname
    · exact ⟨fun heq => absurd heq.symm hname, fun heq => absurd heq.symm hhandle⟩
  · intro h name' handle'
    refine (hinsert name' handle').2 ?_
    have haccept := h name' handle'
    by_cases hname : name = name'
    · subst hname
      rw [if_pos rfl]
      by_cases hhandle : t.nextHandle = handle'
      · simp [hhandle]
      · rw [if_neg hhandle]
        refine ⟨fun heq => absurd (Option.some.inj heq) hhandle, fun hlive => ?_⟩
        exact absurd ((haccept hlive).1 rfl).symm hhandle
    · rw [if_neg hname]
      by_cases hhandle : t.nextHandle = handle'
      · rw [if_pos hhandle]
        refine ⟨fun hlive => ?_, fun heq => absurd heq hname⟩
        exact absurd ((haccept hlive).2 hhandle.symm).symm hname
      · rw [if_neg hhandle]

end LibraryTable

/-! ## Opening -/

/-- The machine with another library table. -/
def Machine.withLibraries (m : Machine ι) (t : LibraryTable ι) : Machine ι :=
  { m with host := { m.host with libraries := t } }

/-- Opening retains a library that is open, and otherwise loads it and records what was loaded in
    the table that the load leaves. -/
theorem openLibrary_apply (load : String → Action ι LinkError (LoadedModule ι)) (name : String)
    (flags : DlFlags) (m : Machine ι) :
    openLibrary load name flags m
      = match m.host.libraries.retain name with
        | some (handle, t) => (.ok handle, m.withLibraries t)
        | none =>
            if flags.isSupported then
              match load name m with
              | (.ok loaded, m') =>
                  (.ok (m'.host.libraries.insert name loaded).1,
                    m'.withLibraries (m'.host.libraries.insert name loaded).2)
              | (.error err, m') => (.error err, m')
            else (.error (LinkError.ofKind (.unsupportedFlag flags.bits)), m) := by
  have hretain : (Action.retainLibrary name : Action ι LinkError (Option UInt32)) m
      = match m.host.libraries.retain name with
        | some (handle, t) => (.ok (some handle), m.withLibraries t)
        | none => (.ok none, m) := rfl
  rw [openLibrary, bind_apply, hretain]
  rcases m.host.libraries.retain name with _ | ⟨handle, t⟩
  · by_cases hflags : flags.isSupported = true
    · simp only [hflags, Bool.not_true, Bool.false_eq_true, if_false, if_true]
      rw [bind_apply]
      rcases load name m with ⟨err | loaded, m'⟩ <;> rfl
    · simp only [hflags, Bool.not_false, Bool.false_eq_true, if_false, if_true]
      rfl
  · rfl

end WasmHost
