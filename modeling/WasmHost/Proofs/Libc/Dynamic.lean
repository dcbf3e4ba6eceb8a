import WasmHost.Proofs.Libc.Calls
import WasmHost.Proofs.Library.Representation

set_option autoImplicit false

/-! # The functions of the dynamic loader

`dlopen`, `dlsym` and `dlclose` report a failure by what they reply and keep its message for
`dlerror`, which copies it. `Machine.Tells` says what a reply tells: a certain value is replied just
if the function has failed. `dlclose` replies -1 for a handle that is not in use and zero otherwise.
`dlsym` replies zero if there is no such symbol; a pointer to a function is the number of the slot
that it is put into (`Machine.PointsTo`), and that number may be zero, too. -/

namespace WasmHost

open WasmHost.Action

variable {ι : Type}

/-! ## Failures of the loader -/

/-- The message that `dlerror` gives next. -/
def Machine.pendingError (m : Machine ι) : Option String := m.host.libraries.pendingError

/-- The machine after a failure has been kept for `dlerror`. -/
def Machine.failing (m : Machine ι) (err : LinkError) : Machine ι :=
  m.withLibraries (m.host.libraries.setError err)

@[simp] theorem Machine.pendingError_failing (m : Machine ι) (err : LinkError) :
    (m.failing err).pendingError = some err.fullMessage := rfl

/-- The machine after the message of the latest failure has been taken. -/
def Machine.forgetting (m : Machine ι) : Machine ι := m.withLibraries m.host.libraries.takeError.2

/-- The function replies `value` just if it has failed. Then it keeps the error and does nothing
    else; otherwise the message that is kept stays as it is. -/
structure Machine.Tells (before after : Machine ι) (failed : LinkError → Prop)
    (value reply : UInt32) : Prop where
  told : reply = value ↔ ∃ err, failed err
  failure (err : LinkError) (h : failed err) : after = before.failing err
  success (h : ¬ ∃ err, failed err) : after.pendingError = before.pendingError

/-! ## Symbols of libraries -/

namespace LibraryTable

variable {t : LibraryTable ι} {handle : UInt32} {symbol : String} {item : Item ι}
  {err : LinkError}

/-- A library is open under the handle, and it exports the item under the name. An empty name is
    none. -/
def Exports (t : LibraryTable ι) (handle : UInt32) (symbol : String) (item : Item ι) : Prop :=
  ∃ lib, t.library? handle = some lib ∧ symbol ≠ "" ∧ lib.loaded.lookup? symbol = some item

/-- Why a library does not have a symbol. -/
inductive NotFound (t : LibraryTable ι) (handle : UInt32) (symbol : String) : LinkError → Prop
  | closed (h : t.library? handle = none) :
      NotFound t handle symbol (LinkError.ofKind (.invalidHandle handle))
  | unnamed (lib : OpenLibrary ι) (h : t.library? handle = some lib) (hsymbol : symbol = "") :
      NotFound t handle symbol (LinkError.ofKind .invalidSymbol)
  | missing (lib : OpenLibrary ι) (h : t.library? handle = some lib) (hsymbol : symbol ≠ "")
      (hmissing : lib.loaded.lookup? symbol = none) :
      NotFound t handle symbol (LinkError.ofKind (.symbolNotFound symbol lib.name))
  /-- Tables and memories have no address that could be given back. -/
  | noAddress (lib : OpenLibrary ι) (item : Item ι) (h : t.library? handle = some lib)
      (hsymbol : symbol ≠ "") (hitem : lib.loaded.lookup? symbol = some item)
      (hkind : item.kind = .table ∨ item.kind = .memory) :
      NotFound t handle symbol (LinkError.ofKind (.symbolNotFound symbol lib.loaded.name))

/-- A name that is not empty is looked up among the exports. -/
theorem lookup_named {lib : OpenLibrary ι} (h : t.library? handle = some lib)
    (hsymbol : symbol ≠ "") :
    t.lookup handle symbol
      = (lib.loaded.lookup? symbol).elim
          (.error (LinkError.ofKind (.symbolNotFound symbol lib.name))) .ok := by
  have hempty : ¬ symbol.isEmpty = true := fun h => hsymbol (String.isEmpty_iff.1 h)
  rw [lookup, h]
  dsimp only
  rw [if_neg hempty]
  rcases lib.loaded.lookup? symbol with _ | item <;> rfl

theorem lookup_eq_ok_iff : t.lookup handle symbol = .ok item ↔ t.Exports handle symbol item := by
  rcases hlib : t.library? handle with _ | lib
  · simp [lookup, Exports, hlib]
  · by_cases hsymbol : symbol = ""
    · simp [lookup, Exports, hlib, hsymbol]
    · rw [lookup_named hlib hsymbol]
      rcases hitem : lib.loaded.lookup? symbol with _ | item' <;>
        simp [Exports, hlib, hsymbol, hitem]

theorem close_of_closed (h : t.library? handle = none) :
    t.close handle = .error (LinkError.ofKind (.invalidHandle handle)) := by
  rw [close, h]

theorem pendingError_recount (t : LibraryTable ι) (handle : UInt32) (lib : OpenLibrary ι)
    (count : Nat) : (t.recount handle lib count).pendingError = t.pendingError := by
  rw [recount]
  split <;> rfl

end LibraryTable

namespace Libc

/-! ## Closing -/

theorem dlclose_apply (handle : UInt32) (m : Machine ι) :
    dlclose handle m
      = match m.host.libraries.close handle with
        | .ok (_, t) => (.ok 0, m.withLibraries t)
        | .error err => (.ok 0xffffffff, m.failing err) := by
  rw [dlclose, bind_apply_of_ok (getHost_apply m)]
  rcases m.host.libraries.close handle with err | ⟨left, t⟩ <;> rfl

/-- **Closing** gives back -1 if the handle is not in use, and zero otherwise. -/
theorem dlclose_tells (handle : UInt32) (m : Machine ι) :
    ∃ reply m', dlclose handle m = (.ok reply, m') ∧ (reply = 0 ∨ reply = 0xffffffff)
      ∧ m.Tells m' (fun err => m.host.libraries.library? handle = none
          ∧ err = LinkError.ofKind (.invalidHandle handle)) 0xffffffff reply := by
  rw [dlclose_apply]
  rcases hlib : m.host.libraries.library? handle with _ | lib
  · rw [LibraryTable.close_of_closed hlib]
    refine ⟨_, _, rfl, .inr rfl, ⟨fun _ => ⟨_, rfl, rfl⟩, fun _ => rfl⟩, ?_, fun h => ?_⟩
    · rintro err ⟨-, rfl⟩
      rfl
    · exact absurd ⟨_, rfl, rfl⟩ h
  · rw [LibraryTable.close_of_open hlib]
    refine ⟨_, _, rfl, .inl rfl, ⟨fun h => absurd h (by decide), ?_⟩, ?_,
      fun _ => LibraryTable.pendingError_recount _ _ _ _⟩
    · rintro ⟨err, h, -⟩
      cases h
    · rintro err ⟨h, -⟩
      cases h

/-! ## The message of the latest failure -/

theorem dlerror_of_none {m : Machine ι} (h : m.pendingError = none) : dlerror m = (.ok 0, m) := by
  have htake : (takeError : Action ι Failure (Option String)) m = (.ok none, m) := by
    show (Except.ok m.pendingError, m.withLibraries { m.host.libraries with pendingError := none })
      = _
    rw [h, ← h]
    rfl
  rw [dlerror, bind_apply_of_ok htake]
  rfl

theorem dlerror_of_some {m : Machine ι} {message : String} (h : m.pendingError = some message) :
    dlerror m = (allocateString message.toUTF8.data.toList).orPanic m.forgetting := by
  have htake : (takeError : Action ι Failure (Option String)) m
      = (.ok (some message), m.forgetting) := by
    show (Except.ok m.pendingError, _) = _
    rw [h]
    rfl
  rw [dlerror, bind_apply_of_ok htake]

/-! ## Looking up a symbol -/

/-- The reply of `dlsym` for a symbol whose name has been read. -/
def symbolNamed (caller : Caller ι) (handle : UInt32) (name : String) :
    Action ι Failure UInt32 := do
  let libraries := (← getHost).libraries
  match libraries.lookup handle name with
  | .error err => failWith 0 err
  | .ok (.func f) => functionPointer caller name f
  | .ok (.global addr) => return integerOf ((← getStore).globalAt addr)
  | .ok _ =>
      let library := ((libraries.library? handle).map (·.loaded.name)).getD ""
      failWith 0 (LinkError.ofKind (.symbolNotFound name library))

theorem dlsym_apply (caller : Caller ι) (handle symbol : UInt32) (m : Machine ι) :
    dlsym caller handle symbol m
      = match textOf m symbol with
        | .error failure => (.error failure, m)
        | .ok name => symbolNamed caller handle name m := by
  have hdlsym : dlsym caller handle symbol = textAt symbol >>= symbolNamed caller handle := rfl
  rw [hdlsym, bind_apply, textAt_apply]
  rcases textOf m symbol with failure | name <;> rfl

variable {caller : Caller ι} {handle : UInt32} {name : String} {m : Machine ι}

theorem symbolNamed_of_notFound {err : LinkError}
    (h : m.host.libraries.NotFound handle name err) :
    symbolNamed caller handle name m = (.ok 0, m.failing err) := by
  rw [symbolNamed, bind_apply_of_ok (getHost_apply m)]
  cases h with
  | closed hlib =>
      simp only [LibraryTable.lookup, hlib]
      rfl
  | unnamed lib hlib hname =>
      subst hname
      simp only [LibraryTable.lookup, hlib]
      rfl
  | missing lib hlib hname hmissing =>
      dsimp only
      rw [LibraryTable.lookup_named hlib hname, hmissing]
      rfl
  | noAddress lib item hlib hname hitem hkind =>
      dsimp only
      rw [LibraryTable.lookup_eq_ok_iff.2 ⟨lib, hlib, hname, hitem⟩]
      cases item with
      | func | global => rcases hkind with h | h <;> cases h
      | table | memory =>
          dsimp only
          rw [hlib]
          rfl

theorem symbolNamed_of_function {f : Func ι}
    (h : m.host.libraries.Exports handle name (.func f)) :
    symbolNamed caller handle name m = functionPointer caller name f m := by
  rw [symbolNamed, bind_apply_of_ok (getHost_apply m)]
  dsimp only
  rw [LibraryTable.lookup_eq_ok_iff.2 h]

theorem symbolNamed_of_global {addr : Nat}
    (h : m.host.libraries.Exports handle name (.global addr)) :
    symbolNamed caller handle name m = (.ok (integerOf (m.store.globalAt addr)), m) := by
  rw [symbolNamed, bind_apply_of_ok (getHost_apply m)]
  dsimp only
  rw [LibraryTable.lookup_eq_ok_iff.2 h]
  rfl

end Libc

/-! ## Pointers to functions -/

/-- The address of the function table that the calling module exports. -/
def Caller.functionTable? (caller : Caller ι) : Option Nat :=
  ((caller.exports.find? fun e => e.1 == Libc.functionTable).map Prod.snd).bind Item.table?

/-- The function is in the slot of the table at `addr`. -/
def Machine.HasPointer (m : Machine ι) (addr slot : Nat) (f : Func ι) : Prop :=
  (m.store.tableAt addr).slots[slot]? = some (some f)

/-- What the reply to a request for a pointer to a function tells, for the table that is at `addr`
    before. The slot is the next one of the table. Slot zero has the same number as a failure, and a
    slot whose number is no positive 32-bit integer is given up after it has been filled. -/
structure Machine.PointsTo (m m' : Machine ι) (addr : Nat) (table : TableInstance ι)
    (symbol : String) (f : Func ι) (reply : UInt32) : Prop where
  /-- The function is stored if the table may grow. -/
  stored : m'.HasPointer addr table.slots.size f
    ↔ table.slots.size < table.max.getD (UInt32.size - 1)
  zero : reply = 0 ↔ ¬ m'.HasPointer addr table.slots.size f
    ∨ table.slots.size = 0 ∨ UInt32.size ≤ 2 * table.slots.size
  success (h : m'.HasPointer addr table.slots.size f) (hslot : 2 * table.slots.size < UInt32.size) :
    reply.toNat = table.slots.size ∧ m'.pendingError = m.pendingError
  failure
    (h : ¬ m'.HasPointer addr table.slots.size f ∨ UInt32.size ≤ 2 * table.slots.size) :
    m'.pendingError = some (LinkError.ofKind (.functionTableFull symbol)).fullMessage

namespace Libc

variable {caller : Caller ι} {symbol : String} {f : Func ι} {m : Machine ι}

theorem functionPointer_of_no_table (h : caller.functionTable? = none) :
    functionPointer caller symbol f m
      = (.error (.ofFault (.unimplemented "dlsym of a function without an exported function table")),
          m) := by
  rw [functionPointer]
  rw [Caller.functionTable?] at h
  generalize (caller.exports.find? fun e => e.1 == functionTable).map Prod.snd = item at h ⊢
  rcases item with _ | item
  · rfl
  · cases item with
    | table addr => cases h
    | func | global | memory => rfl

theorem growTable_apply (addr : Nat) (f : Func ι) (m : Machine ι) :
    growTable addr f m
      = match (m.store.tableAt addr).push? (some f) with
        | none => (.ok none, m)
        | some grown =>
            (.ok (if 2 * (m.store.tableAt addr).slots.size < UInt32.size then
                some (m.store.tableAt addr).slots.size.toUInt32 else none),
              { m with store := m.store.setTable addr grown }) := by
  rw [growTable, bind_apply_of_ok (getStore_apply m)]
  rcases (m.store.tableAt addr).push? (some f) with _ | grown <;> rfl

theorem functionPointer_of_table {addr : Nat} (h : caller.functionTable? = some addr) :
    functionPointer caller symbol f m
      = match growTable addr f m with
        | (.error failure, m') => (.error failure, m')
        | (.ok (some slot), m') => (.ok slot, m')
        | (.ok none, m') =>
            (.ok 0, m'.failing (LinkError.ofKind (.functionTableFull symbol))) := by
  obtain ⟨item, hitem, haddr⟩ := Option.bind_eq_some_iff.1 h
  have htable : item = .table addr := by
    cases item <;> cases haddr
    rfl
  rw [functionPointer, hitem, htable]
  show (growTable addr f >>= _) m = _
  rw [bind_apply]
  rcases growTable addr f m with ⟨failure | _ | slot, m'⟩ <;> rfl

/-- After a table has been grown the function is in the new slot. -/
theorem hasPointer_push {addr : Nat} (haddr : addr < m.store.tables.size)
    (table : TableInstance ι) :
    ({ m with store := m.store.setTable addr { table with slots := table.slots.push (some f) } }
      : Machine ι).HasPointer addr table.slots.size f := by
  rw [Machine.HasPointer, m.store.tableAt_setTable haddr]
  exact Array.getElem?_push_size

/-- **A pointer to a function** is the number of the slot that it has been put into. -/
theorem functionPointer_pointsTo (symbol : String) (f : Func ι) {addr : Nat}
    (h : caller.functionTable? = some addr) (haddr : addr < m.store.tables.size) :
    ∃ reply m', functionPointer caller symbol f m = (.ok reply, m')
      ∧ m.PointsTo m' addr (m.store.tableAt addr) symbol f reply := by
  rw [functionPointer_of_table h, growTable_apply, TableInstance.push?]
  by_cases hroom :
      (m.store.tableAt addr).slots.size + 1 ≤ (m.store.tableAt addr).max.getD (UInt32.size - 1)
  · rw [if_pos hroom]
    have hstored := hasPointer_push (f := f) haddr (m.store.tableAt addr)
    by_cases hslot : 2 * (m.store.tableAt addr).slots.size < UInt32.size
    · have hreply : (m.store.tableAt addr).slots.size.toUInt32.toNat
          = (m.store.tableAt addr).slots.size :=
        UInt32.toNat_ofNat_of_lt' (by omega)
      simp only [hslot, if_true]
      refine ⟨_, _, rfl, ⟨fun _ => hroom, fun _ => hstored⟩, ?_, fun _ _ => ⟨hreply, rfl⟩, ?_⟩
      · rw [← UInt32.toNat_inj, hreply]
        refine ⟨fun h => .inr (.inl h), ?_⟩
        rintro (h | h | h)
        · exact absurd hstored h
        · exact h
        · omega
      · rintro (h | h)
        · exact absurd hstored h
        · omega
    · have hge := Nat.le_of_not_lt hslot
      simp only [hslot, if_false]
      exact ⟨_, _, rfl, ⟨fun _ => hroom, fun _ => hstored⟩, ⟨fun _ => .inr (.inr hge), fun _ => rfl⟩,
        fun _ hlt => absurd hge (Nat.not_le_of_lt hlt), fun _ => rfl⟩
  · rw [if_neg hroom]
    -- a full table is left as it is, and the slot is beyond its end
    have hnone : ¬ (m.failing (LinkError.ofKind (.functionTableFull symbol))).HasPointer addr
        (m.store.tableAt addr).slots.size f := by
      intro h
      have hbeyond : (m.store.tableAt addr).slots[(m.store.tableAt addr).slots.size]? = none :=
        Array.getElem?_eq_none (Nat.le_refl _)
      cases hbeyond.symm.trans h
    exact ⟨_, _, rfl, ⟨fun h => absurd h hnone, fun h => absurd h hroom⟩,
      ⟨fun _ => .inl hnone, fun _ => rfl⟩, fun h => absurd h hnone, fun _ => rfl⟩

end Libc

end WasmHost
