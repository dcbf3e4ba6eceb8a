import WasmHost.Proofs.Libc.Pending
import WasmHost.Proofs.Libc.Replies

set_option autoImplicit false

/-! # Pointers to functions

A pointer to a function is the number of a slot, and `dlsym` only ever adds slots at the end of the
table that the calling module exports. So a pointer stays what it is (`Machine.KeepsSlots`) whatever
else is looked up, by whatever module, and also when the library that the function is from has been
closed: its instance stays in the store. Apart from slots and the message for `dlerror` a call of
`dlsym` changes nothing at all (`Machine.OnlyPoints`).

The main result is `Libc.dlsym_appends`. -/

namespace WasmHost

open WasmHost.Action

variable {ι : Type}

/-! ## Slots that stay -/

theorem Store.tableAt_setTable_ne (s : Store ι) {addr addr' : Nat} (h : addr ≠ addr')
    (t : TableInstance ι) : (s.setTable addr t).tableAt addr' = s.tableAt addr' := by
  rw [tableAt, tableAt, setTable, Array.getD_eq_getD_getElem?, Array.getD_eq_getD_getElem?,
    Array.getElem?_setIfInBounds_ne h]

/-- A table of which no slot is there cannot be put into the store either. -/
theorem Store.setTable_of_le (s : Store ι) {addr : Nat} (h : s.tables.size ≤ addr)
    (t : TableInstance ι) : s.setTable addr t = s := by
  rw [setTable, Array.setIfInBounds_eq_of_size_le h]

/-- A table that has slots is in the store. -/
theorem Store.lt_of_slots (s : Store ι) {addr : Nat} (h : 0 < (s.tableAt addr).slots.size) :
    addr < s.tables.size := by
  refine Nat.lt_of_not_le fun hle => ?_
  rw [tableAt, Array.getD_eq_getD_getElem?, Array.getElem?_eq_none hle] at h
  exact Nat.lt_irrefl 0 h

/-- One more function has been put at the end of a table. -/
structure TableInstance.Appended (t t' : TableInstance ι) (f : Func ι) : Prop where
  last : t'.slots[t.slots.size]? = some (some f)
  below (slot : Nat) (h : slot < t.slots.size) : t'.slots[slot]? = t.slots[slot]?
  size_eq : t'.slots.size = t.slots.size + 1
  max_eq : t'.max = t.max

/-- A table grows by a slot just if it has fewer than it may have. -/
theorem TableInstance.push?_of_lt {t : TableInstance ι}
    (h : t.slots.size < t.max.getD (UInt32.size - 1)) (f : Func ι) :
    ∃ t', t.push? (some f) = some t' ∧ t.Appended t' f := by
  refine ⟨{ t with slots := t.slots.push (some f) }, if_pos h, ?_⟩
  exact
    { last := Array.getElem?_push_size
      below := fun slot hslot => by
        rw [Array.getElem?_push_lt hslot, Array.getElem?_eq_getElem hslot]
      size_eq := Array.size_push _
      max_eq := rfl }

theorem TableInstance.push?_of_le {t : TableInstance ι}
    (h : t.max.getD (UInt32.size - 1) ≤ t.slots.size) (f : Option (Func ι)) : t.push? f = none :=
  if_neg (Nat.not_le_of_lt (Nat.lt_succ_of_le h))

namespace Machine

/-- What is in the slots of tables stays there. -/
def KeepsSlots (m m' : Machine ι) : Prop :=
  ∀ (addr slot : Nat) (entry : Option (Func ι)),
    (m.store.tableAt addr).slots[slot]? = some entry →
    (m'.store.tableAt addr).slots[slot]? = some entry

instance : IsPreorder (Machine ι) KeepsSlots where
  refl _ := fun _ _ _ h => h
  trans _ _ _ h₁ h₂ := fun addr slot entry h => h₂ addr slot entry (h₁ addr slot entry h)

theorem KeepsSlots.of_tables {m m' : Machine ι} (h : m'.store.tables = m.store.tables) :
    m.KeepsSlots m' := by
  intro addr slot entry hentry
  rwa [Store.tableAt, h]

theorem KeepsSlots.hasPointer {m m' : Machine ι} (h : m.KeepsSlots m') {addr slot : Nat}
    {f : Func ι} (hf : m.HasPointer addr slot f) : m'.HasPointer addr slot f :=
  h addr slot (some f) hf

/-- Adding a slot keeps those that are there. -/
theorem KeepsSlots.append {m : Machine ι} {addr : Nat} {t : TableInstance ι} {f : Func ι}
    (h : (m.store.tableAt addr).Appended t f) :
    m.KeepsSlots { m with store := m.store.setTable addr t } := by
  intro addr' slot entry hentry
  by_cases haddr : addr = addr'
  · subst haddr
    rcases Nat.lt_or_ge addr m.store.tables.size with hlt | hge
    · have hslot : slot < (m.store.tableAt addr).slots.size := by
        refine Nat.lt_of_not_le fun hle => ?_
        rw [Array.getElem?_eq_none hle] at hentry
        cases hentry
      rw [m.store.tableAt_setTable hlt, h.below slot hslot]
      exact hentry
    · rw [m.store.setTable_of_le hge]
      exact hentry
  · rw [m.store.tableAt_setTable_ne haddr]
    exact hentry

/-- All that looking up a symbol changes: a function may be added at the end of a table, and the
    message of a failure may be kept for `dlerror`. The libraries with their counts and handles, the
    environment, the heap, the memories and all the rest of the host and of the store are as
    before. -/
structure OnlyPoints (m m' : Machine ι) : Prop where
  store : m'.store = m.store ∨ ∃ addr table f, (m.store.tableAt addr).Appended table f
    ∧ m'.store = m.store.setTable addr table
  host : ∃ message, m'.host
    = { m.host with libraries := { m.host.libraries with pendingError := message } }

theorem OnlyPoints.refl (m : Machine ι) : m.OnlyPoints m := ⟨.inl rfl, ⟨m.pendingError, rfl⟩⟩

/-- A failure may be kept at the end. -/
theorem OnlyPoints.failing {m m' : Machine ι} (h : m.OnlyPoints m') (err : LinkError) :
    m.OnlyPoints (m'.failing err) := by
  obtain ⟨hstore, ⟨message, hhost⟩⟩ := h
  refine ⟨hstore, ⟨some err.fullMessage, ?_⟩⟩
  show { m'.host with libraries := m'.host.libraries.setError err } = _
  rw [hhost]
  rfl

theorem OnlyPoints.keepsSlots {m m' : Machine ι} (h : m.OnlyPoints m') : m.KeepsSlots m' := by
  rcases h.store with hstore | ⟨addr, table, f, happended, hstore⟩
  · exact .of_tables (congrArg Store.tables hstore)
  · intro addr' slot entry hentry
    rw [hstore]
    exact KeepsSlots.append happended addr' slot entry hentry

theorem OnlyPoints.instances {m m' : Machine ι} (h : m.OnlyPoints m') :
    m'.store.instances = m.store.instances := by
  rcases h.store with hstore | ⟨addr, table, f, -, hstore⟩ <;> rw [hstore]
  rfl

end Machine

namespace Libc

variable {caller : Caller ι} {name : String} {f : Func ι} {m : Machine ι} {addr : Nat}

/-! ## One lookup -/

/-- With room for a positive 32-bit number the pointer is the number of the new slot. -/
theorem functionPointer_of_room (h : caller.functionTable? = some addr)
    (haddr : addr < m.store.tables.size)
    (hslot : 2 * (m.store.tableAt addr).slots.size < UInt32.size)
    (hroom : (m.store.tableAt addr).slots.size
      < (m.store.tableAt addr).max.getD (UInt32.size - 1)) :
    ∃ table reply, functionPointer caller name f m
        = (.ok reply, { m with store := m.store.setTable addr table })
      ∧ reply.toNat = (m.store.tableAt addr).slots.size
      ∧ (m.store.tableAt addr).Appended table f
      ∧ (m.store.setTable addr table).tableAt addr = table := by
  obtain ⟨table, hpush, happended⟩ := TableInstance.push?_of_lt hroom f
  refine ⟨table, (m.store.tableAt addr).slots.size.toUInt32, ?_, ?_, happended,
    m.store.tableAt_setTable haddr table⟩
  · rw [functionPointer_of_table h, growTable_apply, hpush]
    simp only [hslot, if_true]
  · exact UInt32.toNat_ofNat_of_lt' (by omega)

/-- Without room nothing but the message is kept. -/
theorem functionPointer_of_no_room (h : caller.functionTable? = some addr)
    (hroom : ¬ (m.store.tableAt addr).slots.size
      < (m.store.tableAt addr).max.getD (UInt32.size - 1)) :
    functionPointer caller name f m
      = (.ok 0, m.failing (LinkError.ofKind (.functionTableFull name))) := by
  rw [functionPointer_of_table h, growTable_apply,
    TableInstance.push?_of_le (Nat.le_of_not_lt hroom)]

/-- Putting a function into a table only adds a slot. -/
theorem growTable_onlyPoints (addr : Nat) (f : Func ι) (m : Machine ι) :
    m.OnlyPoints (growTable addr f m).2 := by
  rw [growTable_apply]
  by_cases hroom : (m.store.tableAt addr).slots.size
      < (m.store.tableAt addr).max.getD (UInt32.size - 1)
  · obtain ⟨table, hpush, happended⟩ := TableInstance.push?_of_lt hroom f
    rw [hpush]
    exact ⟨.inr ⟨addr, table, f, happended, rfl⟩, ⟨m.pendingError, rfl⟩⟩
  · rw [TableInstance.push?_of_le (Nat.le_of_not_lt hroom)]
    exact .refl m

theorem functionPointer_onlyPoints (caller : Caller ι) (name : String) (f : Func ι)
    (m : Machine ι) : m.OnlyPoints (functionPointer caller name f m).2 := by
  rcases htable : caller.functionTable? with _ | addr
  · rw [functionPointer_of_no_table htable]
    exact .refl m
  · have hgrow := growTable_onlyPoints addr f m
    rw [functionPointer_of_table htable]
    rcases hrun : growTable addr f m with ⟨failure | _ | slot, m'⟩ <;> rw [hrun] at hgrow
    · exact hgrow
    · exact hgrow.failing _
    · exact hgrow

theorem symbolNamed_onlyPoints (caller : Caller ι) (handle : UInt32) (name : String)
    (m : Machine ι) : m.OnlyPoints (symbolNamed caller handle name m).2 := by
  obtain ⟨err, hmissing⟩ | ⟨f, hsymbol⟩ | ⟨addr, hsymbol⟩ :=
    found_or_not m.host.libraries handle name
  · rw [symbolNamed_of_notFound hmissing]
    exact (Machine.OnlyPoints.refl m).failing err
  · rw [symbolNamed_of_function hsymbol]
    exact functionPointer_onlyPoints caller name f m
  · rw [symbolNamed_of_global hsymbol]
    exact .refl m

/-- **Looking up a symbol** changes nothing but slots and the message, whatever its result is. -/
theorem dlsym_onlyPoints (caller : Caller ι) (handle symbol : UInt32) (m : Machine ι) :
    m.OnlyPoints (dlsym caller handle symbol m).2 := by
  rw [dlsym_apply]
  rcases textOf m symbol with failure | name
  · exact .refl m
  · exact symbolNamed_onlyPoints caller handle name m

theorem stubs_dlsym_onlyPoints [Budget] (caller : Caller Function) (args : List Value)
    (m : Machine Function) : m.OnlyPoints (engine.stubs (.word .dlsym) caller args m).2 := by
  rw [stubs_dlsym]
  exact dlsym_onlyPoints caller _ _ m

theorem stubs_dlclose_store [Budget] (caller : Caller Function) (args : List Value)
    (m : Machine Function) :
    (engine.stubs (.word .dlclose) caller args m).2.store = m.store := by
  rw [stubs_dlclose, dlclose_apply]
  rcases m.host.libraries.close (Args.word args 0) with err | ⟨left, t⟩ <;> rfl

/-! ## Any calls -/

/-- Calls of `dlsym` and `dlclose` by any modules, one after the other. What happens in between does
    not touch the tables or the instances, but may do anything else. -/
inductive LoaderRun [Budget] (m : Machine Function) : Machine Function → Prop where
  | start : LoaderRun m m
  | dlsym {m' : Machine Function} (h : LoaderRun m m') (caller : Caller Function)
      (args : List Value) : LoaderRun m (engine.stubs (.word .dlsym) caller args m').2
  | dlclose {m' : Machine Function} (h : LoaderRun m m') (caller : Caller Function)
      (args : List Value) : LoaderRun m (engine.stubs (.word .dlclose) caller args m').2
  | between {m' m'' : Machine Function} (h : LoaderRun m m')
      (htables : m''.store.tables = m'.store.tables)
      (hinstances : m''.store.instances = m'.store.instances) : LoaderRun m m''

/-- **Slots and instances stay** over any calls. -/
theorem LoaderRun.keeps [Budget] {m m' : Machine Function} (hrun : LoaderRun m m') :
    m.KeepsSlots m' ∧ m'.store.instances = m.store.instances := by
  induction hrun with
  | start => exact ⟨refl_of Machine.KeepsSlots m, rfl⟩
  | @dlsym m₁ _ caller args ih =>
      have hpoints := stubs_dlsym_onlyPoints caller args m₁
      exact ⟨trans_of Machine.KeepsSlots ih.1 hpoints.keepsSlots, hpoints.instances.trans ih.2⟩
  | @dlclose m₁ _ caller args ih =>
      have hstore := stubs_dlclose_store caller args m₁
      refine ⟨trans_of Machine.KeepsSlots ih.1 (.of_tables (congrArg Store.tables hstore)), ?_⟩
      rw [hstore]
      exact ih.2
  | between _ htables hinstances ih =>
      exact ⟨trans_of Machine.KeepsSlots ih.1 (.of_tables htables), hinstances.trans ih.2⟩

/-- Code whose table has the pointer calls the function by it. -/
theorem tableFunc_of_hasPointer {m : Machine ι} {inst : Instance ι} {addr : Nat} {slot : UInt32}
    {f : Func ι} (hinst : inst.tables[0]? = some addr) (hf : m.HasPointer addr slot.toNat f) :
    Exec.tableFunc inst f.type slot m = (.ok f, m) := by
  have haddr : (Exec.addressOf inst.tables 0 : Action ι Failure Nat) m = (.ok addr, m) := by
    rw [Exec.addressOf, hinst]
    rfl
  rw [Machine.HasPointer] at hf
  rw [Exec.tableFunc, bind_apply_of_ok haddr, bind_apply_of_ok (getStore_apply m)]
  simp only [hf, if_true]
  rfl

/-- A function has been put into the table at `addr`, and the reply is its slot. Nothing else has
    changed, and the pointer stays whatever calls follow: code that uses the table reaches the
    function by it, and the instance that the function belongs to is there. -/
structure Placed [Budget] (m m' : Machine Function) (addr : Nat) (f : Func Function)
    (reply : UInt32) : Prop where
  slot : reply.toNat = (m.store.tableAt addr).slots.size
  appended : (m.store.tableAt addr).Appended (m'.store.tableAt addr) f
  others (addr' : Nat) (h : addr' ≠ addr) : m'.store.tableAt addr' = m.store.tableAt addr'
  rest : m'.host = m.host ∧ m'.store = { m.store with tables := m'.store.tables }
  stays (m'' : Machine Function) (hrun : LoaderRun m' m'') :
    m''.HasPointer addr reply.toNat f ∧ m''.store.instances = m.store.instances
      ∧ ∀ inst : Instance Function, inst.tables[0]? = some addr →
        Exec.tableFunc inst f.type reply m'' = (.ok f, m'')

section

variable {caller : Caller Function} {m : Machine Function} {name : String} {f : Func Function}
  {addr : Nat}

theorem functionPointer_placed [Budget] (h : caller.functionTable? = some addr)
    (haddr : addr < m.store.tables.size)
    (hslot : 2 * (m.store.tableAt addr).slots.size < UInt32.size)
    (hroom : (m.store.tableAt addr).slots.size
      < (m.store.tableAt addr).max.getD (UInt32.size - 1)) :
    ∃ reply m', functionPointer caller name f m = (.ok reply, m') ∧ Placed m m' addr f reply := by
  obtain ⟨table, reply, hrun, hreply, happended, htable⟩ :=
    functionPointer_of_room h haddr hslot hroom
  refine ⟨reply, _, hrun, hreply, ?_, fun addr' hne => m.store.tableAt_setTable_ne (Ne.symm hne) _,
    ⟨rfl, rfl⟩, fun m'' hlater => ?_⟩
  · rw [← htable] at happended
    exact happended
  · obtain ⟨hkeeps, hinstances⟩ := hlater.keeps
    have hpointer : m''.HasPointer addr reply.toNat f := by
      refine hkeeps.hasPointer ?_
      rw [Machine.HasPointer, htable, hreply]
      exact happended.last
    exact ⟨hpointer, hinstances, fun inst hinst => tableFunc_of_hasPointer hinst hpointer⟩

end

/-- **Looking up a function appends to the caller's table.** If the table can grow by one, the reply
    is the slot that has been added and stays a pointer to the function over any later calls of
    `dlsym` and `dlclose`; if not, only the failure is kept. Whatever the result is, no call changes
    more than slots and the message that is kept. At every moment of a run the function table of a
    caller is in the store. -/
theorem dlsym_appends [Budget] :
    (∀ (caller : Caller Function) (args : List Value) (m : Machine Function) (name : String)
        (f : Func Function) (addr : Nat),
        textOf m (Args.word args 1) = .ok name →
        m.host.libraries.Exports (Args.word args 0) name (.func f) →
        caller.functionTable? = some addr → addr < m.store.tables.size →
        let table := m.store.tableAt addr
        2 * table.slots.size < UInt32.size →
        (table.slots.size < table.max.getD (UInt32.size - 1) →
          ∃ reply m', engine.stubs (.word .dlsym) caller args m = (.ok (.i32 reply), m')
            ∧ Placed m m' addr f reply)
        ∧ (¬ table.slots.size < table.max.getD (UInt32.size - 1) →
          engine.stubs (.word .dlsym) caller args m
            = (.ok (.i32 0), m.failing (LinkError.ofKind (.functionTableFull name)))))
      ∧ (∀ (caller : Caller Function) (args : List Value) (m : Machine Function),
        m.OnlyPoints (engine.stubs (.word .dlsym) caller args m).2)
      ∧ (∀ m m' : Machine Function, LoaderRun m m' →
        m.KeepsSlots m' ∧ m'.store.instances = m.store.instances)
      ∧ ∀ (config : Config) (source : ModuleSource ModuleObject) (sink : Sink)
        (start : Run Function) (requests : List (Run.Request Function)) (m : Machine Function),
        Run.start config source sink = .ok start → Run.Moment engine loads requests start m →
        ∀ (owner addr : Nat) (load : String → Action Function LinkError (LoadedModule Function)),
          Caller.functionTable? ⟨(m.store.instanceAt owner).exports, load⟩ = some addr →
          addr < m.store.tables.size := by
  refine ⟨fun caller args m name f addr htext hsymbol htable haddr => ?_, stubs_dlsym_onlyPoints,
    fun m m' => LoaderRun.keeps, fun _ _ _ _ _ m hstart hm owner addr load => ?_⟩
  · intro table hslot
    have hdlsym : dlsym caller (Args.word args 0) (Args.word args 1) m
        = functionPointer caller name f m := by
      rw [dlsym_apply, htext]
      exact symbolNamed_of_function hsymbol
    refine ⟨fun hroom => ?_, fun hroom => ?_⟩
    · obtain ⟨reply, m', hrun, hplaced⟩ := functionPointer_placed htable haddr hslot hroom
      refine ⟨reply, m', ?_, hplaced⟩
      rw [stubs_dlsym, hdlsym, hrun]
      rfl
    · rw [stubs_dlsym, hdlsym, functionPointer_of_no_room htable hroom]
      rfl
  · exact (sound_of_moment hstart hm).2.functionTable_lt

/-- The sample program with room for one pointer. -/
def onePointerProgram : WasmModule := { pointerProgram with tables := [⟨0, some 1⟩] }

/-- The first lookup fills the table, the second finds it full, and the pointer stays when the
    library is closed. -/
theorem dlsym_appends_once :
    let start : Run Function :=
      ⟨.initial ⟨1, 16384, "main", []⟩ (twoModules onePointerProgram functionLibrary) .accepting,
        .initializing, [], none⟩
    let requests : List (Run.Request Function) :=
      [.addStubs loaderLibraries, .loadModules [], .loadMain "main", .execute]
    ∃ m, Run.Moment engine loads requests start m
      ∧ let caller : Caller Function :=
          ⟨(m.store.instanceAt 0).exports, loadModule engine.calls⟩
        ∃ m' f, engine.stubs (.word .dlsym) caller [.i32 1, .i32 1040] m = (.ok (.i32 0), m')
          ∧ Placed m m' 0 f 0
          ∧ engine.stubs (.word .dlsym) caller [.i32 1, .i32 1040] m'
            = (.ok (.i32 0), m'.failing (LinkError.ofKind (.functionTableFull "f")))
          ∧ (engine.stubs (.word .dlclose) caller [.i32 1] m').2.HasPointer 0 0 f := by
  intro start requests
  have hstart : Run.start ⟨1, 16384, "main", []⟩ (twoModules onePointerProgram functionLibrary)
      .accepting = .ok start := by
    rw [Run.start_eq, if_pos (by decide)]
  have hcalls : ((Run.callsOf engine loads requests start).any fun c =>
      ((c.before.host.libraries.lookup 1 "f").toOption.bind Item.func?).isSome
      && ((textOf c.before 1040).toOption, Caller.functionTable?
          ⟨(c.before.store.instanceAt 0).exports, loadModule engine.calls⟩,
          (c.before.store.tableAt 0).slots.size, (c.before.store.tableAt 0).max)
        == (some "f", some 0, 0, some 1)) = true := by
    decide +kernel
  obtain ⟨c, hc, hfacts⟩ := List.any_eq_true.1 hcalls
  simp only [Bool.and_eq_true, beq_iff_eq, Prod.mk.injEq] at hfacts
  obtain ⟨hlookup, htext, htable, hslots, hmax⟩ := hfacts
  have htext := ok_of_toOption htext
  obtain ⟨f, hf⟩ : ∃ f, c.before.host.libraries.Exports 1 "f" (.func f) := by
    obtain ⟨f, hf⟩ := Option.isSome_iff_exists.1 hlookup
    obtain ⟨item, hitem, hfunc⟩ := Option.bind_eq_some_iff.1 hf
    have hitem := ok_of_toOption hitem
    cases item with
    | func => exact ⟨_, LibraryTable.lookup_eq_ok_iff.1 hitem⟩
    | _ => cases hfunc
  have hm : Run.Moment engine loads requests start c.before := .call c hc
  refine ⟨c.before, hm, ?_⟩
  intro caller
  obtain ⟨happends, -, -, hstored⟩ := dlsym_appends
  have haddr := hstored _ _ _ start requests c.before hstart hm 0 0 _ htable
  -- the table has no slot yet and may have one
  obtain ⟨hfirst, -⟩ := happends caller [.i32 1, .i32 1040] c.before "f" f 0 htext hf htable haddr
    (by rw [hslots]; decide)
  obtain ⟨reply, m', hrun, hplaced⟩ := hfirst (by rw [hslots, hmax]; decide)
  have hreply : reply = 0 := UInt32.toNat_inj.1 (hplaced.slot.trans hslots)
  subst hreply
  have hhost : m'.host = c.before.host := hplaced.rest.1
  have hfull : (m'.store.tableAt 0).slots.size = 1 := by rw [hplaced.appended.size_eq, hslots]
  have hsecond := happends caller [.i32 1, .i32 1040] m' "f" f 0 ?_ ?_ htable ?_ ?_
  · refine ⟨m', f, hrun, hplaced, ?_, ?_⟩
    · exact hsecond.2 (by rw [hfull, hplaced.appended.max_eq, hmax]; decide)
    · exact (hplaced.stays _ (.dlclose .start caller [.i32 1])).1
  · have hsame : textOf m' 1040 = textOf c.before 1040 := by
      rw [textOf, textOf, Machine.stringAt, Machine.stringAt, Machine.activeMemory,
        Machine.activeMemory, hhost, hplaced.rest.2]
      rfl
    exact hsame.trans htext
  · rw [hhost]
    exact hf
  · exact m'.store.lt_of_slots (by rw [hfull]; decide)
  · rw [hfull]
    decide

end Libc

end WasmHost
