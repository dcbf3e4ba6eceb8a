import WasmHost.Proofs.Libc.HeapCalls

set_option autoImplicit false

/-! # Heap safety

A call of a function that works on the heap is one step of the heap, and no other call touches it.
So what holds of all sequences of events of a heap holds of all calls of a program, whatever happens
to the memories in between: the blocks that are handed out lie in the memory, at or above the base
of the heap, and never overlap, and the size of each is recorded until its address is released.

`realloc` may release the block that it hands out: given an address that is no block but that the
new block happens to get, it takes the new block for the old one. -/

namespace WasmHost.Libc

variable {ι : Type}

/-! ## Any calls -/

/-- Calls one after the other. What happens in between does not touch the heap, but may do anything
    else: memories may grow, and another memory may become the active one. -/
inductive HeapRun : Heap → List (HeapCall ι) → Heap → Prop where
  | nil (h : Heap) : HeapRun h [] h
  | cons {h h' : Heap} {c : HeapCall ι} {cs : List (HeapCall ι)} (hbefore : c.before.host.heap = h)
      (hrest : HeapRun c.after.host.heap cs h') : HeapRun h (c :: cs) h'

namespace HeapRun

variable {h h' h'' : Heap} {cs ds : List (HeapCall ι)}

theorem append (hcs : HeapRun h cs h') (hds : HeapRun h' ds h'') : HeapRun h (cs ++ ds) h'' := by
  induction hcs with
  | nil h => exact hds
  | cons hbefore hrest ih => exact .cons hbefore (ih hds)

/-- Calls are events of the heap. -/
theorem events (hrun : HeapRun h cs h') (hnext : 0 < h.next.toNat) :
    Heap.Run h (cs.map HeapCall.event) h' := by
  induction hrun with
  | nil h => exact .nil h
  | cons hbefore hrest ih =>
      subst hbefore
      have hstep := HeapCall.step hnext
      exact .cons hstep (ih (Nat.lt_of_lt_of_le hnext hstep.next_le))

theorem of_append (hrun : HeapRun h (cs ++ ds) h'') : ∃ h', HeapRun h cs h' ∧ HeapRun h' ds h'' := by
  induction cs generalizing h with
  | nil => exact ⟨h, .nil h, hrun⟩
  | cons c cs ih =>
      cases hrun with
      | cons hbefore hrest =>
          obtain ⟨h₁, hfirst, hsecond⟩ := ih hrest
          exact ⟨h₁, .cons hbefore hfirst, hsecond⟩

end HeapRun

/-! ## What a program does -/

section

variable [Budget]

/-- A call of a stub as a call that works on the heap. -/
def heapCall? (c : StubCall Function) : Option (HeapCall Function) :=
  match c.stub with
  | .implemented (.word f) =>
      if h : f.usesHeap = true then
        some ⟨f, h, ⟨c.exports, loadModule (engine.invoke c.depth)⟩, Args.word c.args, c.before⟩
      else none
  | _ => none

/-- The calls of a history that work on the heap, wherever they are made. -/
def heapCalls (cs : List (StubCall Function)) : List (HeapCall Function) :=
  (flattenAll cs).filterMap heapCall?

/-- Only the calls that work on the heap touch it. -/
def HeapTrace : Trace Function (StubCall Function) := fun m cs _ m' =>
  HeapRun m.host.heap (heapCalls cs) m'.host.heap

theorem HeapTrace.steady : HeapTrace.Steady where
  calm _ h := by
    rw [HeapTrace, h.heap]
    exact .nil _
  append h h' := by
    rw [HeapTrace, heapCalls, flattenAll_append, List.filterMap_append]
    exact h.append h'

/-- A call that loads nothing works on the heap, or leaves it alone. -/
theorem heapRun_of_not_loads {c : StubCall Function}
    (h : c.stub.loaded? loads c.args c.before = none) :
    HeapRun c.before.host.heap (heapCall? c).toList (c.run engine).2.host.heap := by
  obtain ⟨name, stub, type, exports, depth, args, m, inner⟩ := c
  have of_eq {h' : Heap} (heq : h' = m.host.heap) :
      HeapRun m.host.heap ([] : List (HeapCall Function)) h' := by
    rw [heq]
    exact .nil _
  rcases stub with f | _
  · rw [StubCall.run, callStub_machine]
    rcases f with f | _ | f
    · exact of_eq rfl
    · exact of_eq rfl
    rcases hheap : f.usesHeap with _ | _
    · have hnone : heapCall? ⟨name, .implemented (.word f), type, exports, depth, args, m, inner⟩
          = none := dif_neg (by rw [hheap]; exact Bool.false_ne_true)
      rw [hnone]
      by_cases hsilent : f.isSilent = true
      · exact of_eq (WordFunction.call_spares hsilent hheap _ _ m).heap
      · cases f <;> first | exact absurd rfl hsilent | skip
        · exact of_eq rfl
        · rw [stubs_puts, puts_apply]
          rcases m.stringAt (Args.word args 0) with err | s <;> exact of_eq rfl
        · rw [stubs_dlopen]
          exact of_eq (dlopen_of_not_loads Machine.Spares.loaderLenient h).heap
    · have hsome : heapCall? ⟨name, .implemented (.word f), type, exports, depth, args, m, inner⟩
          = some ⟨f, hheap, ⟨exports, loadModule (engine.invoke depth)⟩, Args.word args, m⟩ :=
        dif_pos hheap
      rw [hsome]
      let call : HeapCall Function :=
        ⟨f, hheap, ⟨exports, loadModule (engine.invoke depth)⟩, Args.word args, m⟩
      have hcall : HeapRun call.before.host.heap [call] call.after.host.heap := .cons rfl (.nil _)
      exact hcall
  · exact of_eq rfl

theorem HeapTrace.stubs : engine.TracesStubs loads HeapTrace := by
  refine tracesStubs_of_calls HeapTrace.steady (fun c _ hflatten hname => ?_) ?_
  · have hcalls : heapCalls [c] = (heapCall? c).toList := by
      rw [heapCalls, hflatten]
      rcases hc : heapCall? c with _ | call
      · rw [List.filterMap_cons_none hc]
        rfl
      · rw [List.filterMap_cons_some hc]
        rfl
    rw [HeapTrace, hcalls]
    exact heapRun_of_not_loads hname
  · intro c _ _ m t hstub htrace
    have hnone : heapCall? c = none := by rw [heapCall?, hstub]; rfl
    have hcalls : heapCalls [c] = heapCalls c.inner := by
      rw [heapCalls, flattenAll_singleton, List.filterMap_append, List.filterMap_cons_none hnone]
      exact List.append_nil _
    rw [HeapTrace, hcalls]
    exact htrace

/-- The calls of a program are a run of its heap. -/
theorem heapRun_program (config : Config) (source : ModuleSource ModuleObject) (sink : Sink)
    (libs : List (StubLibrary Function)) (main : String) (extra : List String) :
    let start : Machine Function := .initial config source sink
    HeapRun (.new config.heapBase) (heapCalls (engine.recordProgram loads libs main extra start))
      (engine.program libs main extra start).2.host.heap := by
  intro start
  obtain ⟨_, htrace⟩ := Engine.program_trace_of_reporting HeapTrace.steady HeapTrace.stubs
    (fun _ h => h) libs main extra start
  exact htrace

end

/-! ## Safety -/

/-- What holds of calls one after the other, and of the heap after them. -/
structure HeapSafety (base : UInt32) (calls : List (HeapCall ι)) (final : Heap) : Prop where
  placed : ∀ c ∈ calls, ∀ b, c.granted? = some b →
    b.start.toNat % 8 = 0 ∧ base.toNat ≤ b.start.toNat ∧ 0 < b.size
      ∧ ∃ addr contents, c.before.activeMemory = .ok (addr, contents) ∧ b.stop ≤ contents.size
  /-- Memory is never used twice, whether a block has been released or not. -/
  disjoint : (calls.filterMap HeapCall.granted?).Pairwise Block.Disjoint
  /-- The size of a block is recorded until a call releases its address. That may be the call that
      hands it out: a `realloc` of the very address that it then gives back. -/
  recorded (earlier : List (HeapCall ι)) (c : HeapCall ι) (between : List (HeapCall ι)) (b : Block)
    (hcalls : calls = earlier ++ c :: between) (hb : c.granted? = some b)
    (hkept : ∀ d ∈ c :: between, d.released? ≠ some b.start) :
    (final.sizeOf? b.start).map UInt32.toNat = some b.size
  forgotten (earlier : List (HeapCall ι)) (c : HeapCall ι) (between : List (HeapCall ι)) (b : Block)
    (hcalls : calls = earlier ++ c :: between) (hb : c.granted? = some b)
    (hreleased : ∃ d ∈ c :: between, d.released? = some b.start) : final.sizeOf? b.start = none
  refused : ∀ c ∈ calls, c.IsRequest → c.reply = .ok (.i32 c.refusal) →
    c.after.host.heap = c.before.host.heap
  base_le : base.toNat ≤ final.next.toNat
  used : final.used.toNat = final.next.toNat - base.toNat

theorem HeapCall.placed {base : UInt32} {c : HeapCall ι} {b : Block} (hfits : c.event.Fits base)
    (hb : c.granted? = some b) :
    b.start.toNat % 8 = 0 ∧ base.toNat ≤ b.start.toNat ∧ 0 < b.size
      ∧ ∃ addr contents, c.before.activeMemory = .ok (addr, contents)
        ∧ b.stop ≤ contents.size := by
  obtain ⟨haligned, habove, hnonempty, hinside⟩ := hfits b hb
  have hinside : b.stop ≤ c.before.limit := hinside
  have hlimit : 0 < c.before.limit := by
    rw [Block.stop] at hinside
    omega
  obtain ⟨addr, contents, hactive, hsize⟩ := Machine.activeMemory_of_lt_limit hlimit
  exact ⟨haligned, habove, hnonempty, addr, contents, hactive, hsize ▸ hinside⟩

namespace HeapRun

variable {base : UInt32} {final : Heap} {earlier between : List (HeapCall ι)} {c : HeapCall ι}

theorem holds (hbase : base ≠ 0) {calls : List (HeapCall ι)}
    (hrun : HeapRun (.new base) calls final) :
    final.Holds base (calls.filterMap HeapCall.granted?) ∧ ∀ c ∈ calls, c.event.Fits base := by
  have hnext : 0 < (Heap.new base).next.toNat :=
    Nat.pos_of_ne_zero fun h => hbase (UInt32.toNat_inj.1 h)
  obtain ⟨hholds, hfits⟩ := (Heap.Holds.new base).run (hrun.events hnext)
  rw [List.nil_append, List.filterMap_map] at hholds
  exact ⟨hholds, fun c hc => hfits c.event (List.mem_map_of_mem hc)⟩

/-- What is known before and after a call of a run. -/
theorem split (hbase : base ≠ 0) (hrun : HeapRun (.new base) (earlier ++ c :: between) final) :
    0 < c.before.host.heap.next.toNat ∧ HeapRun c.after.host.heap between final := by
  obtain ⟨h₁, hearlier, hlater⟩ := hrun.of_append
  cases hlater with
  | cons hbefore hrest =>
      subst hbefore
      have hle := (hearlier.holds hbase).1.base_le
      have hpos : 0 < base.toNat := Nat.pos_of_ne_zero fun h => hbase (UInt32.toNat_inj.1 h)
      exact ⟨Nat.lt_of_lt_of_le hpos hle, hrest⟩

/-- The block of a call lies in the part of the heap that has been handed out, where no later event
    puts another one. -/
theorem of_granted (hbase : base ≠ 0)
    (hrun : HeapRun (.new base) (earlier ++ c :: between) final) {b : Block}
    (hb : c.granted? = some b) :
    (c.after.host.heap.sizeOf? b.start).map UInt32.toNat
        = (if c.released? = some b.start then none else some b.size)
      ∧ b.start.toNat < c.after.host.heap.next.toNat
      ∧ Heap.Run c.after.host.heap (between.map HeapCall.event) final := by
  obtain ⟨hbefore, hrest⟩ := hrun.split hbase
  have hstep := HeapCall.step hbefore
  have hfits : c.event.Fits base := (hrun.holds hbase).2 c (by simp)
  have hnonempty : 0 < b.size := (hfits b hb).2.2.1
  rw [hb] at hstep
  have hstop := hstep.stop_eq
  rw [Block.stop] at hstop
  have hlt : b.start.toNat < c.after.host.heap.next.toNat := by omega
  exact ⟨hstep.sizeOf?_start, hlt, hrest.events (Nat.lt_of_le_of_lt (Nat.zero_le _) hlt)⟩

theorem safety (hbase : base ≠ 0) {calls : List (HeapCall ι)}
    (hrun : HeapRun (.new base) calls final) : HeapSafety base calls final := by
  obtain ⟨hholds, hfits⟩ := hrun.holds hbase
  exact
    { placed := fun c hc b hb => HeapCall.placed (hfits c hc) hb
      disjoint := hholds.disjoint
      recorded := fun earlier c between b hcalls hb hkept => by
        subst hcalls
        obtain ⟨hstart, hlt, hrest⟩ := hrun.of_granted hbase hb
        obtain ⟨hself, hbetween⟩ := List.forall_mem_cons.1 hkept
        have hsame := (hrest.sizeOf?_eq hlt).1 (List.forall_mem_map.2 hbetween)
        rw [hsame, hstart, if_neg hself]
      forgotten := fun earlier c between b hcalls hb hreleased => by
        subst hcalls
        obtain ⟨hstart, hlt, hrest⟩ := hrun.of_granted hbase hb
        refine (hrest.sizeOf?_eq hlt).2 ?_
        obtain ⟨d, hd, hreleased⟩ := hreleased
        rcases List.mem_cons.1 hd with rfl | hd
        · rw [if_pos hreleased, Option.map_eq_none_iff] at hstart
          exact .inr hstart
        · exact .inl ⟨d.event, List.mem_map_of_mem hd, hreleased⟩
      refused := fun c hc hrequest hrefused => by
        obtain ⟨earlier, between, rfl⟩ := List.append_of_mem hc
        exact HeapCall.heap_of_refused (hrun.split hbase).1 hrequest hrefused
      base_le := hholds.base_le
      used := by
        rw [Heap.used, hholds.base_eq, UInt32.toNat_sub_of_le]
        exact hholds.base_le }

end HeapRun

/-- **The heap is safe** in every sequence of calls, and the calls of a program are such a
    sequence. -/
theorem heap_safety [Budget] {base : UInt32} (hbase : base ≠ 0) :
    (∀ (calls : List (HeapCall Function)) (final : Heap),
        HeapRun (.new base) calls final → HeapSafety base calls final)
      ∧ ∀ (config : Config) (source : ModuleSource ModuleObject) (sink : Sink)
          (libs : List (StubLibrary Function)) (main : String) (extra : List String),
          let start : Machine Function := .initial config source sink
          HeapRun (.new config.heapBase)
            (heapCalls (engine.recordProgram loads libs main extra start))
            (engine.program libs main extra start).2.host.heap :=
  ⟨fun _ _ hrun => hrun.safety hbase, heapRun_program⟩

/-- A call on behalf of a module without exports. -/
def sampleCall (func : WordFunction) (husesHeap : func.usesHeap = true) (words : List UInt32)
    (m : Machine Function) : HeapCall Function :=
  ⟨func, husesHeap, ⟨[], loadModule (engine.invoke 0)⟩, fun i => words.getD i 0, m⟩

/-- A block of ten bytes is moved to one of twenty. -/
theorem heap_safety_two :
    let first := sampleCall .malloc rfl [10] (.initial .default (.ofList []) .accepting)
    let second := sampleCall .realloc rfl [16384, 20] first.after
    first.granted?.map Block.start = some 16384 ∧ second.granted?.map Block.start = some 16400
      ∧ HeapSafety 16384 [first, second] second.after.host.heap := by
  intro first second
  have hrun : HeapRun (.new 16384) [first, second] second.after.host.heap :=
    .cons rfl (.cons rfl (.nil _))
  exact ⟨by decide +kernel, by decide +kernel, (heap_safety (by decide)).1 _ _ hrun⟩

/-- No block has been handed out at the address that is to be moved, but the new block gets it. It
    is not released by any later call, and yet its size is not recorded. -/
theorem realloc_forgets_new_block :
    let c := sampleCall .realloc rfl [16384, 16] (.initial .default (.ofList []) .accepting)
    HeapRun (.new 16384) [c] c.after.host.heap
      ∧ c.granted?.map (fun b => (b.start, b.size)) = some (16384, 16)
      ∧ c.after.host.heap.sizeOf? 16384 = none := by
  intro c
  exact ⟨.cons rfl (.nil _), by decide +kernel, by decide +kernel⟩

end WasmHost.Libc
