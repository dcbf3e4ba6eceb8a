import WasmHost.Proofs.Libc.Allocation

set_option autoImplicit false

/-! # Calls as steps of the heap

A call of a function that works on the heap hands out a block, or releases an address, or both, or
neither. What it hands out and releases is read off the call and its reply (`HeapCall.granted?`,
`HeapCall.released?`), and `HeapCall.step` says that the heap agrees. -/

namespace WasmHost.Libc

open WasmHost.Action

variable {ι : Type}

/-! ## Calls -/

/-- A call of a function that works on the heap. -/
structure HeapCall (ι : Type) where
  func : WordFunction
  usesHeap : func.usesHeap = true
  caller : Caller ι
  words : Nat → UInt32
  /-- The machine at the time of the call. -/
  before : Machine ι

namespace HeapCall

/-- What the call gives back. -/
def reply (c : HeapCall ι) : Except Failure Reply := (c.func.call c.caller c.words c.before).1

/-- The machine after the call. -/
def after (c : HeapCall ι) : Machine ι := (c.func.call c.caller c.words c.before).2

/-- The reply that means that a request is refused. -/
def refusal (c : HeapCall ι) : UInt32 := if c.func = .mmap then 0xffffffff else 0

/-- The number of bytes that a call asks for. -/
def size (c : HeapCall ι) : Nat :=
  match c.func with
  | .malloc => (c.words 0).toNat
  | .calloc => (c.words 0).toNat * (c.words 1).toNat
  | .realloc | .mmap => (c.words 1).toNat
  | .strdup =>
      match c.before.stringAt (c.words 0) with
      | .ok s => s.length + 1
      | .error _ => 0
  | .dlerror =>
      match c.before.host.libraries.pendingError with
      | some message => message.toUTF8.data.toList.length + 1
      | none => 0
  | _ => 0

/-- The address that a call gives back without asking for space. -/
def frees? (c : HeapCall ι) : Option UInt32 :=
  match c.func with
  | .free => if c.words 0 = 0 then none else some (c.words 0)
  | .realloc =>
      if c.words 0 ≠ 0 ∧ c.words 1 = 0 ∧ c.before.activeMemory.isOk then some (c.words 0) else none
  | _ => none

/-- The address that a call gives back if it gets space in place of it. -/
def old? (c : HeapCall ι) : Option UInt32 :=
  match c.func with
  | .realloc => if c.words 0 = 0 then none else some (c.words 0)
  | _ => none

/-- Whether a call asks for space. -/
def IsRequest (c : HeapCall ι) : Prop := c.func ≠ .free ∧ c.frees? = none

/-- The block that a call hands out. -/
def granted? (c : HeapCall ι) : Option Block :=
  match c.reply with
  | .ok (.i32 ptr) => if ptr = c.refusal then none else some ⟨ptr, c.size⟩
  | _ => none

/-- The address that a call releases. -/
def released? (c : HeapCall ι) : Option UInt32 :=
  c.frees?.or (if c.granted?.isSome then c.old? else none)

/-- What the call means to the heap. -/
def event (c : HeapCall ι) : Heap.Event := ⟨c.before.limit, c.granted?, c.released?⟩

end HeapCall

/-! ## One call -/

theorem mmap_requests (addr length prot fd : UInt32) (m : Machine ι) :
    Requests length.toNat none 0xffffffff (mmap addr length prot fd) m := by
  have hfailed (what : String) :
      Requests length.toNat none 0xffffffff (notImplemented what : Action ι Failure UInt32) m :=
    ⟨.error _, .failed _, rfl⟩
  unfold mmap
  split
  · exact hfailed _
  split
  · exact hfailed _
  split
  · exact hfailed _
  · exact (mapAnonymous_requests length m).mapError Failure.ofMemoryError

/-- Unless it only gives back, `realloc` asks for space, in place of a block if it is given one. -/
theorem realloc_requests_of_not_frees {addr size : UInt32} {m : Machine ι}
    (h : ¬ (addr ≠ 0 ∧ size = 0 ∧ m.activeMemory.isOk)) :
    Requests size.toNat (if addr = 0 then none else some addr) 0 (realloc addr size) m := by
  by_cases haddr : addr = 0
  · rw [if_pos haddr]
    unfold realloc
    rw [if_pos haddr]
    exact malloc_requests size m
  · rw [if_neg haddr]
    rcases hactive : m.activeMemory with err | active
    · unfold realloc
      rw [if_neg haddr, Requests, bind_apply_of_error (requireMemory_of_error hactive)]
      exact ⟨.error err, .failed err, rfl⟩
    · refine realloc_requests haddr (fun hsize => h ⟨haddr, hsize, ?_⟩) hactive
      rw [hactive]
      rfl

/-- A request may be replied by a word. -/
theorem taken_of_requests {size : Nat} {old? : Option UInt32} {refusal : UInt32}
    {x : Action ι Failure UInt32} {m : Machine ι} (hx : Requests size old? refusal x m) :
    ∃ result : Except Failure (Option UInt32),
      Taken size m.limit old? m.host.heap result
          ((do return Reply.i32 (← x) : Action ι Failure Reply) m).2.host.heap
        ∧ ((do return Reply.i32 (← x) : Action ι Failure Reply) m).1
          = result.map fun ptr => .i32 (ptr.getD refusal) := by
  obtain ⟨result, htaken, hresult⟩ := hx
  refine ⟨result, ?_, ?_⟩ <;> rw [bind_pure_apply]
  · exact htaken
  · rw [hresult]
    rcases result with err | ptr <;> rfl

namespace HeapCall

/-- A call that asks for space is a request that is replied by a word. -/
theorem taken {c : HeapCall ι} (hnext : 0 < c.before.host.heap.next.toNat) (hc : c.IsRequest) :
    ∃ result : Except Failure (Option UInt32),
      Taken c.size c.before.limit c.old? c.before.host.heap result c.after.host.heap
        ∧ c.reply = result.map fun ptr => .i32 (ptr.getD c.refusal) := by
  obtain ⟨func, husesHeap, caller, words, m⟩ := c
  obtain ⟨hfree, hfrees⟩ := hc
  cases func with
  | malloc => exact taken_of_requests ((malloc_requests (words 0) m).mapError _)
  | calloc => exact taken_of_requests ((calloc_requests (words 0) (words 1) m).mapError _)
  | strdup => exact taken_of_requests (strdup_requests hnext (words 0)).orPanic
  | mmap => exact taken_of_requests (mmap_requests (words 0) (words 1) (words 2) (words 4) m)
  | dlerror => exact taken_of_requests (dlerror_requests hnext)
  | free => exact absurd rfl hfree
  | realloc =>
      have hkept : ¬ (words 0 ≠ 0 ∧ words 1 = 0 ∧ m.activeMemory.isOk) := fun h => by
        cases hfrees.symm.trans (if_pos h)
      exact taken_of_requests ((realloc_requests_of_not_frees hkept).mapError _)
  | _ => cases husesHeap

/-- An address that is handed out is never the reply that means a refusal. -/
theorem ne_refusal {c : HeapCall ι} (hnext : 0 < c.before.host.heap.next.toNat) {word ptr : UInt32}
    {h' : Heap} (halloc : c.before.host.heap.alloc word c.before.limit = some (ptr, h')) :
    ptr ≠ c.refusal := by
  have ha := Heap.allocated halloc
  have haligned : ptr.toNat % 8 = 0 := ha.aligned
  have habove := ha.above
  unfold refusal
  split <;> rintro rfl
  · exact absurd haligned (by decide)
  · exact absurd (Nat.lt_of_lt_of_le hnext habove) (by decide)

theorem step_of_isRequest {c : HeapCall ι} (hnext : 0 < c.before.host.heap.next.toNat)
    (hc : c.IsRequest) :
    Heap.Step c.before.limit c.before.host.heap c.granted? c.released? c.after.host.heap := by
  obtain ⟨result, htaken, hreply⟩ := taken hnext hc
  have hnone (hgranted : c.granted? = none) : c.released? = none := by
    rw [released?, hc.2, hgranted]
    rfl
  generalize c.after.host.heap = h' at htaken
  cases htaken with
  | refused =>
      have hgranted : c.granted? = none := by
        rw [granted?, hreply]
        exact if_pos rfl
      rw [hgranted, hnone hgranted]
      exact .kept
  | failed err =>
      have hgranted : c.granted? = none := by
        rw [granted?, hreply]
        rfl
      rw [hgranted, hnone hgranted]
      exact .kept
  | lost err halloc =>
      have hgranted : c.granted? = none := by
        rw [granted?, hreply]
        rfl
      rw [hgranted, hnone hgranted]
      exact .lost halloc
  | @granted word ptr h' hword halloc =>
      have hgranted : c.granted? = some ⟨ptr, word.toNat⟩ := by
        rw [granted?, hreply, hword]
        exact if_neg (ne_refusal hnext halloc)
      have hreleased : c.released? = c.old? := by
        rw [released?, hc.2, hgranted]
        rfl
      rw [hgranted, hreleased]
      rcases c.old? with _ | old
      · exact .granted halloc
      · exact .moved halloc old

theorem step_of_frees {c : HeapCall ι} (ptr : UInt32) (hfrees : c.frees? = some ptr)
    (hgranted : c.granted? = none)
    (hafter : c.after.host.heap = c.before.host.heap.free ptr) :
    Heap.Step c.before.limit c.before.host.heap c.granted? c.released? c.after.host.heap := by
  rw [released?, hfrees, hgranted, hafter]
  exact .freed ptr

/-- A call that only gives back releases what it is given, unless that is no address. -/
theorem step_of_not_isRequest {c : HeapCall ι} (hc : ¬ c.IsRequest) :
    Heap.Step c.before.limit c.before.host.heap c.granted? c.released? c.after.host.heap := by
  obtain ⟨func, husesHeap, caller, words, m⟩ := c
  by_cases hfree : func = .free
  · subst hfree
    by_cases hptr : words 0 = 0
    · have hrun : WordFunction.free.call caller words m = (.ok .void, m) := by
        unfold WordFunction.call
        rw [if_neg (not_not_intro hptr)]
        rfl
      have hgranted : granted? ⟨.free, husesHeap, caller, words, m⟩ = none := by
        rw [granted?, reply, hrun]
      rw [released?, hgranted, frees?, if_pos hptr, after, hrun]
      exact .kept
    · have hrun : WordFunction.free.call caller words m
          = (.ok .void,
              { m with host := { m.host with heap := m.host.heap.free (words 0) } }) := by
        unfold WordFunction.call
        rw [if_pos hptr]
        rfl
      refine step_of_frees (words 0) (if_neg hptr) ?_ ?_
      · rw [granted?, reply, hrun]
      · rw [after, hrun]
  · have hfrees : frees? ⟨func, husesHeap, caller, words, m⟩ ≠ none := fun h => hc ⟨hfree, h⟩
    cases func with
    | realloc =>
        by_cases h : words 0 ≠ 0 ∧ words 1 = 0 ∧ m.activeMemory.isOk
        · obtain ⟨active, hactive⟩ : ∃ active, m.activeMemory = .ok active := by
            rcases hactive : m.activeMemory with err | active
            · rw [hactive] at h
              cases h.2.2
            · exact ⟨active, rfl⟩
          have hrun : WordFunction.realloc.call caller words m
              = (.ok (.i32 0),
                  { m with host := { m.host with heap := m.host.heap.free (words 0) } }) := by
            refine (replyWord_apply _ m).trans ?_
            unfold realloc
            rw [if_neg h.1, if_pos h.2.1, bind_apply_of_ok (requireMemory_of_active hactive)]
            rfl
          refine step_of_frees (words 0) (if_pos h) ?_ ?_
          · rw [granted?, reply, hrun]
            rfl
          · rw [after, hrun]
        · exact absurd (if_neg h) hfrees
    | free => exact absurd rfl hfree
    | _ => exact absurd rfl hfrees

/-- **A call is one step of the heap:** it is handed the block that it replies, and releases the
    address that it was given. -/
theorem step {c : HeapCall ι} (hnext : 0 < c.before.host.heap.next.toNat) :
    Heap.Step c.before.limit c.before.host.heap c.granted? c.released? c.after.host.heap := by
  by_cases hc : c.IsRequest
  · exact step_of_isRequest hnext hc
  · exact step_of_not_isRequest hc

/-- A request that is refused leaves the heap as it was. -/
theorem heap_of_refused {c : HeapCall ι} (hnext : 0 < c.before.host.heap.next.toNat)
    (hc : c.IsRequest) (hrefused : c.reply = .ok (.i32 c.refusal)) :
    c.after.host.heap = c.before.host.heap := by
  obtain ⟨result, htaken, hreply⟩ := taken hnext hc
  rw [hreply] at hrefused
  generalize c.after.host.heap = h' at htaken
  cases htaken with
  | refused => rfl
  | failed | lost => cases hrefused
  | granted hword halloc =>
      have hptr := Reply.i32.inj (Except.ok.inj hrefused)
      exact absurd hptr (ne_refusal hnext halloc)

end HeapCall

end WasmHost.Libc
