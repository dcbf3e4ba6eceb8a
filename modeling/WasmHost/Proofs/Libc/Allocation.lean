import WasmHost.Proofs.Heap.Blocks
import WasmHost.Proofs.Libc.Calls

set_option autoImplicit false

/-! # Calls that work on the heap

Seven functions of the library share the heap. Six of them ask for space: a request is refused, or
gets a block, or fails (`Taken`). `realloc` also gives back the block that it replaces, and `free`
only gives back. `HeapCall.step` says the same of all of them: a call is one step of the heap, in
which it is handed the block that it replies and releases the address that it was given. -/

namespace WasmHost

open WasmHost.Action

variable {ι ε ε' : Type}

/-- The number of bytes of the active memory, zero if there is none. -/
def Machine.limit (m : Machine ι) : Nat :=
  match m.activeMemory with
  | .ok (_, contents) => contents.size
  | .error _ => 0

theorem Machine.activeMemory_of_lt_limit {m : Machine ι} {n : Nat} (h : n < m.limit) :
    ∃ addr contents, m.activeMemory = .ok (addr, contents) ∧ m.limit = contents.size := by
  unfold limit at h ⊢
  rcases hactive : m.activeMemory with err | ⟨addr, contents⟩ <;> rw [hactive] at h
  · exact absurd h (Nat.not_lt_zero n)
  · exact ⟨addr, contents, rfl, rfl⟩

/-- The heap after an address has been released, if there is one. -/
def Heap.release (h : Heap) : Option UInt32 → Heap
  | some ptr => h.free ptr
  | none => h

/-! ## Requests -/

/-- What can become of a request for `size` bytes in place of the block at `old?`, and of the heap:
    the request is refused, or fails, or gets a block. A block that the request gets before it fails
    is lost. -/
inductive Taken (size limit : Nat) (old? : Option UInt32) (h : Heap) :
    Except ε (Option UInt32) → Heap → Prop where
  | refused : Taken size limit old? h (.ok none) h
  | failed (err : ε) : Taken size limit old? h (.error err) h
  | granted {word ptr : UInt32} {h' : Heap} (hword : word.toNat = size)
      (halloc : h.alloc word limit = some (ptr, h')) :
      Taken size limit old? h (.ok (some ptr)) (h'.release old?)
  | lost (err : ε) {word ptr : UInt32} {h' : Heap} (halloc : h.alloc word limit = some (ptr, h')) :
      Taken size limit old? h (.error err) h'

theorem Taken.mapError {size limit : Nat} {old? : Option UInt32} {h h' : Heap}
    {result : Except ε (Option UInt32)} (f : ε → ε') (htaken : Taken size limit old? h result h') :
    Taken size limit old? h (result.mapError f) h' := by
  cases htaken with
  | refused => exact .refused
  | failed err => exact .failed (f err)
  | granted hword halloc => exact .granted hword halloc
  | lost err halloc => exact .lost (f err) halloc

/-- A request whose reply is a word: the address of the block, or else `refusal`. -/
def Action.Requests (size : Nat) (old? : Option UInt32) (refusal : UInt32) (x : Action ι ε UInt32)
    (m : Machine ι) : Prop :=
  ∃ result, Taken size m.limit old? m.host.heap result (x m).2.host.heap
    ∧ (x m).1 = result.map (·.getD refusal)

theorem Action.Requests.mapError {size : Nat} {old? : Option UInt32} {refusal : UInt32}
    {x : Action ι ε UInt32} {m : Machine ι} (f : ε → ε') (hx : Requests size old? refusal x m) :
    Requests size old? refusal (x.mapError f) m := by
  obtain ⟨result, htaken, hresult⟩ := hx
  refine ⟨result.mapError f, htaken.mapError f, ?_⟩
  rw [mapError_apply, hresult]
  rcases result with err | block <;> rfl

/-- A panic does not matter to the heap. -/
theorem Action.Requests.orPanic {size : Nat} {old? : Option UInt32} {refusal : UInt32}
    {x : Action ι WordFault UInt32} {m : Machine ι} (hx : Requests size old? refusal x m) :
    Requests size old? refusal x.orPanic m := by
  obtain ⟨result, htaken, hresult⟩ := hx
  refine ⟨result.mapError .ofWordFault, ?_, ?_⟩ <;> rw [orPanic_apply]
  · rw [Machine.panicIf_host]
    exact htaken.mapError _
  · rw [hresult]
    rcases result with err | block <;> rfl

/-- Take a block and do something with it. -/
def Action.allocateWith? (word : UInt32) (fill : UInt32 → Action ι MemoryError Unit) :
    Action ι MemoryError (Option UInt32) := do
  match ← allocate? word with
  | none => return none
  | some ptr =>
      fill ptr
      return some ptr

/-- What is done with the block does not matter to the heap; the request has the size of the block
    if that succeeds. -/
theorem Action.allocateWith?_taken {word : UInt32} {size : Nat}
    {fill : UInt32 → Action ι MemoryError Unit} {m : Machine ι}
    (hfill : ∀ ptr, Keeps Machine.Spares (fill ptr))
    (hsize : ∀ ptr m', m.host.heap.next.toNat ≤ ptr.toNat → (fill ptr m').1 = .ok () →
      word.toNat = size) :
    Taken size m.limit none m.host.heap (allocateWith? word fill m).1
      (allocateWith? word fill m).2.host.heap := by
  unfold allocateWith? allocate? Machine.limit
  rw [bind_apply]
  rcases m.activeMemory with err | ⟨addr, contents⟩
  · exact .failed err
  dsimp only
  rcases halloc : m.host.heap.alloc word contents.size with _ | ⟨ptr, h'⟩
  · exact .refused
  dsimp only
  have hheap := (hfill ptr { m with host := { m.host with heap := h' } }).heap
  have habove := (Heap.allocated halloc).above
  rw [bind_apply]
  rcases hresult : fill ptr { m with host := { m.host with heap := h' } } with ⟨err | _, m'⟩ <;>
    rw [hresult] at hheap <;> dsimp only at hheap ⊢
  · rw [hheap]
    exact .lost err halloc
  · show Taken size contents.size none m.host.heap (.ok (some ptr)) m'.host.heap
    rw [hheap]
    exact .granted (hsize ptr _ habove (congrArg Prod.fst hresult)) halloc

theorem Action.Requests.of_eq {size : Nat} {old? : Option UInt32} {refusal : UInt32}
    {x y : Action ι ε UInt32} {m : Machine ι} (h : x m = y m)
    (hy : Requests size old? refusal y m) : Requests size old? refusal x m := by
  rwa [Requests, h]

theorem Action.Requests.of_taken {size : Nat} {old? : Option UInt32} {refusal : UInt32}
    {x : Action ι ε (Option UInt32)} {m : Machine ι}
    (htaken : Taken size m.limit old? m.host.heap (x m).1 (x m).2.host.heap) :
    Requests size old? refusal (do return (← x).getD refusal) m := by
  refine ⟨(x m).1, ?_, ?_⟩ <;> rw [bind_pure_apply]
  exact htaken

namespace Libc

/-! ## The functions -/

theorem malloc_requests (size : UInt32) (m : Machine ι) :
    Requests size.toNat none 0 (malloc size) m := by
  refine .of_taken ?_
  unfold allocate? Machine.limit
  rcases m.activeMemory with err | ⟨addr, contents⟩
  · exact .failed err
  dsimp only
  rcases halloc : m.host.heap.alloc size contents.size with _ | ⟨ptr, h'⟩
  · exact .refused
  · exact .granted rfl halloc

theorem allocateZeroed?_taken (size : UInt32) (m : Machine ι) :
    Taken size.toNat m.limit none m.host.heap (allocateZeroed? size m).1
      (allocateZeroed? size m).2.host.heap :=
  allocateWith?_taken (fun _ => onMemory_spares _) fun _ _ _ _ => rfl

theorem calloc_requests (count size : UInt32) (m : Machine ι) :
    Requests (count.toNat * size.toNat) none 0 (calloc count size) m := by
  unfold calloc
  split
  · rename_i hfits
    have htaken := allocateZeroed?_taken (count * size) m
    rw [UInt32.toNat_mul, Nat.mod_eq_of_lt hfits] at htaken
    exact .of_taken htaken
  · exact ⟨.ok none, .refused, rfl⟩

theorem mapAnonymous_requests (length : UInt32) (m : Machine ι) :
    Requests length.toNat none 0xffffffff (mapAnonymous length) m :=
  .of_taken (allocateZeroed?_taken length m)

/-- A string that is written in full ends below the last address. -/
theorem lt_of_writeString {ptr : UInt32} {s : List UInt8} {m : Machine ι}
    (h : (onMemory (.writeString ptr s) m).1 = .ok ()) : ptr.toNat + s.length < UInt32.size := by
  unfold onMemory onContents MemoryAction.writeString LinearMemory.writeString at h
  rcases hactive : m.activeMemory with err | ⟨addr, contents⟩ <;> rw [hactive] at h
  · cases h
  rcases hwrite : contents.write ptr s with err | contents' <;> simp only [hwrite] at h
  · cases h
  by_cases hlt : ptr.toNat + s.length < UInt32.size
  · exact hlt
  · rw [if_neg hlt] at h
    cases h

/-- A string is written into a block that is taken for it. -/
theorem storeString_eq (size : UInt32) (s : List UInt8) (m : Machine ι) :
    storeString size s m = (do
      return (← allocateWith? size fun ptr =>
        onMemory (.writeString ptr s)).getD 0 : Action ι MemoryError UInt32) m := by
  unfold storeString allocateWith?
  rw [bind_pure_apply, bind_apply, bind_apply]
  rcases allocate? size m with ⟨err | _ | ptr, m'⟩
  · rfl
  · rfl
  · dsimp only
    rw [bind_apply, bind_apply]
    rcases onMemory (.writeString ptr s) m' with ⟨err | _, m''⟩ <;> rfl

/-- The size is exact for a string that the block holds. -/
theorem allocateString_requests {m : Machine ι} (hnext : 0 < m.host.heap.next.toNat)
    (s : List UInt8) : Requests (s.length + 1) none 0 (allocateString s) m := by
  rcases hactive : m.activeMemory with err | active
  · rw [Requests, allocateString_of_error hactive]
    exact ⟨.error (.memory err), .failed _, rfl⟩
  rw [Requests, allocateString_of_active hactive]
  rcases hadd : WordFault.add s.length.toUInt32 1 with fault | size
  · exact ⟨.error fault, .failed _, rfl⟩
  have hsize (ptr : UInt32) (m' : Machine ι) (hptr : m.host.heap.next.toNat ≤ ptr.toNat)
      (hwrite : (onMemory (.writeString ptr s) m').1 = .ok ()) : size.toNat = s.length + 1 := by
    have hlt := lt_of_writeString hwrite
    rw [WordFault.toNat_of_add hadd, UInt32.toNat_ofNat_of_lt' (by omega)]
    rfl
  have htaken := allocateWith?_taken (m := m) (fun ptr => onMemory_spares (.writeString ptr s)) hsize
  have hstored : Requests (s.length + 1) none 0 (storeString size s) m :=
    .of_eq (storeString_eq size s m) (.of_taken htaken)
  exact hstored.mapError WordFault.memory

theorem strdup_requests {m : Machine ι} (hnext : 0 < m.host.heap.next.toNat) (ptr : UInt32) :
    Requests (match m.stringAt ptr with | .ok s => s.length + 1 | .error _ => 0) none 0
      (strdup ptr) m := by
  have hlook : (WordFault.lift (look (·.string ptr)) : Action ι WordFault (List UInt8)) m
      = ((m.stringAt ptr).mapError .memory, m) := rfl
  rw [Requests, strdup, bind_apply, hlook]
  rcases m.stringAt ptr with err | s
  · exact ⟨.error (.memory err), .failed _, rfl⟩
  · exact allocateString_requests hnext s

theorem dlerror_requests {m : Machine ι} (hnext : 0 < m.host.heap.next.toNat) :
    Requests (match m.host.libraries.pendingError with
        | some message => message.toUTF8.data.toList.length + 1
        | none => 0) none 0 dlerror m := by
  let m' : Machine ι :=
    { m with host := { m.host with libraries := m.host.libraries.takeError.2 } }
  have htake : (takeError : Action ι Failure (Option String)) m
      = (.ok m.host.libraries.pendingError, m') := rfl
  rw [Requests, dlerror, bind_apply_of_ok htake]
  rcases m.host.libraries.pendingError with _ | message
  · exact ⟨.ok none, .refused, rfl⟩
  · have hrequest := allocateString_requests (m := m') hnext message.toUTF8.data.toList
    exact hrequest.orPanic

/-- An old block that is released in the end is released just if there is a new one. -/
theorem requests_of_freeing {size : Nat} {ptr : UInt32}
    {x : Action ι MemoryError (Option UInt32)} {m : Machine ι}
    (htaken : Taken size m.limit none m.host.heap (x m).1 (x m).2.host.heap) :
    Requests size (some ptr) 0
      (do
        match ← x with
        | none => return 0
        | some block =>
            free ptr
            return block) m := by
  rw [Requests, bind_apply]
  rcases hrun : x m with ⟨err | _ | block, m'⟩ <;> rw [hrun] at htaken <;> dsimp only at htaken ⊢
  all_goals generalize hheap : m'.host.heap = h' at htaken ⊢
  · refine ⟨.error err, ?_, rfl⟩
    cases htaken with
    | failed => exact .failed err
    | lost _ halloc => exact .lost err halloc
  · refine ⟨.ok none, ?_, rfl⟩
    show Taken _ _ _ _ _ m'.host.heap
    rw [hheap]
    cases htaken with
    | refused => exact .refused
  · refine ⟨.ok (some block), ?_, rfl⟩
    show Taken _ _ _ _ _ (m'.host.heap.free ptr)
    rw [hheap]
    cases htaken with
    | granted hword halloc => exact .granted hword halloc

/-- The old block is released once its bytes have been copied. -/
theorem realloc_requests {ptr size : UInt32} (hptr : ptr ≠ 0) (hsize : size ≠ 0) {m : Machine ι}
    {active : Nat × LinearMemory} (hactive : m.activeMemory = .ok active) :
    Requests size.toNat (some ptr) 0 (realloc ptr size) m := by
  have hcopy (copy : UInt32 → Action ι MemoryError Unit)
      (hspares : ∀ block, Keeps Machine.Spares (copy block)) :
      Requests size.toNat (some ptr) 0
        (do
          match ← allocate? size with
          | none => return 0
          | some block =>
              copy block
              free ptr
              return block) m := by
    refine .of_eq ?_ (requests_of_freeing (allocateWith?_taken hspares fun _ _ _ _ => rfl))
    unfold allocateWith?
    rw [bind_apply, bind_apply, bind_apply]
    rcases allocate? size m with ⟨err | _ | block, m'⟩
    · rfl
    · rfl
    · dsimp only
      rw [bind_apply, bind_apply]
      rcases copy block m' with ⟨err | _, m''⟩ <;> rfl
  unfold realloc
  rw [if_neg hptr, if_neg hsize, Requests, bind_apply_of_ok (requireMemory_of_active hactive),
    bind_apply_of_ok (getHost_apply m)]
  exact hcopy _ fun _ => onMemory_spares _

end Libc

end WasmHost
