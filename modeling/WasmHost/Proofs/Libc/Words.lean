import Mathlib.Data.Nat.ModEq
import WasmHost.Proofs.Libc.MemoryCalls
import WasmHost.Proofs.Linking.BoundStubs

set_option autoImplicit false

/-! # Arguments that make no difference

Outside `math.h` and `llabs` a function of the library sees its arguments only as 32-bit words, and
only some of them (`WordFunction.reads`). So it makes no difference in what width a module declares
an integer parameter, whether it leaves out zeros at the end, and what it passes beyond the
arguments that the function looks at.

The main result is `Libc.calls_same`, for all entries of the tables. -/

namespace WasmHost

open WasmHost.Action

variable {ι : Type}

/-! ## Words of values -/

/-- The word that a function sees of an argument. -/
def Value.word (v : Value) : UInt32 := Args.word [v] 0

/-- The integer that a value stands for, without a sign. -/
def Value.integer? : Value → Option Nat
  | .i32 v => some v.toNat
  | .i64 v => some v.toNat
  | _ => none

theorem Value.word_of_integer {v : Value} {n : Nat} (h : v.integer? = some n) :
    v.word = UInt32.ofNat n := by
  cases v with
  | i32 v => cases h; exact UInt32.ofNat_toNat.symm
  | i64 v => cases h; exact UInt32.toNat_inj.1 (by rw [UInt32.toNat_ofNat']; rfl)
  | f32 | f64 | v128 | nullFunc | nullExtern => cases h

/-- Two arguments for one parameter: the same value, or integers of any width that are equal modulo
    2³². -/
inductive Value.Interchangeable : Value → Value → Prop where
  | same (v : Value) : Interchangeable v v
  | integers {v v' : Value} {n n' : Nat} (hv : v.integer? = some n) (hv' : v'.integer? = some n')
      (h : n ≡ n' [MOD 2 ^ 32]) : Interchangeable v v'

theorem Value.Interchangeable.word_eq {v v' : Value} (h : v.Interchangeable v') :
    v.word = v'.word := by
  cases h with
  | same => rfl
  | integers hv hv' h =>
      rw [word_of_integer hv, word_of_integer hv']
      exact UInt32.toNat_inj.1 (by rw [UInt32.toNat_ofNat', UInt32.toNat_ofNat']; exact h)

namespace Args

variable {args args' : List Value}

/-- An argument is seen as its word, and one that is missing as zero. -/
theorem word_eq (args : List Value) (i : Nat) :
    word args i = (args[i]?.map Value.word).getD 0 := by
  rw [word, long]
  rcases args[i]? with _ | v
  · rfl
  · cases v <;> rfl

theorem word_append_left {i : Nat} (h : i < args.length) (extra : List Value) :
    word (args ++ extra) i = word args i := by
  rw [word_eq, word_eq, List.getElem?_append_left h]

theorem word_of_interchangeable (h : List.Forall₂ Value.Interchangeable args args') (i : Nat) :
    word args i = word args' i := by
  rw [word_eq, word_eq]
  induction h generalizing i with
  | nil => rfl
  | cons hv _ ih =>
      cases i with
      | zero => exact hv.word_eq
      | succ i => exact ih i

/-- Words that are zero may be left out at the end. -/
theorem word_append_zeros {zeros : List Value} (h : ∀ v ∈ zeros, v.word = 0) (i : Nat) :
    word (args ++ zeros) i = word args i := by
  rcases Nat.lt_or_ge i args.length with hi | hi
  · exact word_append_left hi zeros
  · rw [word_eq, word_eq, List.getElem?_append_right hi, List.getElem?_eq_none hi]
    rcases hv : zeros[i - args.length]? with _ | v
    · rfl
    · exact h v (List.mem_of_getElem? hv)

end Args

namespace Libc

/-! ## What functions look at -/

section

variable {words words' : Nat → UInt32}

/-- The arguments that a question looks at. -/
def MemoryQuery.reads : MemoryQuery → List Nat
  | .strlen => [0]
  | .strcmp | .strchr | .strrchr => [0, 1]
  | .memcmp | .memchr | .strncmp => [0, 1, 2]

/-- The arguments that a change looks at. -/
def MemoryEdit.reads : MemoryEdit → List Nat
  | .strcpy | .strcat => [0, 1]
  | .memcpy | .mempcpy | .memset | .strncpy => [0, 1, 2]

/-- The arguments that a function looks at. -/
def WordFunction.reads : WordFunction → List Nat
  | .query q => q.reads
  | .edit e => e.reads
  | .abort | .openFile | .dlerror | .constant _ => []
  | .charClass _ | .tolower | .toupper | .malloc | .free | .strdup | .abs | .atoi | .exit _
  | .putchar | .puts | .closeFile | .dlclose => [0]
  | .calloc | .realloc | .dlopen | .dlsym => [0, 1]
  | .mmap => [0, 1, 2, 4]

theorem MemoryQuery.answer_congr (q : MemoryQuery) (h : ∀ i ∈ q.reads, words i = words' i) :
    q.answer words = q.answer words' := by
  funext m
  cases q with
  | strlen => rw [answer, answer, h 0 (by decide)]
  | strcmp | strchr | strrchr => rw [answer, answer, h 0 (by decide), h 1 (by decide)]
  | memcmp | memchr | strncmp =>
      rw [answer, answer, h 0 (by decide), h 1 (by decide), h 2 (by decide)]

theorem MemoryEdit.perform_congr (e : MemoryEdit) (h : ∀ i ∈ e.reads, words i = words' i) :
    e.perform words = e.perform words' := by
  cases e with
  | strcpy | strcat => rw [perform, perform, h 0 (by decide), h 1 (by decide)]
  | memcpy | mempcpy | memset | strncpy =>
      rw [perform, perform, h 0 (by decide), h 1 (by decide), h 2 (by decide)]

/-- **A function depends on the words it looks at**, and on nothing else of its arguments. -/
theorem WordFunction.call_congr (f : WordFunction) (h : ∀ i ∈ f.reads, words i = words' i)
    (caller : Caller ι) : f.call caller words = f.call caller words' := by
  cases f with
  | query q => rw [call, call, q.answer_congr h]
  | edit e => rw [call, call, e.perform_congr h]
  | abort | openFile | dlerror | constant => rfl
  | charClass | tolower | toupper | malloc | free | strdup | abs | atoi | exit | putchar | puts
  | closeFile | dlclose =>
      rw [call, call, h 0 List.mem_cons_self]
  | calloc | realloc | dlopen | dlsym => rw [call, call, h 0 (by decide), h 1 (by decide)]
  | mmap =>
      rw [call, call, h 0 (by decide), h 1 (by decide), h 2 (by decide), h 4 (by decide)]

end

/-! ## Entries of the tables -/

/-- Whether a stub is a function of words, or has no implementation. -/
def takesWords : Stub Function → Bool
  | .implemented (.word _) | .placeholder => true
  | .implemented (.math _) | .implemented .llabs => false

theorem libraries_takeWords : ∀ lib ∈ libraries, lib.name ≠ "math" →
    ∀ entry ∈ lib.entries, entry.1 ≠ "llabs" → takesWords entry.2 = true := by
  decide +kernel

/-- The stub is a function of words that looks at argument `i`. -/
def LooksAt (i : Nat) : Stub Function → Prop
  | .implemented (.word f) => i ∈ f.reads
  | .implemented (.math _) | .implemented .llabs | .placeholder => False

/-- A stub does the same for two argument lists: it replies or fails in the same way and leaves the
    same machine, also through functions that it is bound to with different parameters, if these
    declare the same results. -/
structure SameCalls [Budget] (library name : String) (stub : Stub Function)
    (args args' : List Value) : Prop where
  replies (f : Function) (hstub : stub = .implemented f) (caller : Caller Function)
    (m : Machine Function) : engine.stubs f caller args m = engine.stubs f caller args' m
  bound {type type' : FuncType} (hresults : type.results = type'.results)
    {func func' : Func Function} (hbind : (Symbol.stub library name stub).bind type = .ok func)
    (hbind' : (Symbol.stub library name stub).bind type' = .ok func') (depth : Nat)
    (exports : List (String × Item Function)) (m : Machine Function) :
    engine.invoke depth exports func args m = engine.invoke depth exports func' args' m

theorem sameCalls_of_words [Budget] {library name : String} {stub : Stub Function}
    (hstub : takesWords stub = true) {args args' : List Value}
    (h : ∀ i, LooksAt i stub → Args.word args i = Args.word args' i) :
    SameCalls library name stub args args' := by
  have hreplies (f : Function) (hf : stub = .implemented f) (caller : Caller Function) :
      engine.stubs f caller args = engine.stubs f caller args' := by
    subst hf
    cases f with
    | word f => exact f.call_congr h caller
    | math | llabs => cases hstub
  refine ⟨fun f hf caller m => congrFun (hreplies f hf caller) m, ?_⟩
  intro type type' hresults func func' hbind hbind' depth exports m
  obtain ⟨rfl, -⟩ := Symbol.bind_stub_eq_ok hbind
  obtain ⟨rfl, -⟩ := Symbol.bind_stub_eq_ok hbind'
  -- without a free place on the call stack neither call gets to the stub
  cases depth with
  | zero => rfl
  | succ depth =>
      rw [Engine.invoke, Engine.invoke]
      cases stub with
      | placeholder => rfl
      | implemented f =>
          have hvalues : type.resultsOf = type'.resultsOf := by
            funext r
            rw [FuncType.resultsOf, FuncType.resultsOf, hresults]
          rw [Engine.callStub, Engine.callStub, hreplies f rfl, hvalues]

/-! ## Calls -/

/-- **Functions see words.** For every entry of the tables outside `math.h` and `llabs`, a call
    makes no difference between arguments of the same words. So integers of any width may stand for
    each other if they are equal modulo 2³², zeros at the end may be left out, and what is passed
    beyond the arguments that the function looks at does not matter. -/
theorem calls_same [Budget] {lib : StubLibrary Function} (hlib : lib ∈ libraries)
    (hmath : lib.name ≠ "math")
    {name : String} {stub : Stub Function} (hentry : (name, stub) ∈ lib.entries)
    (hllabs : name ≠ "llabs") :
    (∀ args args', (∀ i, Args.word args i = Args.word args' i) →
        SameCalls lib.name name stub args args')
      ∧ (∀ args args', List.Forall₂ Value.Interchangeable args args' →
        SameCalls lib.name name stub args args')
      ∧ (∀ args zeros, (∀ v ∈ zeros, v.word = 0) →
        SameCalls lib.name name stub (args ++ zeros) args)
      ∧ (∀ args extra, (∀ i, LooksAt i stub → i < args.length) →
        SameCalls lib.name name stub (args ++ extra) args) := by
  have hstub := libraries_takeWords lib hlib hmath (name, stub) hentry hllabs
  refine ⟨fun args args' h => ?_, fun args args' h => ?_, fun args zeros h => ?_,
    fun args extra h => ?_⟩
  · exact sameCalls_of_words hstub fun i _ => h i
  · exact sameCalls_of_words hstub fun i _ => Args.word_of_interchangeable h i
  · exact sameCalls_of_words hstub fun i _ => Args.word_append_zeros h i
  · exact sameCalls_of_words hstub fun i hi => Args.word_append_left (h i hi) extra

/-- A module that declares 64-bit parameters for `memset`, one that declares too few, and one that
    declares too many, against one that declares the three words of its prototype. -/
theorem calls_same_memset :
    let stub : Stub Function := .implemented (.word (.edit .memset))
    let memset (params : List ValueType) : Func Function := .stub "memset" stub ⟨params, [.i32]⟩
    let call (params : List ValueType) (args : List Value) :=
      engine.invoke 1 [] (memset params) args (holding (.zeros 64))
    let words : List ValueType := [.i32, .i32, .i32]
    (call words [.i32 16, .i32 7, .i32 4]).1 = .ok [.i32 16]
      ∧ call [.i64, .i32, .i64] [.i64 0x100000010, .i32 7, .i64 4]
        = call words [.i32 16, .i32 7, .i32 4]
      ∧ call words [.i32 16, .i32 7, .i32 0] = call [.i32, .i32] [.i32 16, .i32 7]
      ∧ call [.i32, .i32, .i32, .f64] [.i32 16, .i32 7, .i32 4, .f64 1]
        = call words [.i32 16, .i32 7, .i32 4] := by
  intro stub memset call words
  have hlib : Tables.string ∈ libraries := List.mem_of_getElem? (i := 7) rfl
  have hentry : ("memset", stub) ∈ Tables.string.entries := List.mem_of_getElem? (i := 3) rfl
  have hbind (params : List ValueType) (hparams : params.all ValueType.isNumeric = true) :
      (Symbol.stub Tables.string.name "memset" stub).bind ⟨params, [.i32]⟩ = .ok (memset params) :=
    if_pos (by rw [FuncType.isBindable, hparams]; rfl)
  have hcall {params params' : List ValueType} {args args' : List Value}
      (hparams : params.all ValueType.isNumeric = true)
      (hparams' : params'.all ValueType.isNumeric = true)
      (hsame : SameCalls Tables.string.name "memset" stub args args') :
      call params args = call params' args' :=
    hsame.bound (by rfl) (hbind params hparams) (hbind params' hparams') 1 [] _
  obtain ⟨-, hwidths, hzeros, hextra⟩ := calls_same hlib (by decide) hentry (by decide)
  refine ⟨by decide +kernel, hcall rfl rfl ?_, hcall rfl rfl ?_, hcall rfl rfl ?_⟩
  · exact hwidths _ _ <| .cons (.integers rfl rfl rfl) <| .cons (.same _) <|
      .cons (.integers rfl rfl rfl) .nil
  · exact hzeros [.i32 16, .i32 7] [.i32 0] (by decide)
  · exact hextra [.i32 16, .i32 7, .i32 4] [.f64 1]
      (by decide : ∀ i ∈ MemoryEdit.reads .memset, i < 3)

end Libc

end WasmHost
