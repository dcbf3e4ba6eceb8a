import WasmHost.Proofs.Linking.Imports

set_option autoImplicit false

/-! # Stubs that are bound to a type

A stub does not know the type that it is bound to. What a call gives back has the declared results
all the same: a stub is bound only to types with at most one result, which is a number, and whatever
it replies is converted. An integer keeps its value on the way, as far as the declared type can hold
it (`Reply.ReceivedAs`). So an address that code receives from a stub, in 32 or in 64 bits, is the
same address to every stub that it is passed on to.

The main result is `Engine.bound_stub_returns`, for stubs of any kind. -/

namespace WasmHost

open WasmHost.Action

variable {ι : Type}

/-! ## Integers -/

/-- An integer reply and the integer that it is received as: the same one, the one of the same sign
    and size in 64 bits, or the one that is equal modulo 2³². -/
inductive Reply.ReceivedAs : Reply → Value → Prop where
  | word (w : UInt32) : ReceivedAs (.i32 w) (.i32 w)
  | long (v : UInt64) : ReceivedAs (.i64 v) (.i64 v)
  | extended {w : UInt32} {v : UInt64} (h : v.toInt64.toInt = w.toInt32.toInt) :
      ReceivedAs (.i32 w) (.i64 v)
  | reduced {v : UInt64} {w : UInt32} (h : w.toNat = v.toNat % UInt32.size) :
      ReceivedAs (.i64 v) (.i32 w)

/-- Whether the reply is an integer. -/
def Reply.isInteger : Reply → Bool
  | .i32 _ | .i64 _ => true
  | .void | .f64 _ => false

/-- Whether the values of the type are integers. -/
def ValueType.isInteger : ValueType → Bool
  | .i32 | .i64 => true
  | _ => false

theorem Reply.receivedAs_toValue {r : Reply} {t : ValueType} (hr : r.isInteger = true)
    (ht : t.isInteger = true) : r.ReceivedAs (r.toValue t) := by
  cases t with
  | i32 =>
      cases r with
      | i32 w => exact .word w
      | i64 v => exact .reduced (UInt64.toNat_toUInt32 v)
      | void | f64 => cases hr
  | i64 =>
      cases r with
      | i32 w => exact .extended (Int32.toInt_toInt64 w.toInt32)
      | i64 v => exact .long v
      | void | f64 => cases hr
  | f32 | f64 | v128 | funcref | externref => cases ht

/-- The low word of a word that has been extended by its sign is the word. -/
theorem toUInt32_of_toInt_eq {w : UInt32} {v : UInt64} (h : v.toInt64.toInt = w.toInt32.toInt) :
    v.toUInt32 = w := by
  have hv : v.toInt64 = w.toInt32.toInt64 :=
    Int64.toInt_inj.1 (h.trans (Int32.toInt_toInt64 _).symm)
  calc v.toUInt32 = v.toInt64.toInt32.toUInt32 :=
        UInt32.toBitVec_inj.1 (BitVec.signExtend_eq_setWidth_of_le v.toBitVec (by decide)).symm
    _ = w.toInt32.toInt64.toInt32.toUInt32 := by rw [hv]
    _ = w := by rw [Int32.toInt32_toInt64, UInt32.toUInt32_toInt32]

/-- **A word is passed on** through code that received it as an integer of either width. -/
theorem Reply.word_of_receivedAs {p : UInt32} {v : Value} (h : (Reply.i32 p).ReceivedAs v)
    {args : List Value} {i : Nat} (hi : args[i]? = some v) : Args.word args i = p := by
  cases h with
  | word => rw [Args.word, hi]
  | extended h =>
      rw [Args.word, Args.long, hi]
      exact toUInt32_of_toInt_eq h

/-! ## Values that are given back -/

/-- The values that a call gives back for the reply `r`, if results of the given types are
    declared. -/
structure Reply.ReturnedAs (types : List ValueType) (r : Reply) (values : List Value) : Prop where
  /-- One value of the declared type, or none if none is declared. -/
  typed : values.map Value.type = types
  atMostOne : values.length ≤ 1
  received (hr : r.isInteger = true) : ∀ v ∈ values, v.type.isInteger = true → r.ReceivedAs v
  passedOn (p : UInt32) (hr : r = .i32 p) : ∀ v ∈ values, v.type.isInteger = true →
    ∀ (args : List Value) (i : Nat), args[i]? = some v → Args.word args i = p

/-- A reply gets the type that is asked for if that is a number; the conversion knows no others. -/
theorem Reply.type_toValue (r : Reply) {t : ValueType} (ht : t.isNumeric = true) :
    (r.toValue t).type = t := by
  cases t with
  | i32 | i64 | f32 | f64 => rfl
  | v128 | funcref | externref => cases ht

theorem Reply.returnedAs_resultsOf {type : FuncType} (htype : type.Numeric) (r : Reply) :
    r.ReturnedAs type.results (type.resultsOf r) := by
  rcases htype.results with hresults | ⟨t, hresults, ht⟩
  · rw [FuncType.resultsOf, hresults]
    exact ⟨rfl, Nat.zero_le _, fun _ _ hv => absurd hv List.not_mem_nil,
      fun _ _ _ hv => absurd hv List.not_mem_nil⟩
  · rw [FuncType.resultsOf, hresults]
    have htoValue : (r.toValue t).type = t := r.type_toValue ht
    refine ⟨congrArg (fun t => [t]) htoValue, Nat.le_refl _, ?_, ?_⟩
    · intro hr v hv hinteger
      cases List.mem_singleton.1 hv
      rw [htoValue] at hinteger
      exact receivedAs_toValue hr hinteger
    · intro p hr v hv hinteger args i hi
      cases List.mem_singleton.1 hv
      rw [htoValue] at hinteger
      subst hr
      exact word_of_receivedAs (receivedAs_toValue rfl hinteger) hi

/-! ## Calls -/

/-- What a call of a stub gives that has been bound to a type with the given results: an error of
    the stub itself, or what its reply is returned as. The machine afterwards is the one that the
    stub leaves. -/
inductive Engine.StubReturns (e : Engine ι) (name : String) (types : List ValueType)
    (caller : Caller ι) (args : List Value) (m : Machine ι) :
    Stub ι → Except Failure (List Value) × Machine ι → Prop where
  | unimplemented :
      StubReturns e name types caller args m .placeholder
        (.error (.ofFault (.unimplemented name)), m)
  | failed {f : ι} {failure : Failure} {m' : Machine ι}
      (h : e.stubs f caller args m = (.error failure, m')) :
      StubReturns e name types caller args m (.implemented f) (.error failure, m')
  | replied {f : ι} {r : Reply} {m' : Machine ι} (h : e.stubs f caller args m = (.ok r, m'))
      {values : List Value} (hvalues : r.ReturnedAs types values) :
      StubReturns e name types caller args m (.implemented f) (.ok values, m')

/-- A stub is bound to a type of numbers, or not at all. -/
theorem Symbol.bind_stub_eq_ok {library name : String} {stub : Stub ι} {type : FuncType}
    {func : Func ι} (h : (Symbol.stub library name stub).bind type = .ok func) :
    func = .stub name stub type ∧ type.Numeric := by
  rw [bind] at h
  split at h
  next htype => exact ⟨(Except.ok.inj h).symm, type.isBindable_iff.1 htype⟩
  next => cases h

/-- **Bound stubs keep to the declared type.** A call of a stub that has been bound to a type fails
    with the error of the stub, or gives back one value of the declared result type, or nothing if
    no result is declared. An integer stays the same integer or is extended by its sign or reduced
    modulo 2³², and a word that is passed on unchanged is read as the word that the stub replied. -/
theorem Engine.bound_stub_returns (e : Engine ι) {library name : String} {stub : Stub ι}
    {type : FuncType} {func : Func ι} (hbind : (Symbol.stub library name stub).bind type = .ok func)
    (depth : Nat) (exports : List (String × Item ι)) (args : List Value) (m : Machine ι) :
    e.StubReturns name type.results ⟨exports, loadModule (e.invoke depth)⟩ args m stub
      (e.invoke (depth + 1) exports func args m) := by
  obtain ⟨rfl, htype⟩ := Symbol.bind_stub_eq_ok hbind
  rw [invoke]
  cases stub with
  | placeholder => exact .unimplemented
  | implemented f =>
      rw [callStub, bind_pure_apply]
      rcases hrun : e.stubs f ⟨exports, loadModule (e.invoke depth)⟩ args m with ⟨failure | r, m'⟩
      · exact .failed hrun
      · exact .replied hrun (Reply.returnedAs_resultsOf htype r)

/-- The 32 bits of -1 are received as the 64 bits of -1, and passed on they are 32 bits again. -/
theorem Engine.bound_stub_returns_minus_one :
    let stub : Stub Libc.Function := .implemented (.word (.constant 0xffffffff))
    let type : FuncType := ⟨[.i32, .i32], [.i64]⟩
    let func : Func Libc.Function := .stub "signal" stub type
    (Symbol.stub "unix" "signal" stub).bind type = .ok func
      ∧ ∀ m, Libc.engine.invoke 1 [] func [.i32 2, .i32 0] m = (.ok [.i64 0xffffffffffffffff], m)
        ∧ Args.word [.i32 9, .i64 0xffffffffffffffff] 1 = 0xffffffff := by
  intro stub type func
  have hbind : (Symbol.stub "unix" "signal" stub).bind type = .ok func := rfl
  refine ⟨hbind, fun m => ?_⟩
  have hrun : Libc.engine.invoke 1 [] func [.i32 2, .i32 0] m
      = (.ok [.i64 0xffffffffffffffff], m) := rfl
  have hreturns : Libc.engine.StubReturns "signal" [.i64] ⟨[], loadModule (Libc.engine.invoke 0)⟩
      [.i32 2, .i32 0] m (.implemented (.word (.constant 0xffffffff)))
      (.ok [.i64 0xffffffffffffffff], m) :=
    hrun ▸ bound_stub_returns Libc.engine hbind 0 [] [.i32 2, .i32 0] m
  refine ⟨hrun, ?_⟩
  cases hreturns with
  | replied h hvalues =>
      cases h
      exact hvalues.passedOn 0xffffffff rfl _ List.mem_cons_self rfl _ 1 rfl

end WasmHost
