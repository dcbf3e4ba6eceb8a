import Mathlib.Data.List.TakeWhile
import Mathlib.Data.Nat.Digits.Defs
import WasmHost.Proofs.Libc.MemoryCalls
import WasmHost.Proofs.Linking.BoundStubs
import WasmHost.Proofs.Text.Encoding

set_option autoImplicit false

/-! # Numbers in texts

A text that is read as an integer has four parts: blanks, a sign, digits and the rest. Every text
has them in exactly one way (`NumberText.existsUnique_maximal`). The integer that is read is the
signed value of the digits, reduced to 64 bits (`parseInteger_text`), so every integer of 64 bits is
read back from its decimal text.

The main result is `integers_parsed`. -/

namespace WasmHost.Libc

open WasmHost.Action

/-! ## The parts of a text -/

/-- White space in front of a number. -/
def IsBlank (c : UInt8) : Prop := c = 32 ∨ (9 ≤ c ∧ c ≤ 13)

/-- A decimal digit. -/
def IsDecimal (c : UInt8) : Prop := 48 ≤ c ∧ c ≤ 57

theorem isSpace_iff {c : UInt8} : isSpace c = true ↔ IsBlank c := by
  rw [isSpace, within, Bool.or_eq_true, beq_iff_eq, decide_eq_true_iff, IsBlank]

theorem isDigit_iff {c : UInt8} : isDigit c = true ↔ IsDecimal c := by
  rw [isDigit, within, decide_eq_true_iff, IsDecimal]

theorem IsDecimal.not_isBlank {c : UInt8} (h : IsDecimal c) : ¬ IsBlank c := by
  obtain ⟨hlow, -⟩ := h
  rintro (rfl | ⟨-, hhigh⟩)
  · exact absurd hlow (by decide)
  · exact absurd (UInt8.le_trans hlow hhigh) (by decide)

instance (c : UInt8) : Decidable (IsBlank c) :=
  inferInstanceAs (Decidable (c = 32 ∨ (9 ≤ c ∧ c ≤ 13)))

instance (c : UInt8) : Decidable (IsDecimal c) := inferInstanceAs (Decidable (48 ≤ c ∧ c ≤ 57))

/-- The sign of a number. -/
inductive Sign where
  | plus
  | minus
deriving DecidableEq

/-- The byte that a sign is written as. -/
def Sign.byte : Sign → UInt8
  | plus => 43
  | minus => 45

/-- A text that is read as a number, in parts. -/
structure NumberText where
  blanks : List UInt8
  sign : Option Sign
  digits : List UInt8
  rest : List UInt8

namespace NumberText

/-- The text without the blanks and the sign. -/
def unsigned (p : NumberText) : List UInt8 := p.digits ++ p.rest

/-- The text without the blanks. -/
def trimmed (p : NumberText) : List UInt8 := (p.sign.map Sign.byte).toList ++ p.unsigned

/-- The whole text. -/
def text (p : NumberText) : List UInt8 := p.blanks ++ p.trimmed

/-- Each part is what it should be, and goes on as far as it can. -/
structure Maximal (p : NumberText) : Prop where
  blanks : ∀ c ∈ p.blanks, IsBlank c
  trimmed : ∀ c ∈ p.trimmed.head?, ¬ IsBlank c
  sign (h : p.sign = none) : ∀ c ∈ p.unsigned.head?, ∀ s : Sign, c ≠ s.byte
  digits : ∀ c ∈ p.digits, IsDecimal c
  rest : ∀ c ∈ p.rest.head?, ¬ IsDecimal c

/-- The value of a run of decimal digits. -/
def decimal (digits : List UInt8) : Nat := Nat.ofDigits 10 (digits.reverse.map (·.toNat - 48))

/-- The number that the text stands for. -/
def value (p : NumberText) : Int :=
  match p.sign with
  | some .minus => -decimal p.digits
  | some .plus | none => decimal p.digits

/-! ## Every text has its parts -/

/-- The sign at the start of a text. -/
def leadingSign : List UInt8 → Option Sign
  | 45 :: _ => some .minus
  | 43 :: _ => some .plus
  | _ => none

/-- The parts of a text, as they are read off. -/
def split (s : List UInt8) : NumberText where
  blanks := s.takeWhile isSpace
  sign := leadingSign (s.dropWhile isSpace)
  digits := (splitSign (s.dropWhile isSpace)).2.takeWhile isDigit
  rest := (splitSign (s.dropWhile isSpace)).2.dropWhile isDigit

theorem splitSign_append {sign : Option Sign} {s : List UInt8}
    (h : sign = none → ∀ c ∈ s.head?, ∀ s : Sign, c ≠ s.byte) :
    leadingSign ((sign.map Sign.byte).toList ++ s) = sign
      ∧ splitSign ((sign.map Sign.byte).toList ++ s) = (sign == some .minus, s) := by
  rcases sign with _ | _ | _
  case some.plus => exact ⟨rfl, rfl⟩
  case some.minus => exact ⟨rfl, rfl⟩
  case none =>
    cases s with
    | nil => exact ⟨rfl, rfl⟩
    | cons c s =>
        have hplus : c ≠ 43 := h rfl c rfl .plus
        have hminus : c ≠ 45 := h rfl c rfl .minus
        simp [leadingSign, splitSign, hplus, hminus]

theorem leadingSign_eq (s : List UInt8) :
    s = ((leadingSign s).map Sign.byte).toList ++ (splitSign s).2
      ∧ (leadingSign s = none → ∀ c ∈ (splitSign s).2.head?, ∀ s : Sign, c ≠ s.byte) := by
  by_cases h : ∀ c ∈ s.head?, ∀ s : Sign, c ≠ s.byte
  · obtain ⟨hsign, hsplit⟩ := @splitSign_append none s fun _ => h
    rw [Option.map_none, Option.toList_none, List.nil_append] at hsign hsplit
    rw [hsign, hsplit]
    exact ⟨rfl, fun _ => h⟩
  · push Not at h
    obtain ⟨c, hc, sign, rfl⟩ := h
    obtain ⟨rest, rfl⟩ := List.head?_eq_some_iff.1 hc
    cases sign <;> exact ⟨rfl, fun h => by cases h⟩

/-- What a prefix of elements with a property is cut off as, if the property fails after it. -/
theorem takeWhile_append_of_head {p : UInt8 → Bool} {P : UInt8 → Prop} (hp : ∀ c, p c = true ↔ P c)
    {before after : List UInt8} (hbefore : ∀ c ∈ before, P c) (hafter : ∀ c ∈ after.head?, ¬ P c) :
    (before ++ after).takeWhile p = before ∧ (before ++ after).dropWhile p = after := by
  have hall : ∀ c ∈ before, p c = true := fun c hc => (hp c).2 (hbefore c hc)
  rw [List.takeWhile_append_of_pos hall, List.dropWhile_append_of_pos hall]
  cases after with
  | nil => simp
  | cons c after =>
      have hc : ¬ p c = true := fun h => hafter c rfl ((hp c).1 h)
      simp [List.takeWhile_cons_of_neg hc, List.dropWhile_cons_of_neg hc]

/-- The property of a prefix fails after the prefix. -/
theorem not_of_head?_dropWhile {p : UInt8 → Bool} {s : List UInt8} :
    ∀ c ∈ (s.dropWhile p).head?, ¬ p c = true := by
  intro c hc
  have hnot := List.head?_dropWhile_not p s
  rw [Option.mem_def.1 hc] at hnot
  exact Bool.eq_false_iff.1 hnot

theorem unsigned_split (s : List UInt8) :
    (split s).unsigned = (splitSign (s.dropWhile isSpace)).2 :=
  List.takeWhile_append_dropWhile

theorem trimmed_split (s : List UInt8) : (split s).trimmed = s.dropWhile isSpace := by
  rw [trimmed, unsigned_split]
  exact (leadingSign_eq (s.dropWhile isSpace)).1.symm

theorem text_split (s : List UInt8) : (split s).text = s := by
  rw [text, trimmed_split]
  exact List.takeWhile_append_dropWhile

theorem maximal_split (s : List UInt8) : (split s).Maximal where
  blanks _ hc := isSpace_iff.1 (List.mem_takeWhile_imp hc)
  trimmed c hc hblank := not_of_head?_dropWhile c (trimmed_split s ▸ hc) (isSpace_iff.2 hblank)
  sign h c hc := (leadingSign_eq (s.dropWhile isSpace)).2 h c (unsigned_split s ▸ hc)
  digits _ hc := isDigit_iff.1 (List.mem_takeWhile_imp hc)
  rest c hc hdecimal := not_of_head?_dropWhile c hc (isDigit_iff.2 hdecimal)

section

variable {p : NumberText}

theorem Maximal.read_blanks (h : p.Maximal) :
    p.text.takeWhile isSpace = p.blanks ∧ p.text.dropWhile isSpace = p.trimmed :=
  takeWhile_append_of_head (fun _ => isSpace_iff) h.blanks h.trimmed

theorem Maximal.read_sign (h : p.Maximal) :
    leadingSign p.trimmed = p.sign ∧ splitSign p.trimmed = (p.sign == some .minus, p.unsigned) :=
  splitSign_append h.sign

theorem Maximal.read_digits (h : p.Maximal) :
    p.unsigned.takeWhile isDigit = p.digits ∧ p.unsigned.dropWhile isDigit = p.rest :=
  takeWhile_append_of_head (fun _ => isDigit_iff) h.digits h.rest

/-- Maximal parts are the ones that are read off. -/
theorem Maximal.split_text (h : p.Maximal) : split p.text = p := by
  rw [split, h.read_blanks.1, h.read_blanks.2, h.read_sign.1, h.read_sign.2]
  dsimp only
  rw [h.read_digits.1, h.read_digits.2]

end

/-- **Every text has its parts,** in exactly one way. -/
theorem existsUnique_maximal (s : List UInt8) : ∃! p : NumberText, p.Maximal ∧ p.text = s := by
  refine ⟨split s, ⟨maximal_split s, text_split s⟩, ?_⟩
  rintro p ⟨hmaximal, rfl⟩
  exact hmaximal.split_text.symm

/-! ## The number that is read -/

theorem decimal_eq_foldl (digits : List UInt8) :
    decimal digits = digits.foldl (fun n c => n * 10 + (c.toNat - 48)) 0 := by
  rw [decimal, List.map_reverse, Nat.ofDigits_eq_foldr, List.foldr_reverse, List.foldl_map]
  congr 1
  funext n c
  show c.toNat - 48 + 10 * n = _
  omega

/-- The digits are added up modulo 2⁶⁴ all the way. -/
theorem digitsValue_eq {digits : List UInt8} (h : ∀ c ∈ digits, IsDecimal c) :
    digitsValue digits = UInt64.ofNat (decimal digits) := by
  have hdigit {c : UInt8} (hc : IsDecimal c) :
      (c - 48).toUInt64 = UInt64.ofNat (c.toNat - 48) := by
    apply UInt64.toNat_inj.1
    have hlt := c.toNat_lt
    rw [UInt8.toNat_toUInt64, UInt8.toNat_sub_of_le _ _ hc.1, UInt64.toNat_ofNat']
    show c.toNat - 48 = _
    omega
  have hfold (n : Nat) : digits.foldl (fun n c => n * 10 + (c - 48).toUInt64) (UInt64.ofNat n)
      = UInt64.ofNat (digits.foldl (fun n c => n * 10 + (c.toNat - 48)) n) := by
    induction digits generalizing n with
    | nil => rfl
    | cons c digits ih =>
        obtain ⟨hc, hdigits⟩ := List.forall_mem_cons.1 h
        rw [List.foldl_cons, List.foldl_cons, ← ih hdigits, hdigit hc, UInt64.ofNat_add,
          UInt64.ofNat_mul]
        rfl
  rw [decimal_eq_foldl, digitsValue]
  exact hfold 0

/-- **The number that is read** is the value of the sign and the digits in 64 bits. -/
theorem Maximal.parseInteger_text {p : NumberText} (h : p.Maximal) :
    (parseInteger p.text).toInt64 = Int64.ofInt p.value := by
  have hparse : parseInteger p.text
      = if p.sign == some .minus then 0 - UInt64.ofNat (decimal p.digits)
        else UInt64.ofNat (decimal p.digits) := by
    rw [parseInteger, h.read_blanks.2, h.read_sign.2]
    dsimp only
    rw [h.read_digits.1, digitsValue_eq h.digits]
  rw [hparse, value]
  rcases p.sign with _ | _ | _
  case some.minus =>
    show (0 - UInt64.ofNat (decimal p.digits)).toInt64 = _
    rw [UInt64.zero_sub, UInt64.toInt64_neg, UInt64.toInt64_ofNat', Int64.ofInt_neg,
      Int64.ofInt_eq_ofNat]
  all_goals
    show (UInt64.ofNat (decimal p.digits)).toInt64 = _
    rw [UInt64.toInt64_ofNat', Int64.ofInt_eq_ofNat]

/-! ## Decimal texts -/

/-- The digits of a number as bytes. -/
def digitBytes (n : Nat) : List UInt8 := (Nat.toDigits 10 n).map (·.val.toUInt8)

theorem isDigit_of_mem_toDigits {n : Nat} {c : Char} (hc : c ∈ Nat.toDigits 10 n) :
    48 ≤ c.toNat ∧ c.toNat ≤ 57 := by
  have hdigit := Nat.isDigit_of_mem_toDigits (by decide) (by decide) hc
  rw [Char.isDigit, Bool.and_eq_true, decide_eq_true_iff, decide_eq_true_iff] at hdigit
  exact ⟨UInt32.le_iff_toNat_le.1 hdigit.1, UInt32.le_iff_toNat_le.1 hdigit.2⟩

theorem toNat_toUInt8_of_mem_toDigits {n : Nat} {c : Char} (hc : c ∈ Nat.toDigits 10 n) :
    c.val.toUInt8.toNat = c.toNat := by
  have hle := (isDigit_of_mem_toDigits hc).2
  rw [UInt32.toNat_toUInt8]
  exact Nat.mod_eq_of_lt (Nat.lt_of_le_of_lt hle (by decide))

theorem isDecimal_of_mem_digitBytes {n : Nat} : ∀ c ∈ digitBytes n, IsDecimal c := by
  intro b hb
  obtain ⟨c, hc, rfl⟩ := List.mem_map.1 hb
  obtain ⟨hlow, hhigh⟩ := isDigit_of_mem_toDigits hc
  have hnat := toNat_toUInt8_of_mem_toDigits hc
  exact ⟨UInt8.le_iff_toNat_le.2 (hnat ▸ hlow), UInt8.le_iff_toNat_le.2 (hnat ▸ hhigh)⟩

/-- The digits of a number have its value. -/
theorem decimal_digitBytes (n : Nat) : decimal (digitBytes n) = n := by
  calc decimal (digitBytes n)
      = (Nat.toDigits 10 n).foldl (fun n c => n * 10 + (c.val.toUInt8.toNat - 48)) 0 := by
        rw [decimal_eq_foldl, digitBytes, List.foldl_map]
    _ = (Nat.toDigits 10 n).foldl (fun n c => 10 * n + (c.toNat - '0'.toNat)) 0 :=
        List.foldl_ext _ _ _ fun n c hc => by
          rw [toNat_toUInt8_of_mem_toDigits hc, Nat.mul_comm]
          rfl
    _ = n := by rw [← Nat.ofDigitChars_eq_foldl, Nat.ofDigitChars_ten_toDigits]

/-- The parts of the decimal text of a number, with blanks before and the rest behind it. -/
def ofInt (n : Int) (blanks rest : List UInt8) : NumberText where
  blanks := blanks
  sign := if n < 0 then some .minus else none
  digits := digitBytes n.natAbs
  rest := rest

theorem encode_toString (n : Int) :
    Utf8.encode (toString n)
      = ((if n < 0 then some Sign.minus else none).map Sign.byte).toList
        ++ digitBytes n.natAbs := by
  have hascii {m : Nat} : ∀ c ∈ Nat.toDigits 10 m, c.val ≤ 127 := fun c hc =>
    UInt32.le_iff_toNat_le.2 (Nat.le_trans (isDigit_of_mem_toDigits hc).2 (by decide))
  cases n with
  | ofNat m =>
      have htext : (toString (Int.ofNat m)).toList = Nat.toDigits 10 m := String.toList_ofList
      rw [Utf8.encode_of_isAscii (by rw [Utf8.IsAscii, htext]; exact hascii), htext,
        if_neg (show ¬ Int.ofNat m < 0 from Int.not_lt.2 (Int.natCast_nonneg m))]
      rfl
  | negSucc m =>
      have htext : (toString (Int.negSucc m)).toList = '-' :: Nat.toDigits 10 (m + 1) :=
        String.toList_append.trans (congrArg ('-' :: ·) String.toList_ofList)
      have hminus : ∀ c ∈ '-' :: Nat.toDigits 10 (m + 1), c.val ≤ 127 :=
        List.forall_mem_cons.2 ⟨by decide, hascii⟩
      rw [Utf8.encode_of_isAscii (by rw [Utf8.IsAscii, htext]; exact hminus), htext,
        if_pos (Int.negSucc_lt_zero m)]
      rfl

theorem text_ofInt (n : Int) (blanks rest : List UInt8) :
    (ofInt n blanks rest).text = blanks ++ (Utf8.encode (toString n) ++ rest) := by
  rw [encode_toString, List.append_assoc]
  rfl

theorem value_ofInt (n : Int) (blanks rest : List UInt8) : (ofInt n blanks rest).value = n := by
  have hdecimal := decimal_digitBytes n.natAbs
  rw [value, ofInt]
  by_cases hn : n < 0
  · rw [if_pos hn]
    show -(decimal (digitBytes n.natAbs) : Int) = n
    omega
  · rw [if_neg hn]
    show (decimal (digitBytes n.natAbs) : Int) = n
    omega

theorem maximal_ofInt (n : Int) {blanks rest : List UInt8} (hblanks : ∀ c ∈ blanks, IsBlank c)
    (hrest : ∀ c ∈ rest.head?, ¬ IsDecimal c) : (ofInt n blanks rest).Maximal := by
  have hdigits := isDecimal_of_mem_digitBytes (n := n.natAbs)
  -- there is a digit, and that is neither a blank nor a sign
  obtain ⟨d, ds, hcons⟩ : ∃ d ds, digitBytes n.natAbs = d :: ds :=
    List.exists_cons_of_ne_nil (List.map_eq_nil_iff.not.2 Nat.toDigits_ne_nil)
  have hd : IsDecimal d := hdigits d (hcons ▸ List.mem_cons_self)
  have hunsigned : (ofInt n blanks rest).unsigned.head? = some d := by
    rw [unsigned, ofInt, hcons]
    rfl
  have hsigns (s : Sign) : ¬ IsBlank s.byte ∧ ¬ IsDecimal s.byte := by
    cases s <;> decide
  refine ⟨hblanks, ?_, ?_, hdigits, hrest⟩
  · intro c hc
    rw [trimmed] at hc
    cases hsign : (ofInt n blanks rest).sign with
    | some s =>
        rw [hsign] at hc
        cases hc
        exact (hsigns s).1
    | none =>
        rw [hsign, Option.map_none, Option.toList_none, List.nil_append, hunsigned] at hc
        cases hc
        exact hd.not_isBlank
  · intro _ c hc s heq
    rw [hunsigned] at hc
    cases hc
    exact (hsigns s).2 (heq ▸ hd)

/-- **Every integer of 64 bits is read back** from its decimal text. -/
theorem parseInteger_decimal (n : Int64) {blanks rest : List UInt8}
    (hblanks : ∀ c ∈ blanks, IsBlank c) (hrest : ∀ c ∈ rest.head?, ¬ IsDecimal c) :
    (parseInteger (blanks ++ (Utf8.encode (toString n.toInt) ++ rest))).toInt64 = n := by
  rw [← text_ofInt, (maximal_ofInt n.toInt hblanks hrest).parseInteger_text, value_ofInt,
    Int64.ofInt_toInt]

end NumberText

/-! ## Calls -/

/-- The functions that read an integer. -/
def integerNames : List String := ["atoi", "atol", "atoll"]

theorem provides_atoi : ∀ name ∈ integerNames, Provides name (.word .atoi) :=
  provides_of_entries (by decide +kernel)

section

variable {m : Machine Function} {addr : Nat} {contents : LinearMemory}

theorem stubs_atoi [Budget] (hactive : m.activeMemory = .ok (addr, contents)) {args : List Value}
    {s : List UInt8} (hs : contents.StringAt (Args.word args 0) s) (caller : Caller Function) :
    engine.stubs (.word .atoi) caller args m = (.ok (.i64 (parseInteger s)), m) := by
  have hlook : (look (·.string (Args.word args 0)) :
      Action Function MemoryError (List UInt8)).mapError Failure.ofMemoryError m
        = ((m.stringAt (Args.word args 0)).mapError .ofMemoryError, m) := rfl
  refine (bind_pure_apply ..).trans ?_
  rw [hlook, Machine.stringAt_of_active hactive hs]
  rfl

end

/-- The low word of a number that is reduced to 64 bits is the number reduced to 32 bits. -/
theorem toInt32_of_toInt64 {v : UInt64} {n : Int} (h : v.toInt64 = Int64.ofInt n) :
    v.toUInt32.toInt32 = Int32.ofInt n := by
  calc v.toUInt32.toInt32 = v.toInt64.toInt32 :=
        Int32.toBitVec_inj.1 (BitVec.signExtend_eq_setWidth_of_le v.toBitVec (by decide)).symm
    _ = Int32.ofInt n := by rw [h, Int64.toInt32_ofInt]

/-- Calls of the function give back the number in the text that argument 0 points at, reduced to 32
    bits, and change nothing. -/
def ReadsNumbers [Budget] (func : Func Function) : Prop :=
  ∀ (m : Machine Function) (addr : Nat) (contents : LinearMemory) (args : List Value)
    (p : NumberText), m.activeMemory = .ok (addr, contents) → p.Maximal →
    contents.StringAt (Args.word args 0) p.text →
    ∀ (depth : Nat) (exports : List (String × Item Function)), ∃ w : UInt32,
      engine.invoke (depth + 1) exports func args m = (.ok [.i32 w], m)
        ∧ w = (parseInteger p.text).toUInt32 ∧ w.toInt32 = Int32.ofInt p.value

theorem readsNumbers_of_bind [Budget] {library name : String} {type : FuncType} {func : Func Function}
    (hresults : type.results = [.i32])
    (hbind : (Symbol.stub library name (.implemented (.word .atoi))).bind type = .ok func) :
    ReadsNumbers func := by
  intro m addr contents args p hactive hmaximal hs depth exports
  obtain ⟨rfl, -⟩ := Symbol.bind_stub_eq_ok hbind
  refine ⟨_, ?_, rfl, toInt32_of_toInt64 hmaximal.parseInteger_text⟩
  have hvalues : type.resultsOf (.i64 (parseInteger p.text))
      = [.i32 (parseInteger p.text).toUInt32] := by
    rw [FuncType.resultsOf, hresults]
    rfl
  rw [Engine.invoke, Engine.callStub, bind_pure_apply, stubs_atoi hactive hs, ← hvalues]
  rfl

/-- **Integers are read from texts.** Every text has its parts in exactly one way, and the integer
    that is read is the value of the digits with the sign, in 64 bits; blanks and the rest do not
    matter. So every integer of 64 bits is read back from its decimal text, between any blanks and
    anything but a digit; `atoi`, bound to a result of 32 bits, gives it back in these. -/
theorem integers_parsed [Budget] :
    (∀ s, ∃! p : NumberText, p.Maximal ∧ p.text = s)
      ∧ (∀ p : NumberText, p.Maximal →
        (parseInteger p.text).toInt64 = Int64.ofInt p.value
          ∧ (p.digits = [] → parseInteger p.text = 0)
          ∧ ∀ q : NumberText, q.Maximal → q.sign = p.sign → q.digits = p.digits →
            parseInteger q.text = parseInteger p.text)
      ∧ (∀ (n : Int64) (blanks rest : List UInt8), (∀ c ∈ blanks, IsBlank c) →
        (∀ c ∈ rest.head?, ¬ IsDecimal c) →
        (parseInteger (blanks ++ (Utf8.encode (toString n.toInt) ++ rest))).toInt64 = n)
      ∧ ∀ lib ∈ libraries, ∀ name ∈ integerNames, ∀ stub, (name, stub) ∈ lib.entries →
        ∀ (type : FuncType) (func : Func Function), type.results = [.i32] →
          (Symbol.stub lib.name name stub).bind type = .ok func → ReadsNumbers func := by
  have heq {p q : NumberText} (hp : p.Maximal) (hq : q.Maximal) (hvalue : q.value = p.value) :
      parseInteger q.text = parseInteger p.text := by
    rw [← UInt64.toUInt64_toInt64 (parseInteger q.text), hq.parseInteger_text, hvalue,
      ← hp.parseInteger_text, UInt64.toUInt64_toInt64]
  refine ⟨NumberText.existsUnique_maximal, fun p hp => ⟨hp.parseInteger_text, ?_, ?_⟩,
    fun n _ _ => NumberText.parseInteger_decimal n, ?_⟩
  · intro hdigits
    have hempty : (⟨[], none, [], []⟩ : NumberText).Maximal := by
      constructor <;> simp [NumberText.trimmed, NumberText.unsigned]
    refine heq hempty hp ?_
    rw [NumberText.value, hdigits]
    split <;> rfl
  · intro q hq hsign hdigits
    refine heq hp hq ?_
    rw [NumberText.value, NumberText.value, hsign, hdigits]
  · intro lib hlib name hname stub hentry type func hresults hbind
    obtain rfl := (provides_atoi name hname stub).1 ⟨lib, hlib, hentry⟩
    exact readsNumbers_of_bind hresults hbind

/-- The least integer between a blank and a letter, two signs, and a number of more than 32 bits
    that `atoi` reads. -/
theorem integers_parsed_minimum :
    let contents := (LinearMemory.zeros 65536).fillRange 16 27 57
    let stub : Stub Function := .implemented (.word .atoi)
    (parseInteger ([9] ++ (Utf8.encode "-9223372036854775808" ++ [120]))).toInt64 = Int64.minValue
      ∧ parseInteger [45, 45, 53] = 0
      ∧ engine.invoke 1 [] (.stub "atoi" stub ⟨[.i32], [.i32]⟩) [.i32 16] (holding contents)
        = (.ok [.i32 1215752191], holding contents) := by
  intro contents stub
  obtain ⟨-, hparse, hdecimal, hcalls⟩ := integers_parsed
  refine ⟨?_, ?_, ?_⟩
  · exact hdecimal Int64.minValue [9] [120] (by decide +kernel) (by decide +kernel)
  · have htwoSigns : (⟨[], some .minus, [], [45, 53]⟩ : NumberText).Maximal :=
      ⟨by decide +kernel, by decide +kernel, fun h => (nomatch h), by decide +kernel,
        by decide +kernel⟩
    exact (hparse _ htwoSigns).2.1 rfl
  · have hnines : (⟨[], none, List.replicate 11 57, []⟩ : NumberText).Maximal := by
      refine ⟨by decide +kernel, by decide +kernel, fun _ c hc s => ?_, by decide +kernel,
        by decide +kernel⟩
      cases hc
      cases s <;> decide
    have hentry : ("atoi", stub) ∈ Tables.stdlib.entries := List.mem_of_getElem? (i := 0) rfl
    obtain ⟨w, hrun, rfl, -⟩ := hcalls Tables.stdlib (List.mem_of_getElem? (i := 6) rfl) "atoi"
      (by decide) stub hentry ⟨[.i32], [.i32]⟩ _ rfl rfl _ 0 contents [.i32 16] _
      (activeMemory_holding contents) hnines (by decide +kernel) 0 []
    exact hrun

end WasmHost.Libc
