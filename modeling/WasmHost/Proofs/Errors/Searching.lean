import Mathlib.Data.List.Lex
import Mathlib.Logic.Relation
import WasmHost.LinkError

set_option autoImplicit false

/-! # Searching an error and what it wraps

An error and its related errors are a tree. A position in it is a list of indices, and in pre-order
(`Precedes`) an error comes before its related errors and these come from left to right. A search
finds the first error in this order whose kind is asked for (`First`), however deep it is, and
nothing only if there is none. Whether an error is a failure to load a module is said of its own
kind only, and so it is missed if such a failure is only wrapped. -/

namespace WasmHost

namespace LinkError

variable {p : Kind → Bool}

/-! ## Positions -/

/-- The error at a position: `[]` is the error itself, and the indices lead from an error to one of
    its related errors. -/
def at? : LinkError → List ℕ → Option LinkError
  | e, [] => some e
  | e, i :: position => e.related[i]?.bind fun r => r.at? position

/-- The error at a position in a list of errors; the first index picks the error. -/
def atAny? (es : List LinkError) : List ℕ → Option LinkError
  | [] => none
  | i :: position => es[i]?.bind fun e => e.at? position

/-- Pre-order: an error comes before its related errors, and these come from left to right. -/
abbrev Precedes : List ℕ → List ℕ → Prop := List.Lex (· < ·)

/-- The error at the position is the first whose kind satisfies `p`. -/
structure First (p : Kind → Bool) (errors : List ℕ → Option LinkError) (position : List ℕ)
    (found : LinkError) : Prop where
  occurs : errors position = some found
  satisfies : p found.kind = true
  first : ∀ earlier, Precedes earlier position → ∀ other, errors earlier = some other →
    p other.kind = false

/-- What a search finds: the first error whose kind satisfies `p`, or nothing if there is none. -/
inductive Searched (p : Kind → Bool) (errors : List ℕ → Option LinkError) :
    Option LinkError → Prop where
  | found (position : List ℕ) {found : LinkError} (h : First p errors position found) :
      Searched p errors (some found)
  | none (h : ∀ position other, errors position = some other → p other.kind = false) :
      Searched p errors none

/-- There is only one first error. -/
theorem First.unique {errors : List ℕ → Option LinkError} {position position' : List ℕ}
    {found found' : LinkError} (h : First p errors position found)
    (h' : First p errors position' found') : found = found' := by
  rcases trichotomous_of (List.Lex (· < ·)) position position' with hlt | rfl | hgt
  · exact absurd (h'.first position hlt found h.occurs) (by simp [h.satisfies])
  · exact Option.some.inj (h.occurs.symm.trans h'.occurs)
  · exact absurd (h.first position' hgt found' h'.occurs) (by simp [h'.satisfies])

theorem Searched.eq_some_iff {errors : List ℕ → Option LinkError} {result : Option LinkError}
    (h : Searched p errors result) (found : LinkError) :
    result = some found ↔ ∃ position, First p errors position found := by
  cases h with
  | found _ hfirst =>
      constructor
      · intro heq
        exact ⟨_, Option.some.inj heq ▸ hfirst⟩
      · rintro ⟨position, hfirst'⟩
        rw [hfirst.unique hfirst']
  | none hnone =>
      simp only [reduceCtorEq, false_iff, not_exists]
      intro position hfirst
      simpa [hfirst.satisfies] using hnone position found hfirst.occurs

theorem Searched.eq_none_iff {errors : List ℕ → Option LinkError} {result : Option LinkError}
    (h : Searched p errors result) :
    result = Option.none
      ↔ ∀ position other, errors position = some other → p other.kind = false := by
  cases h with
  | found _ hfirst =>
      simp only [reduceCtorEq, false_iff]
      intro hnone
      simpa [hfirst.satisfies] using hnone _ _ hfirst.occurs
  | none hnone => exact iff_of_true rfl hnone

/-! ## What the search finds

The search of an error goes on in its related errors if its own kind is not asked for; the search of
a list goes on after an error in which nothing is found. -/

section

variable {e : LinkError} {es : List LinkError}

theorem searched_self {k : Kind} {rs : List LinkError} (hk : p k = true) :
    Searched p (mk k rs).at? (some (mk k rs)) :=
  .found [] ⟨rfl, hk, fun _ hlt => nomatch hlt⟩

theorem searched_related {k : Kind} {rs : List LinkError} {result : Option LinkError}
    (hk : p k = false) (h : Searched p (atAny? rs) result) : Searched p (mk k rs).at? result := by
  cases h with
  | found position hfirst =>
      cases position with
      | nil => exact nomatch hfirst.occurs
      | cons i position =>
          refine .found (i :: position)
            ⟨hfirst.occurs, hfirst.satisfies, fun earlier hlt other hother => ?_⟩
          cases earlier with
          | nil =>
              obtain rfl : mk k rs = other := Option.some.inj hother
              exact hk
          | cons j earlier => exact hfirst.first (j :: earlier) hlt other hother
  | none hnone =>
      refine .none fun position other hother => ?_
      cases position with
      | nil =>
          obtain rfl : mk k rs = other := Option.some.inj hother
          exact hk
      | cons i position => exact hnone (i :: position) other hother

theorem searched_head {found : LinkError} (h : Searched p e.at? (some found)) :
    Searched p (atAny? (e :: es)) (some found) := by
  cases h with
  | found position hfirst =>
      refine .found (0 :: position)
        ⟨hfirst.occurs, hfirst.satisfies, fun earlier hlt other hother => ?_⟩
      cases hlt with
      | nil => exact nomatch hother
      | rel hlt => exact absurd hlt (Nat.not_lt_zero _)
      | cons hlt => exact hfirst.first _ hlt other hother

theorem searched_tail {result : Option LinkError} (he : Searched p e.at? Option.none)
    (h : Searched p (atAny? es) result) : Searched p (atAny? (e :: es)) result := by
  have hhead := he.eq_none_iff.1 rfl
  cases h with
  | found position hfirst =>
      cases position with
      | nil => exact nomatch hfirst.occurs
      | cons i position =>
          refine .found ((i + 1) :: position)
            ⟨hfirst.occurs, hfirst.satisfies, fun earlier hlt other hother => ?_⟩
          match earlier with
          | [] => exact nomatch hother
          | 0 :: earlier => exact hhead earlier other hother
          | (j + 1) :: earlier =>
              refine hfirst.first (j :: earlier) ?_ other hother
              cases hlt with
              | rel hlt => exact .rel (Nat.lt_of_succ_lt_succ hlt)
              | cons hlt => exact .cons hlt
  | none hnone =>
      refine .none fun position other hother => ?_
      match position with
      | [] => exact nomatch hother
      | 0 :: position => exact hhead position other hother
      | (i + 1) :: position => exact hnone (i :: position) other hother

end

/-- **A search finds the first error** in pre-order whose kind is asked for. -/
theorem searched_find? (p : Kind → Bool) (e : LinkError) : Searched p e.at? (e.find? p) := by
  -- along the search itself: an error, then its related errors one after the other
  refine find?.induct p (fun e => Searched p e.at? (find? p e))
    (fun es => Searched p (atAny? es) (findAny? p es)) ?self ?related ?nil ?head ?tail e
  case self =>
    intro k rs hk
    rw [find?, if_pos hk]
    exact searched_self hk
  case related =>
    intro k rs hk ih
    rw [find?, if_neg hk]
    exact searched_related (Bool.eq_false_iff.2 hk) ih
  case nil =>
    refine .none fun position other hother => ?_
    cases position <;> cases hother
  case head =>
    intro e es found hfound ih
    rw [hfound] at ih
    simp only [findAny?, hfound]
    exact searched_head ih
  case tail =>
    intro e es hnone ih ihs
    rw [hnone] at ih
    simp only [findAny?, hnone]
    exact searched_tail ih ihs

theorem findAny?_eq (p : Kind → Bool) (es : List LinkError) :
    findAny? p es = es.findSome? fun e => e.find? p := by
  induction es with
  | nil => rfl
  | cons e es ih =>
      simp only [findAny?, List.findSome?_cons, ih]
      cases e.find? p <;> rfl

theorem find?_of_kind {e : LinkError} (h : p e.kind = true) : e.find? p = some e := by
  obtain ⟨k, rs⟩ := e
  rw [find?, if_pos (show p k = true from h)]

theorem kind_of_find? {e found : LinkError} (h : e.find? p = some found) : p found.kind = true := by
  obtain ⟨position, hfirst⟩ := ((searched_find? p e).eq_some_iff found).1 h
  exact hfirst.satisfies

/-! ## What an error wraps -/

/-- The second error is behind the first one, directly or through further related errors. -/
def Wraps : LinkError → LinkError → Prop := Relation.TransGen fun e r => r ∈ e.related

/-- The second error is the first one or behind it. -/
def Contains : LinkError → LinkError → Prop := Relation.ReflTransGen fun e r => r ∈ e.related

variable {e other : LinkError}

theorem contains_iff_eq_or_wraps : e.Contains other ↔ other = e ∨ e.Wraps other :=
  Relation.reflTransGen_iff_eq_or_transGen

theorem contains_of_at? {position : List ℕ} (h : e.at? position = some other) :
    e.Contains other := by
  induction position generalizing e with
  | nil =>
      obtain rfl : e = other := Option.some.inj h
      exact .refl
  | cons i position ih =>
      obtain ⟨r, hr, hother⟩ := Option.bind_eq_some_iff.1 h
      exact .head (List.mem_of_getElem? hr) (ih hother)

theorem at?_of_contains (h : e.Contains other) : ∃ position, e.at? position = some other := by
  unfold Contains at h
  induction h using Relation.ReflTransGen.head_induction_on with
  | refl => exact ⟨[], rfl⟩
  | head hr _ ih =>
      obtain ⟨position, hother⟩ := ih
      obtain ⟨i, hi⟩ := List.mem_iff_getElem?.1 hr
      exact ⟨i :: position, by simp only [at?, hi, Option.bind_some, hother]⟩

/-- Nothing is found just if no error in the tree is of a kind that is asked for. -/
theorem find?_eq_none_iff :
    e.find? p = none ↔ ∀ other, e.Contains other → p other.kind = false := by
  rw [(searched_find? p e).eq_none_iff]
  constructor
  · intro h other hcontains
    obtain ⟨position, hother⟩ := at?_of_contains hcontains
    exact h position other hother
  · intro h position other hother
    exact h other (contains_of_at? hother)

theorem isSome_find?_iff :
    (e.find? p).isSome ↔ ∃ other, e.Contains other ∧ p other.kind = true := by
  rw [Option.isSome_iff_ne_none, ne_eq, find?_eq_none_iff]
  simp only [not_forall, Bool.not_eq_false, exists_prop]

/-! ## Failures to load a module -/

/-- The kinds that say that a module could not be loaded. -/
inductive Kind.IsLoadFailure : Kind → Prop where
  | loadFailure (name : String) : IsLoadFailure (.loadFailure name)
  | moduleNotFound (name : String) : IsLoadFailure (.moduleNotFound name)
  | moduleReadFail (name reason : String) : IsLoadFailure (.moduleReadFail name reason)
  | parseError (name reason : String) : IsLoadFailure (.parseError name reason)

/-- What is recognised depends on the kind of the error itself. -/
theorem isLoadFailure_iff : e.isLoadFailure = true ↔ e.kind.IsLoadFailure := by
  obtain ⟨kind, related⟩ := e
  constructor
  · intro h
    cases kind
    case loadFailure | moduleNotFound | moduleReadFail | parseError => constructor
    all_goals cases h
  · rintro ⟨⟩ <;> rfl

instance (k : Kind) : Decidable k.IsLoadFailure :=
  decidable_of_iff ((ofKind k).isLoadFailure = true) isLoadFailure_iff

/-- **Which load failures are recognised.** A search for the kinds of load failures finds one just
    if the error is one or wraps one, at any depth. An error is recognised as a load failure just if
    it is itself what the search finds. So recognising and finding come to the same exactly for the
    errors that are load failures or wrap none. -/
theorem load_failure_recognised_iff (e : LinkError) :
    ((e.find? fun k => k.IsLoadFailure).isSome
        ↔ e.kind.IsLoadFailure ∨ ∃ wrapped, e.Wraps wrapped ∧ wrapped.kind.IsLoadFailure)
      ∧ (e.isLoadFailure = true ↔ (e.find? fun k => k.IsLoadFailure) = some e)
      ∧ ((e.isLoadFailure = true ↔ (e.find? fun k => k.IsLoadFailure).isSome)
          ↔ (e.kind.IsLoadFailure ∨ ∀ wrapped, e.Wraps wrapped → ¬ wrapped.kind.IsLoadFailure)) := by
  have hfound : (e.find? fun k => k.IsLoadFailure).isSome
      ↔ e.kind.IsLoadFailure ∨ ∃ wrapped, e.Wraps wrapped ∧ wrapped.kind.IsLoadFailure := by
    simp only [isSome_find?_iff, contains_iff_eq_or_wraps, decide_eq_true_eq, or_and_right,
      exists_or, exists_eq_left]
  refine ⟨hfound, ?_, ?_⟩
  · rw [isLoadFailure_iff]
    constructor
    · intro h
      exact find?_of_kind (decide_eq_true h)
    · intro h
      exact of_decide_eq_true (kind_of_find? (p := fun k => decide k.IsLoadFailure) h)
  · rw [hfound, isLoadFailure_iff]
    by_cases hself : e.kind.IsLoadFailure
    · simp [hself]
    · simp [hself]

/-- An error about a name, behind which there is a failure to load a module. -/
def sampleWrapped : LinkError :=
  mk (.nameNotFound "f")
    [mk (.loadFailure "lib.wasm") [ofKind (.moduleNotFound "lib.wasm")]]

/-- The failure is found in it, but is not recognised. -/
theorem wrapped_load_failure_missed :
    (∃ wrapped, sampleWrapped.Wraps wrapped ∧ wrapped.kind.IsLoadFailure)
      ∧ (sampleWrapped.find? fun k => k.IsLoadFailure)
          = some (mk (.loadFailure "lib.wasm") [ofKind (.moduleNotFound "lib.wasm")])
      ∧ sampleWrapped.isLoadFailure = false :=
  ⟨⟨_, .single List.mem_cons_self, .loadFailure "lib.wasm"⟩, rfl, rfl⟩

end LinkError

end WasmHost
