import WasmHost.Proofs.Errors.Searching

set_option autoImplicit false

/-! # Collecting results

A list of results consists of values and failures, each in order (`Splits`). Collecting gives all
the values if there is no failure, and otherwise one error behind which are all the failures, so
that a search of it goes through the failures in order. -/

namespace WasmHost

namespace LinkError

variable {α : Type} {parent : Kind} {results : List (Except LinkError α)} {vs : List α}
  {errs : List LinkError}

/-- The values and the failures of a list of results, each in order. -/
inductive Splits : List (Except LinkError α) → List α → List LinkError → Prop where
  | nil : Splits [] [] []
  | value {results : List (Except LinkError α)} {vs : List α} {errs : List LinkError} (v : α)
      (h : Splits results vs errs) : Splits (.ok v :: results) (v :: vs) errs
  | failure {results : List (Except LinkError α)} {vs : List α} {errs : List LinkError}
      (err : LinkError) (h : Splits results vs errs) :
      Splits (.error err :: results) vs (err :: errs)

theorem splits_values_failures (results : List (Except LinkError α)) :
    Splits results (values results) (failures results) := by
  induction results with
  | nil => exact .nil
  | cons result results ih =>
      cases result with
      | error err => exact .failure err ih
      | ok v => exact .value v ih

theorem Splits.eq_failures (h : Splits results vs errs) :
    vs = values results ∧ errs = failures results := by
  induction h with
  | nil => exact ⟨rfl, rfl⟩
  | value v _ ih =>
      obtain ⟨rfl, rfl⟩ := ih
      exact ⟨rfl, rfl⟩
  | failure err _ ih =>
      obtain ⟨rfl, rfl⟩ := ih
      exact ⟨rfl, rfl⟩

theorem splits_map_ok (vs : List α) : Splits (vs.map .ok) vs [] := by
  induction vs with
  | nil => exact .nil
  | cons v vs ih => exact .value v ih

/-- Without failures the results are the values. -/
theorem Splits.eq_map_ok (h : Splits results vs []) : results = vs.map .ok := by
  induction vs generalizing results with
  | nil => cases h; rfl
  | cons v vs ih =>
      cases h with
      | value _ h => rw [List.map_cons, ih h]

theorem Splits.mem_iff (h : Splits results vs errs) {err : LinkError} :
    err ∈ errs ↔ .error err ∈ results := by
  induction h with
  | nil => simp
  | value v _ ih => simp [ih]
  | failure other _ ih => simp [ih]

/-- Collecting succeeds without failures, and otherwise reports all of them. -/
theorem collect_cases (parent : Kind) (results : List (Except LinkError α)) :
    (results = (values results).map .ok ∧ collect parent results = .ok (values results))
      ∨ failures results ≠ []
        ∧ collect parent results = .error (mk parent (failures results)) := by
  have hsplits := splits_values_failures results
  rw [collect]
  split
  · rename_i hnil
    rw [hnil] at hsplits
    exact .inl ⟨hsplits.eq_map_ok, rfl⟩
  · rename_i hne
    exact .inr ⟨hne, rfl⟩

theorem collect_of_failures (parent : Kind) (h : failures results ≠ []) :
    collect parent results = .error (mk parent (failures results)) := by
  rcases collect_cases parent results with ⟨hresults, -⟩ | ⟨-, hcollect⟩
  · exact absurd (hresults ▸ (splits_map_ok _).eq_failures.2.symm) h
  · exact hcollect

theorem collect_of_error (parent : Kind) {err : LinkError} (h : .error err ∈ results) :
    ∃ related, collect parent results = .error (.mk parent related) ∧ err ∈ related := by
  have hmem : err ∈ failures results := (splits_values_failures results).mem_iff.2 h
  exact ⟨_, collect_of_failures parent (List.ne_nil_of_mem hmem), hmem⟩

theorem collect_eq_ok (h : collect parent results = .ok vs) : results = vs.map .ok := by
  rcases collect_cases parent results with ⟨hresults, hcollect⟩ | ⟨-, hcollect⟩ <;>
    rw [hcollect] at h <;> cases h
  exact hresults

theorem collect_map_ok (parent : Kind) (vs : List α) : collect parent (vs.map .ok) = .ok vs := by
  obtain ⟨hvs, hfailures⟩ := (splits_map_ok vs).eq_failures
  rw [collect, ← hfailures, ← hvs]

theorem kind_of_collect {err : LinkError} (h : collect parent results = .error err) :
    err.kind = parent := by
  rcases collect_cases parent results with ⟨-, hcollect⟩ | ⟨-, hcollect⟩ <;>
    rw [hcollect] at h <;> cases h
  rfl

/-- A search of collected failures goes through them in order, unless it stops at the parent. -/
theorem find?_mk (p : Kind → Bool) (parent : Kind) (errs : List LinkError) :
    (mk parent errs).find? p
      = if p parent then some (mk parent errs) else errs.findSome? fun err => err.find? p := by
  rw [find?, findAny?_eq]

/-- What is collected of results, which consist of these values and these failures. -/
structure Collected (parent : Kind) (results : List (Except LinkError α)) (vs : List α)
    (errs : List LinkError) : Prop where
  splits : Splits results vs errs
  /-- All the values are given if nothing failed. -/
  succeeds (h : ∀ result ∈ results, ∃ v, result = .ok v) : collect parent results = .ok vs
  /-- Otherwise all the failures are behind one error. -/
  fails (err : LinkError) (h : .error err ∈ results) :
    collect parent results = .error (mk parent errs)
  /-- A search of that error finds the error itself, or what is found first in the failures. -/
  found (p : Kind → Bool) (err : LinkError) (h : collect parent results = .error err) :
    err.find? p = if p parent then some err else errs.findSome? fun failure => failure.find? p

theorem collected (parent : Kind) (results : List (Except LinkError α)) :
    Collected parent results (values results) (failures results) where
  splits := splits_values_failures results
  succeeds h := by
    rcases collect_cases parent results with ⟨-, hcollect⟩ | ⟨hne, -⟩
    · exact hcollect
    · obtain ⟨err, herr⟩ := List.exists_mem_of_ne_nil _ hne
      obtain ⟨v, hv⟩ := h _ ((splits_values_failures results).mem_iff.1 herr)
      cases hv
  fails err h := by
    have hmem : err ∈ failures results := (splits_values_failures results).mem_iff.2 h
    exact collect_of_failures parent (List.ne_nil_of_mem hmem)
  found p err h := by
    rcases collect_cases parent results with ⟨-, hcollect⟩ | ⟨-, hcollect⟩ <;>
      rw [hcollect] at h <;> cases h
    exact find?_mk p parent _

/-- **Errors are searched and collected in order.** A search of an error finds the first error in
    pre-order whose kind is asked for, and nothing just if there is none. What is collected of
    results is all the values, in order, or one error behind which are all the failures, in order;
    what a search finds in that error is the error itself or what it finds first in the failures. -/
theorem errors_searched_and_collected :
    (∀ (p : Kind → Bool) (e : LinkError),
        (∀ found, e.find? p = some found ↔ ∃ position, First p e.at? position found)
          ∧ (e.find? p = none ↔ ∀ other, e.Contains other → p other.kind = false))
      ∧ ∀ {α : Type} (parent : Kind) (results : List (Except LinkError α)),
          ∃ vs errs, Collected parent results vs errs := by
  refine ⟨fun p e => ⟨(searched_find? p e).eq_some_iff, find?_eq_none_iff⟩, ?_⟩
  intro α parent results
  exact ⟨_, _, collected parent results⟩

/-- Two failures among the results of three steps. The search passes over what is not asked for, and
    then finds the load failure behind the first one. -/
theorem errors_searched_and_collected_two :
    let results : List (Except LinkError ℕ) :=
      [.error sampleWrapped, .ok 7, .error (ofKind (.moduleNotFound "b.wasm"))]
    ∃ err, collect .invalidSymbol results = .error err
      ∧ err.related = [sampleWrapped, ofKind (.moduleNotFound "b.wasm")]
      ∧ (err.find? fun k => k.IsLoadFailure)
          = some (mk (.loadFailure "lib.wasm") [ofKind (.moduleNotFound "lib.wasm")]) := by
  intro results
  obtain ⟨vs, errs, h⟩ := errors_searched_and_collected.2 .invalidSymbol results
  obtain ⟨-, rfl⟩ := h.splits.eq_failures
  have hcollect := h.fails sampleWrapped List.mem_cons_self
  refine ⟨_, hcollect, rfl, ?_⟩
  rw [h.found _ _ hcollect]
  rfl

end LinkError

end WasmHost
