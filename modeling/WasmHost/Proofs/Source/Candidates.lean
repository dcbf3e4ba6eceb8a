import WasmHost.Source.Search

set_option autoImplicit false

/-! # The path that decides a search

A module is searched at the path that is its name and then, if that is relative, below each search
path (`candidate?`). The first of these paths at which there is anything decides what the search
gives (`Decides`, `ReadAs`): no failure but absence makes it go on, and what comes after that path
makes no difference.

The main result is `ModuleSource.search_exact`. -/

namespace WasmHost

variable {α : Type} {read : String → Except ReadError α} {name : String}

/-- Candidate `i` for a module name: the name itself, and then the name below each search path,
    unless it is absolute. -/
def candidate? (paths : List String) (name : String) : Nat → Option String
  | 0 => some name
  | i + 1 => if isAbsolutePath name then none else paths[i]?.map (joinPath · name)

theorem getElem?_searchCandidates (paths : List String) (name : String) (i : Nat) :
    (searchCandidates paths name)[i]? = candidate? paths name i := by
  cases i with
  | zero => rfl
  | succ i =>
      rw [searchCandidates, List.getElem?_cons_succ, candidate?]
      split
      · rfl
      · exact List.getElem?_map

/-- Candidate `i` is the path, and the first one at which there is anything. -/
structure Decides (read : String → Except ReadError α) (candidates : Nat → Option String) (i : Nat)
    (path : String) : Prop where
  candidate : candidates i = some path
  found : read path ≠ .error .notFound
  first : ∀ j < i, ∀ earlier, candidates j = some earlier → read earlier = .error .notFound

/-- What a search gives for what is read at the path that decides. -/
inductive ReadAs (name path : String) : Except ReadError α → Except LinkError α → Prop where
  | contents (contents : α) : ReadAs name path (.ok contents) (.ok contents)
  | failed (reason : String) :
      ReadAs name path (.error (.failed reason))
        (.error (LinkError.ofKind (.moduleReadFail name (path ++ ": " ++ reason))))

/-- What a search gives that finds nothing. -/
abbrev notFoundResult (name : String) : Except LinkError α :=
  .error (LinkError.ofKind (.moduleNotFound name))

theorem ReadAs.ne_notFound {path : String} {found : Except ReadError α}
    {result : Except LinkError α} (h : ReadAs name path found result) :
    result ≠ notFoundResult name := by
  cases h <;> simp [LinkError.ofKind]

theorem ReadAs.unique {path : String} {found : Except ReadError α}
    {result result' : Except LinkError α} (h : ReadAs name path found result)
    (h' : ReadAs name path found result') : result = result' := by
  cases h <;> cases h' <;> rfl

/-! ## Lists of candidates -/

section

variable {candidates : List String}

/-- One candidate at which there is nothing is passed over. -/
theorem Decides.cons {path : String} (hpath : read path = .error .notFound) {i : Nat}
    {decider : String} :
    Decides read (fun i => (path :: candidates)[i]?) (i + 1) decider
      ↔ Decides read (fun i => candidates[i]?) i decider := by
  constructor
  · intro h
    exact ⟨h.candidate, h.found, fun j hj => h.first (j + 1) (Nat.succ_lt_succ hj)⟩
  · intro h
    refine ⟨h.candidate, h.found, fun j hj earlier hearlier => ?_⟩
    cases j with
    | zero =>
        cases hearlier
        exact hpath
    | succ j => exact h.first j (Nat.lt_of_succ_lt_succ hj) earlier hearlier

/-- The first candidate at which there is anything decides. -/
theorem readFirst_of_decides {i : Nat} {path : String}
    (h : Decides read (fun i => candidates[i]?) i path) :
    ReadAs name path (read path) (readFirst read name candidates) := by
  induction candidates generalizing i with
  | nil => exact nomatch h.candidate
  | cons first candidates ih =>
      rw [readFirst]
      cases i with
      | zero =>
          obtain rfl : first = path := Option.some.inj h.candidate
          rcases hread : read first with (_ | reason) | contents
          · exact absurd hread h.found
          · exact .failed reason
          · exact .contents contents
      | succ i =>
          have hfirst := h.first 0 (Nat.succ_pos i) first rfl
          rw [hfirst]
          exact ih ((Decides.cons hfirst).1 h)

theorem readFirst_of_missing (h : ∀ path ∈ candidates, read path = .error .notFound) :
    readFirst read name candidates = notFoundResult name := by
  induction candidates with
  | nil => rfl
  | cons path candidates ih =>
      obtain ⟨hpath, hrest⟩ := List.forall_mem_cons.1 h
      rw [readFirst, hpath]
      exact ih hrest

/-- Some candidate decides, or there is nothing at any of them. -/
theorem decides_or_missing (read : String → Except ReadError α) (candidates : List String) :
    (∃ i path, Decides read (fun i => candidates[i]?) i path)
      ∨ ∀ path ∈ candidates, read path = .error .notFound := by
  induction candidates with
  | nil => exact .inr fun _ hpath => absurd hpath List.not_mem_nil
  | cons path candidates ih =>
      by_cases hpath : read path = .error .notFound
      · rcases ih with ⟨i, decider, h⟩ | h
        · exact .inl ⟨i + 1, decider, (Decides.cons hpath).2 h⟩
        · exact .inr (List.forall_mem_cons.2 ⟨hpath, h⟩)
      · exact .inl ⟨0, path, rfl, hpath, fun j hj => absurd hj (Nat.not_lt_zero j)⟩

end

/-! ## Searches -/

namespace ModuleSource

variable {paths : List String} {i : Nat} {path : String}

theorem search_of_decides (h : Decides read (candidate? paths name) i path) :
    ReadAs name path (read path) (search read paths name) := by
  refine readFirst_of_decides (i := i) ?_
  simp only [getElem?_searchCandidates]
  exact h

theorem search_cases (read : String → Except ReadError α) (paths : List String) (name : String) :
    (∃ i path, Decides read (candidate? paths name) i path)
      ∨ (∀ i path, candidate? paths name i = some path → read path = .error .notFound)
        ∧ search read paths name = notFoundResult name := by
  rcases decides_or_missing read (searchCandidates paths name) with h | h
  · simp only [getElem?_searchCandidates] at h
    exact .inl h
  · refine .inr ⟨fun i path hpath => ?_, readFirst_of_missing h⟩
    rw [← getElem?_searchCandidates] at hpath
    exact h path (List.mem_of_getElem? hpath)

/-- A candidate decides in the same way for any other files and search paths that agree up to it. -/
theorem search_congr (h : Decides read (candidate? paths name) i path)
    {read' : String → Except ReadError α} {paths' : List String}
    (hcandidates : ∀ j ≤ i, candidate? paths' name j = candidate? paths name j)
    (hread : ∀ j ≤ i, ∀ earlier, candidate? paths name j = some earlier →
      read' earlier = read earlier) :
    search read' paths' name = search read paths name := by
  have hpath : read' path = read path := hread i (Nat.le_refl i) path h.candidate
  have h' : Decides read' (candidate? paths' name) i path := by
    refine ⟨?_, ?_, fun j hj earlier hearlier => ?_⟩
    · rw [hcandidates i (Nat.le_refl i)]
      exact h.candidate
    · rw [hpath]
      exact h.found
    · rw [hcandidates j (Nat.le_of_lt hj)] at hearlier
      rw [hread j (Nat.le_of_lt hj) earlier hearlier]
      exact h.first j hj earlier hearlier
  have hsearch := search_of_decides h'
  rw [hpath] at hsearch
  exact hsearch.unique (search_of_decides h)

/-- Search paths at the end do not change a candidate that there is. -/
theorem candidate?_append {more : List String} {j : Nat} (hi : (candidate? paths name i).isSome)
    (hj : j ≤ i) : candidate? (paths ++ more) name j = candidate? paths name j := by
  cases j with
  | zero => rfl
  | succ j =>
      obtain ⟨i, rfl⟩ : ∃ k, i = k + 1 := ⟨i - 1, by omega⟩
      rw [candidate?] at hi
      rw [candidate?, candidate?]
      split
      · rfl
      · rename_i hrelative
        rw [if_neg hrelative, Option.isSome_map, isSome_getElem?] at hi
        rw [List.getElem?_append_left (Nat.lt_of_le_of_lt (Nat.le_of_succ_le_succ hj) hi)]

/-- What a search for a module gives. -/
structure SearchExact (read : String → Except ReadError α) (paths : List String) (name : String) :
    Prop where
  /-- The first candidate at which there is anything decides. -/
  decided (i : Nat) (path : String) (h : Decides read (candidate? paths name) i path) :
    ReadAs name path (read path) (search read paths name)
  /-- Some candidate decides unless the module is not found. -/
  exhaustive (h : search read paths name ≠ notFoundResult name) :
    ∃ i path, Decides read (candidate? paths name) i path
  notFound_iff : search read paths name = notFoundResult name
    ↔ ∀ i path, candidate? paths name i = some path → read path = .error .notFound
  /-- More search paths matter only if the module is not found. -/
  append (more : List String) (h : search read paths name ≠ notFoundResult name) :
    search read (paths ++ more) name = search read paths name
  /-- What comes after the candidate that decides does not matter. -/
  later (i : Nat) (path : String) (h : Decides read (candidate? paths name) i path)
    (read' : String → Except ReadError α) (paths' : List String)
    (hcandidates : ∀ j ≤ i, candidate? paths' name j = candidate? paths name j)
    (hread : ∀ j ≤ i, ∀ earlier, candidate? paths name j = some earlier →
      read' earlier = read earlier) :
    search read' paths' name = search read paths name
  absolute (h : isAbsolutePath name = true) (paths' : List String) :
    search read paths' name = search read paths name

/-- **The first path at which there is anything decides a search.** -/
theorem search_exact (read : String → Except ReadError α) (paths : List String) (name : String) :
    SearchExact read paths name where
  decided _ _ h := search_of_decides h
  exhaustive h := (search_cases read paths name).resolve_right fun hmissing => h hmissing.2
  notFound_iff := by
    rcases search_cases read paths name with ⟨i, path, h⟩ | ⟨hmissing, hresult⟩
    · exact iff_of_false (search_of_decides h).ne_notFound
        fun hmissing => h.found (hmissing i path h.candidate)
    · exact iff_of_true hresult hmissing
  append more hresult := by
    rcases search_cases read paths name with ⟨i, path, h⟩ | ⟨-, hnot⟩
    · have hsome : (candidate? paths name i).isSome := by
        rw [h.candidate]
        rfl
      exact search_congr h (fun _ => candidate?_append hsome) fun _ _ _ _ => rfl
    · exact absurd hnot hresult
  later _ _ h _ _ hcandidates hread := search_congr h hcandidates hread
  absolute h paths' := by
    rw [search, search, searchCandidates, searchCandidates, if_pos h, if_pos h]

/-- Files below two directories, of which the first cannot be read. -/
def sampleFiles : String → Except ReadError (List UInt8)
  | "a/lib.wasm" => .error (.failed "Is a directory")
  | "b/lib.wasm" | "/lib.wasm" => .ok [0, 97, 115, 109]
  | _ => .error .notFound

/-- A path that is not there is passed over, but not one that cannot be read, also if more search
    paths follow. An absolute name is not searched below any of them. -/
theorem search_exact_directory :
    let fail : Except LinkError (List UInt8) :=
      .error (LinkError.ofKind (.moduleReadFail "lib.wasm" "a/lib.wasm: Is a directory"))
    search sampleFiles ["none", "a/"] "lib.wasm" = fail
      ∧ search sampleFiles ["none", "a/", "b"] "lib.wasm" = fail
      ∧ search sampleFiles ["none", "b"] "lib.wasm" = .ok [0, 97, 115, 109]
      ∧ search sampleFiles ["none"] "lib.wasm" = notFoundResult "lib.wasm"
      ∧ search sampleFiles ["a"] "/lib.wasm" = search sampleFiles [] "/lib.wasm" := by
  intro fail
  have hexact := search_exact sampleFiles
  have hbelow (paths : List String) (j : Nat) :
      candidate? paths "lib.wasm" (j + 1) = paths[j]?.map (joinPath · "lib.wasm") :=
    if_neg (by decide +kernel)
  have hmissing (dirs : List String) : ∀ j < 2, ∀ earlier,
      candidate? ("none" :: dirs) "lib.wasm" j = some earlier →
        sampleFiles earlier = .error .notFound := by
    intro j hj earlier hearlier
    obtain rfl | rfl : j = 0 ∨ j = 1 := by omega
    · cases hearlier
      rfl
    · rw [hbelow] at hearlier
      have hjoin : joinPath "none" "lib.wasm" = "none/lib.wasm" := by decide +kernel
      obtain rfl : "none/lib.wasm" = earlier := hjoin ▸ Option.some.inj hearlier
      rfl
  have hdirectory :
      Decides sampleFiles (candidate? ["none", "a/"] "lib.wasm") 2 "a/lib.wasm" :=
    ⟨by rw [hbelow]; decide +kernel, nofun, hmissing ["a/"]⟩
  have hread := (hexact _ _).decided 2 _ hdirectory
  have hfail : search sampleFiles ["none", "a/"] "lib.wasm" = fail :=
    hread.unique (.failed "Is a directory")
  refine ⟨hfail, ?_, ?_, ?_, ?_⟩
  · exact ((hexact _ _).append ["b"] hread.ne_notFound).trans hfail
  · have hdecides : Decides sampleFiles (candidate? ["none", "b"] "lib.wasm") 2 "b/lib.wasm" :=
      ⟨by rw [hbelow]; decide +kernel, nofun, hmissing ["b"]⟩
    exact ((hexact _ _).decided 2 _ hdecides).unique (.contents _)
  · refine (hexact _ _).notFound_iff.2 fun i path hpath => ?_
    by_cases hi : i < 2
    · exact hmissing [] i hi path hpath
    · obtain ⟨j, rfl⟩ : ∃ j, i = j + 2 := ⟨i - 2, by omega⟩
      rw [hbelow] at hpath
      cases hpath
  · exact (hexact [] "/lib.wasm").absolute (by decide +kernel) ["a"]

end ModuleSource

end WasmHost
