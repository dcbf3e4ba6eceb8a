set_option autoImplicit false

/-! # Finite maps with few keys

The host keeps several small maps: symbol names to implementations, library names to handles,
block addresses to sizes. `Assoc κ α` is such a map, kept as a list of pairs in the order in which
the keys were first inserted; no key occurs twice, and that invariant is part of the type.

The view of a map is `get?`. Every operation has one equation through it (`get?_insert`,
`get?_erase`), so later reasoning never looks at the list. -/

namespace WasmHost

/-- A finite map from `κ` to `α`: pairs with distinct keys, oldest key first. -/
structure Assoc (κ α : Type) where
  /-- The pairs, oldest key first. -/
  entries : List (κ × α)
  /-- No key occurs twice. -/
  nodup : (entries.map Prod.fst).Nodup

namespace Assoc

variable {κ α : Type}

/-- The map without keys. -/
def empty : Assoc κ α := ⟨[], List.nodup_nil⟩

instance : Inhabited (Assoc κ α) := ⟨empty⟩

/-- The keys, oldest first. -/
def keys (m : Assoc κ α) : List κ := m.entries.map Prod.fst

/-- The number of keys. -/
def size (m : Assoc κ α) : Nat := m.entries.length

variable [DecidableEq κ]

/-! ## Operations on the list of pairs -/

/-- The value of the first pair with key `k`. -/
def lookupEntry (k : κ) : List (κ × α) → Option α
  | [] => none
  | (k', v) :: rest => if k' = k then some v else lookupEntry k rest

/-- Replace the value of `k` in place, or add the pair at the end. -/
def insertEntry (k : κ) (v : α) : List (κ × α) → List (κ × α)
  | [] => [(k, v)]
  | (k', v') :: rest => if k' = k then (k, v) :: rest else (k', v') :: insertEntry k v rest

theorem keys_insertEntry (k : κ) (v : α) (es : List (κ × α)) :
    (insertEntry k v es).map Prod.fst
      = if k ∈ es.map Prod.fst then es.map Prod.fst else es.map Prod.fst ++ [k] := by
  induction es with
  | nil => simp [insertEntry]
  | cons e es ih =>
      obtain ⟨k', v'⟩ := e
      by_cases hk : k' = k
      · simp [insertEntry, hk]
      · have hk' : ¬ k = k' := fun h => hk h.symm
        by_cases hmem : k ∈ es.map Prod.fst
        · rw [if_pos hmem] at ih
          simp only [insertEntry, hk, ↓reduceIte, List.map_cons, ih, List.mem_cons, hk', hmem,
            or_true]
        · rw [if_neg hmem] at ih
          simp only [insertEntry, hk, ↓reduceIte, List.map_cons, ih, List.mem_cons, hk', hmem,
            or_self, List.cons_append]

theorem nodup_insertEntry (k : κ) (v : α) (es : List (κ × α))
    (h : (es.map Prod.fst).Nodup) : ((insertEntry k v es).map Prod.fst).Nodup := by
  rw [keys_insertEntry]
  split
  · exact h
  · rename_i hmem
    rw [List.nodup_append]
    refine ⟨h, by simp, ?_⟩
    intro a ha b hb hab
    simp only [List.mem_singleton] at hb
    exact hmem (hb ▸ hab ▸ ha)

/-! ## The operations -/

/-- The value of `k`, if it has one. -/
def get? (m : Assoc κ α) (k : κ) : Option α := lookupEntry k m.entries

/-- Whether `k` has a value. -/
def contains (m : Assoc κ α) (k : κ) : Bool := (m.get? k).isSome

/-- Give `k` the value `v`, in place of any earlier one. -/
def insert (m : Assoc κ α) (k : κ) (v : α) : Assoc κ α :=
  ⟨insertEntry k v m.entries, nodup_insertEntry k v m.entries m.nodup⟩

/-- Forget `k`. -/
def erase (m : Assoc κ α) (k : κ) : Assoc κ α :=
  ⟨m.entries.filter (fun e => e.1 ≠ k), by
    have hsub : (m.entries.filter (fun e => e.1 ≠ k)).Sublist m.entries := List.filter_sublist
    exact (hsub.map Prod.fst).nodup m.nodup⟩

/-- The map of a list of pairs; of two pairs with one key the later counts. -/
def ofList (es : List (κ × α)) : Assoc κ α := es.foldl (fun m e => m.insert e.1 e.2) empty

/-! ## Equations through `get?` -/

@[simp] theorem get?_empty (k : κ) : (empty : Assoc κ α).get? k = none := rfl

theorem lookupEntry_insertEntry (k k' : κ) (v : α) (es : List (κ × α)) :
    lookupEntry k' (insertEntry k v es) = if k = k' then some v else lookupEntry k' es := by
  induction es with
  | nil => simp [insertEntry, lookupEntry]
  | cons e es ih =>
      obtain ⟨k₀, v₀⟩ := e
      by_cases hk : k₀ = k
      · subst hk
        by_cases h : k₀ = k' <;> simp [insertEntry, lookupEntry, h]
      · by_cases h : k₀ = k'
        · subst h
          simpa [insertEntry, lookupEntry, hk] using fun e : k = k₀ => absurd e.symm hk
        · simp [insertEntry, lookupEntry, hk, h, ih]

/-- A key that was just given a value has it; every other key keeps what it had. -/
@[simp] theorem get?_insert (m : Assoc κ α) (k k' : κ) (v : α) :
    (m.insert k v).get? k' = if k = k' then some v else m.get? k' :=
  lookupEntry_insertEntry k k' v m.entries

theorem lookupEntry_filter (k k' : κ) (es : List (κ × α)) :
    lookupEntry k' (es.filter (fun e => e.1 ≠ k)) = if k = k' then none else lookupEntry k' es := by
  induction es with
  | nil => simp [lookupEntry]
  | cons e es ih =>
      obtain ⟨k₀, v₀⟩ := e
      by_cases hk : k₀ = k
      · subst hk
        by_cases h : k₀ = k' <;> simp_all [lookupEntry]
      · by_cases h : k₀ = k'
        · subst h
          simpa [lookupEntry, hk] using fun e : k = k₀ => hk e.symm
        · simp_all [lookupEntry]

/-- A forgotten key has no value; every other key keeps what it had. -/
@[simp] theorem get?_erase (m : Assoc κ α) (k k' : κ) :
    (m.erase k).get? k' = if k = k' then none else m.get? k' :=
  lookupEntry_filter k k' m.entries

end Assoc

end WasmHost
