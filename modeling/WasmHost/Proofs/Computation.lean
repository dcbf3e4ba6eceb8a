import WasmHost.Memory.Word

set_option autoImplicit false

/-! # Computations with a state that may fail

Actions on the machine, steps of a run and computations on a memory are functions of a state, and
what a composed computation does follows from what its parts do. `bind_apply` says so for all of
them: a failure ends the computation, and what has been changed before stays changed. -/

namespace WasmHost

variable {σ ε α β : Type}

theorem bind_apply (x : ExceptT ε (StateM σ) α) (f : α → ExceptT ε (StateM σ) β) (s : σ) :
    (x >>= f) s
      = match x s with
        | (.ok a, s') => f a s'
        | (.error err, s') => (.error err, s') := by
  show (ExceptT.bindCont f (x s).1 : StateM σ _) (x s).2 = _
  rcases x s with ⟨_ | _, _⟩ <;> rfl

section

variable {x : ExceptT ε (StateM σ) α} {f : α → ExceptT ε (StateM σ) β} {s s' : σ}

theorem bind_apply_of_ok {a : α} (h : x s = (.ok a, s')) : (x >>= f) s = f a s' := by
  rw [bind_apply, h]

theorem bind_apply_of_error {err : ε} (h : x s = (.error err, s')) :
    (x >>= f) s = (.error err, s') := by
  rw [bind_apply, h]

end

/-- Renaming the result does not matter to the state. -/
theorem bind_pure_apply (x : ExceptT ε (StateM σ) α) (f : α → β) (s : σ) :
    (x >>= fun a => pure (f a)) s = ((x s).1.map f, (x s).2) := by
  rw [bind_apply]
  rcases x s with ⟨_ | _, _⟩ <;> rfl

namespace WordFault

/-! ## Checked arithmetic -/

/-- The fault is a failed access of which `refused` is so, and no overflow. -/
def IsAccess (refused : MemoryError → Prop) : WordFault → Prop
  | .memory err => refused err
  | .overflow => False

theorem lift_apply (x : ExceptT MemoryError (StateM σ) α) (s : σ) :
    lift x s = ((x s).1.mapError .memory, (x s).2) := rfl

theorem lift_of_ok {x : ExceptT MemoryError (StateM σ) α} {a : α} {s s' : σ}
    (h : x s = (.ok a, s')) : lift x s = (.ok a, s') := by
  rw [lift_apply, h]
  rfl

theorem lift_of_error {x : ExceptT MemoryError (StateM σ) α} {err : MemoryError} {s s' : σ}
    (h : x s = (.error err, s')) : lift x s = (.error (.memory err), s') := by
  rw [lift_apply, h]
  rfl

theorem lift_ne_overflow (x : ExceptT MemoryError (StateM σ) α) (s : σ) :
    (lift x s).1 ≠ .error .overflow := by
  rw [lift_apply]
  rcases (x s).1 with err | a <;> exact fun h => by cases h

@[simp] theorem compute_apply (r : Except WordFault α) (s : σ) : compute r s = (r, s) := rfl

variable {a b : UInt32}

theorem add_of_lt (h : a.toNat + b.toNat < UInt32.size) : add a b = .ok (a + b) := if_pos h

theorem add_of_le (h : UInt32.size ≤ a.toNat + b.toNat) : add a b = .error .overflow :=
  if_neg (Nat.not_lt_of_le h)

theorem add_eq_error {fault : WordFault} (h : add a b = .error fault) : fault = .overflow := by
  unfold add at h
  split at h <;> cases h
  rfl

theorem sub_of_le (h : b ≤ a) : sub a b = .ok (a - b) := if_pos h

/-- **Checked sums are exact.** -/
theorem toNat_of_add {c : UInt32} (h : add a b = .ok c) : c.toNat = a.toNat + b.toNat := by
  unfold add at h
  split at h <;> cases h
  rename_i hlt
  rw [UInt32.toNat_add]
  exact Nat.mod_eq_of_lt hlt

/-- **Checked differences are exact.** -/
theorem toNat_of_sub {c : UInt32} (h : sub a b = .ok c) : c.toNat + b.toNat = a.toNat := by
  unfold sub at h
  split at h <;> cases h
  rename_i hle
  rw [UInt32.toNat_sub_of_le a b hle]
  exact Nat.sub_add_cancel (UInt32.le_iff_toNat_le.1 hle)

/-! ### Sizes of strings -/

section

variable {n : Nat}

/-- The size of a string of `n` bytes with its zero byte, if the length is cut to a word, overflows
    at one length. -/
theorem add_one_eq_overflow_iff :
    add n.toUInt32 1 = .error .overflow ↔ n % UInt32.size = UInt32.size - 1 := by
  have hlt : n % UInt32.size < UInt32.size := Nat.mod_lt n (by decide)
  have hvalue : n.toUInt32.toNat = n % UInt32.size := UInt32.toNat_ofNat'
  have hone : (1 : UInt32).toNat = 1 := rfl
  rw [add, hvalue, hone]
  split
  · refine ⟨fun h => (by cases h), fun h => ?_⟩
    omega
  · refine ⟨fun _ => ?_, fun _ => rfl⟩
    omega

theorem add_one_of_eq (h : n + 1 = UInt32.size) : add n.toUInt32 1 = .error .overflow := by
  rw [add_one_eq_overflow_iff, Nat.mod_eq_of_lt (by omega)]
  omega

theorem toNat_add_one (h : n + 1 < UInt32.size) : (n.toUInt32 + 1).toNat = n + 1 := by
  rw [show n.toUInt32 + 1 = (n + 1).toUInt32 from (UInt32.ofNat_add n 1).symm]
  exact UInt32.toNat_ofNat_of_lt' h

theorem add_one_of_lt (h : n + 1 < UInt32.size) : add n.toUInt32 1 = .ok (n.toUInt32 + 1) := by
  refine add_of_lt ?_
  rw [UInt32.toNat_ofNat_of_lt' (Nat.lt_of_succ_lt h)]
  exact h

end

end WordFault

end WasmHost
