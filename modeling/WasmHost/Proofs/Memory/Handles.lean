import WasmHost.Memory.Arena

set_option autoImplicit false

/-! # Handles of memories

Each installation of a memory issues a handle with the next number (`MemoryArena.Issues`). Only the
handle that has been issued last names a memory, namely the one that is active; every other handle
is stale, also if the memory that it was issued for is active again.

The main result is `MemoryArena.handles_exact`, for any sequence of installations. -/

namespace WasmHost

variable {μ : Type}

namespace MemoryArena

/-- The handle has been issued: they are numbered from 1 on. -/
def Issued (a : MemoryArena μ) (handle : MemoryHandle) : Prop :=
  0 < handle.generation ∧ handle.generation ≤ a.generation

/-- Memories are installed one after the other, and these are the handles that are issued. -/
inductive Issues : MemoryArena μ → List MemoryHandle → MemoryArena μ → Prop where
  | nil (a : MemoryArena μ) : Issues a [] a
  | install {a a' : MemoryArena μ} {handles : List MemoryHandle} (memory : μ) (owner : String)
      (h : Issues (a.install memory owner) handles a') : Issues a (a.nextHandle :: handles) a'

/-- The memory has been installed last, under the name and with the handle. -/
structure Latest (a : MemoryArena μ) (memory : μ) (owner : String) (handle : MemoryHandle) :
    Prop where
  active : a.active = .ok memory
  owner : a.owner? = some owner
  latest : a.handle? = some handle
  named : a.get handle = .ok memory

variable {a a' a'' : MemoryArena μ} {handles handles' : List MemoryHandle} {handle : MemoryHandle}

theorem Issues.append (h : a.Issues handles a') (h' : a'.Issues handles' a'') :
    a.Issues (handles ++ handles') a'' := by
  induction h with
  | nil => exact h'
  | install memory owner _ ih => exact .install memory owner (ih h')

theorem Issues.generation_le (h : a.Issues handles a') : a.generation ≤ a'.generation := by
  induction h with
  | nil => exact Nat.le_refl _
  | install _ _ _ ih => exact Nat.le_of_succ_le ih

/-- The handles that are issued follow those that have been issued before. -/
theorem Issues.mem_iff (h : a.Issues handles a') :
    handle ∈ handles ↔ a.generation < handle.generation ∧ handle.generation ≤ a'.generation := by
  induction h with
  | nil a => simp only [List.not_mem_nil, false_iff]; omega
  | @install a a' handles memory owner h ih =>
      have hle : a.generation + 1 ≤ a'.generation := h.generation_le
      have hnext : handle = a.nextHandle ↔ handle.generation = a.generation + 1 := by
        rcases handle with ⟨generation⟩
        exact MemoryHandle.mk.injEq _ _ ▸ Iff.rfl
      have hinstall : (a.install memory owner).generation = a.generation + 1 := rfl
      rw [List.mem_cons, ih, hnext, hinstall]
      omega

/-- Handles are issued in increasing order. -/
theorem Issues.pairwise (h : a.Issues handles a') :
    handles.Pairwise fun earlier later => earlier.generation < later.generation := by
  induction h with
  | nil => exact .nil
  | install memory owner h ih =>
      refine List.pairwise_cons.2 ⟨fun later hlater => ?_, ih⟩
      exact (h.mem_iff.1 hlater).1

/-- The handles that have been issued are those of all installations. -/
theorem Issues.issued_iff (h : (empty : MemoryArena μ).Issues handles a) :
    a.Issued handle ↔ handle ∈ handles :=
  h.mem_iff.symm

theorem Issues.eq_of_nil (h : a.Issues [] a') : a' = a := by
  cases h
  rfl

theorem latest_install (a : MemoryArena μ) (memory : μ) (owner : String) :
    (a.install memory owner).Latest memory owner a.nextHandle :=
  ⟨rfl, rfl, rfl, if_pos rfl⟩

/-- Only the latest handle names a memory. -/
theorem Latest.get_of_ne {memory : μ} {owner : String} (h : a.Latest memory owner handle)
    {earlier : MemoryHandle} (hne : earlier ≠ handle) :
    a.get earlier = .error (.staleHandle earlier) := by
  obtain ⟨latest, hlatest, rfl⟩ := Option.map_eq_some_iff.1 h.latest
  rw [get, hlatest]
  exact if_neg hne.symm

/-- The handle of one more memory is new, and no other handle names a memory then. -/
theorem Issues.stale_of_install (h : a.Issues handles a') (memory : μ) (owner : String)
    {earlier : MemoryHandle} (hearlier : a.Issued earlier ∨ earlier ∈ handles) :
    earlier.generation < a'.nextHandle.generation
      ∧ (a'.install memory owner).get earlier = .error (.staleHandle earlier) := by
  have hle : earlier.generation ≤ a'.generation := by
    rcases hearlier with hissued | hmem
    · exact Nat.le_trans hissued.2 h.generation_le
    · exact (h.mem_iff.1 hmem).2
  have hlt : earlier.generation < a'.nextHandle.generation := Nat.lt_succ_of_le hle
  exact ⟨hlt, (latest_install a' memory owner).get_of_ne fun heq =>
    absurd (heq ▸ hlt) (Nat.lt_irrefl _)⟩

/-! ## Sequences of installations -/

/-- Memories are installed one after the other: the handles that are issued, and the arena after
    them. -/
def installAll (a : MemoryArena μ) : List (μ × String) → List MemoryHandle × MemoryArena μ
  | [] => ([], a)
  | (memory, owner) :: installs =>
      (a.nextHandle :: ((a.install memory owner).installAll installs).1,
        ((a.install memory owner).installAll installs).2)

variable {installs : List (μ × String)}

theorem installAll_issues (a : MemoryArena μ) (installs : List (μ × String)) :
    a.Issues (a.installAll installs).1 (a.installAll installs).2 := by
  induction installs generalizing a with
  | nil => exact .nil a
  | cons install installs ih =>
      obtain ⟨memory, owner⟩ := install
      exact .install memory owner (ih (a.install memory owner))

theorem installAll_append (a : MemoryArena μ) (installs installs' : List (μ × String)) :
    a.installAll (installs ++ installs')
      = ((a.installAll installs).1 ++ ((a.installAll installs).2.installAll installs').1,
          ((a.installAll installs).2.installAll installs').2) := by
  induction installs generalizing a with
  | nil => rfl
  | cons install installs ih =>
      obtain ⟨memory, owner⟩ := install
      simp only [List.cons_append, installAll, ih]

theorem length_installAll (a : MemoryArena μ) (installs : List (μ × String)) :
    (a.installAll installs).1.length = installs.length := by
  induction installs generalizing a with
  | nil => rfl
  | cons install installs ih =>
      obtain ⟨memory, owner⟩ := install
      simp only [installAll, List.length_cons, ih]

theorem generation_installAll (a : MemoryArena μ) (installs : List (μ × String)) :
    (a.installAll installs).2.generation = a.generation + installs.length := by
  induction installs generalizing a with
  | nil => rfl
  | cons install installs ih =>
      obtain ⟨memory, owner⟩ := install
      simp only [installAll, List.length_cons, ih, MemoryArena.install]
      omega

/-- The handles of the first installations are the first handles. -/
theorem take_installAll (a : MemoryArena μ) (installs : List (μ × String)) (k : Nat) :
    (a.installAll installs).1.take k = (a.installAll (installs.take k)).1 := by
  induction installs generalizing a k with
  | nil => simp [installAll]
  | cons install installs ih =>
      obtain ⟨memory, owner⟩ := install
      cases k with
      | zero => rfl
      | succ k => simp only [installAll, List.take_succ_cons, ih]

/-- What an arena knows after the installations. -/
structure Answers (installs : List (μ × String)) (handles : List MemoryHandle)
    (a : MemoryArena μ) : Prop where
  /-- The memory that has been installed last is active. -/
  active_eq_ok_iff (memory : μ) :
    a.active = .ok memory ↔ (installs.map Prod.fst).getLast? = some memory
  active_eq_error_iff (err : MemoryError) :
    a.active = .error err ↔ installs = [] ∧ err = .noActiveMemory
  /-- The handle that has been issued last names the memory that has been installed with it. -/
  get_eq_ok_iff (handle : MemoryHandle) (memory : μ) :
    a.get handle = .ok memory
      ↔ handles.getLast? = some handle ∧ (installs.map Prod.fst).getLast? = some memory
  /-- Any other handle is stale, and the error names it. -/
  get_eq_error_iff (handle : MemoryHandle) (err : MemoryError) :
    a.get handle = .error err ↔ handles.getLast? ≠ some handle ∧ err = .staleHandle handle

theorem answers_empty : Answers [] [] (empty : MemoryArena μ) where
  active_eq_ok_iff memory := by simp [active, empty]
  active_eq_error_iff err := by simp [active, empty, eq_comm]
  get_eq_ok_iff handle memory := by simp [get, empty]
  get_eq_error_iff handle err := by simp [get, empty, eq_comm]

/-- After an installation everything is known from the latest one. -/
theorem answers_install (a : MemoryArena μ) (installs : List (μ × String))
    (handles : List MemoryHandle) (memory : μ) (owner : String) :
    Answers (installs ++ [(memory, owner)]) (handles ++ [a.nextHandle])
      (a.install memory owner) := by
  have hlatest := latest_install a memory owner
  refine ⟨fun memory' => ?_, fun err => ?_, fun handle memory' => ?_, fun handle err => ?_⟩
  · simp [hlatest.active]
  · simp [hlatest.active]
  · by_cases hhandle : handle = a.nextHandle
    · simp [hhandle, hlatest.named]
    · simp [hlatest.get_of_ne hhandle, Ne.symm hhandle]
  · by_cases hhandle : handle = a.nextHandle
    · simp [hhandle, hlatest.named]
    · simp [hlatest.get_of_ne hhandle, Ne.symm hhandle, eq_comm (a := err)]

theorem answers_installAll (installs : List (μ × String)) :
    Answers installs ((empty : MemoryArena μ).installAll installs).1
      ((empty : MemoryArena μ).installAll installs).2 := by
  rcases List.eq_nil_or_concat installs with rfl | ⟨earlier, ⟨memory, owner⟩, rfl⟩
  · exact answers_empty
  · rw [List.concat_eq_append, installAll_append]
    exact answers_install _ earlier _ memory owner

/-- What is known of a sequence of installations and the handles that they issue. -/
structure History (installs : List (μ × String)) (handles : List MemoryHandle) : Prop where
  length_eq : handles.length = installs.length
  increasing : handles.Pairwise fun earlier later => earlier.generation < later.generation
  distinct : handles.Nodup
  /-- The numbers of fewer than 2⁶⁴ installations are 64-bit words. -/
  lt_size (h : installs.length < UInt64.size) : ∀ handle ∈ handles, handle.generation < UInt64.size
  /-- What the arena knows after the first installations. -/
  answers (k : Nat) :
    Answers (installs.take k) (handles.take k)
      ((empty : MemoryArena μ).installAll (installs.take k)).2

/-- **The handle that has been issued last names the active memory, and every other handle is
    stale.** This holds at every moment of any sequence of installations, whose handles increase. -/
theorem handles_exact (installs : List (μ × String)) :
    History installs ((empty : MemoryArena μ).installAll installs).1 := by
  have hissues := installAll_issues (empty : MemoryArena μ) installs
  have hincreasing := hissues.pairwise
  refine ⟨length_installAll _ installs, hincreasing, ?_, fun h handle hhandle => ?_, fun k => ?_⟩
  · exact hincreasing.imp fun hlt heq => absurd (heq ▸ hlt) (Nat.lt_irrefl _)
  · have hle := (hissues.issued_iff.2 hhandle).2
    rw [generation_installAll, show (empty : MemoryArena μ).generation = 0 from rfl] at hle
    omega
  · rw [take_installAll]
    exact answers_installAll (installs.take k)

/-- The first memory is installed again after another one: it is active, but its first handle is
    stale. -/
theorem handles_exact_same_memory :
    let done := (empty : MemoryArena Nat).installAll [(0, "host"), (1, "lib.wasm"), (0, "host")]
    done.1 = [⟨1⟩, ⟨2⟩, ⟨3⟩] ∧ done.2.active = .ok 0 ∧ done.2.get ⟨3⟩ = .ok 0
      ∧ done.2.get ⟨1⟩ = .error (.staleHandle ⟨1⟩) := by
  intro done
  have hanswers :=
    (handles_exact [((0 : Nat), "host"), (1, "lib.wasm"), (0, "host")]).answers 3
  refine ⟨rfl, (hanswers.active_eq_ok_iff 0).2 rfl, (hanswers.get_eq_ok_iff ⟨3⟩ 0).2 ⟨rfl, rfl⟩, ?_⟩
  exact (hanswers.get_eq_error_iff ⟨1⟩ _).2 ⟨by decide, rfl⟩

end MemoryArena

end WasmHost
