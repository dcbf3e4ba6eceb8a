import Mathlib.Data.Finset.Card
import Mathlib.Order.Bounds.Basic
import WasmHost.Descriptors

set_option autoImplicit false

/-! # The set of open descriptors

The table of descriptors is a set of numbers below 256. Opening puts the least number into it that
is not there, closing takes a number out, and nothing else changes it (`SetStep`). The step of the
table is a step of the set (`Descriptors.perform_step`), and so a sequence of uses of the table is a
run of the set, from the three standard streams on. -/

namespace WasmHost

namespace Descriptors

variable {d d' : Descriptors} {fd : Int}

/-- The descriptors that are open. -/
def openSet (d : Descriptors) : Finset ℕ :=
  (Finset.range count).filter fun n => d.slots[n]? = some true

theorem mem_openSet {n : ℕ} : n ∈ d.openSet ↔ d.slots[n]? = some true := by
  rw [openSet, Finset.mem_filter, and_iff_right_iff_imp, Finset.mem_range]
  intro h
  exact (Vector.getElem?_eq_some_iff.1 h).1

theorem mem_openSet_val {i : Fin count} : i.val ∈ d.openSet ↔ d.slots[i] = true := by
  rw [mem_openSet, Vector.getElem?_eq_some_iff]
  exact ⟨fun ⟨_, h⟩ => h, fun h => ⟨i.isLt, h⟩⟩

theorem lt_of_mem_openSet {n : ℕ} (h : n ∈ d.openSet) : n < count :=
  Finset.mem_range.1 (Finset.mem_filter.1 h).1

/-- Setting a flag changes one member. -/
theorem mem_openSet_set {i : Fin count} {flag : Bool} {n : ℕ} :
    n ∈ openSet ⟨d.slots.set i flag⟩ ↔ if n = i then flag = true else n ∈ d.openSet := by
  rw [mem_openSet, mem_openSet, Vector.getElem?_set]
  by_cases hn : i.val = n
  · rw [if_pos hn, if_pos hn.symm, Option.some_inj]
  · rw [if_neg hn, if_neg (Ne.symm hn)]

/-- The standard streams are open at first. -/
theorem openSet_initial : initial.openSet = {0, 1, 2} := by
  ext n
  rw [mem_openSet, initial, Vector.getElem?_ofFn]
  split
  · simp only [Option.some_inj, decide_eq_true_iff, Finset.mem_insert, Finset.mem_singleton]
    omega
  · simp only [reduceCtorEq, false_iff, Finset.mem_insert, Finset.mem_singleton]
    omega

/-! ## Single uses -/

theorem slot?_eq_some {i : Fin count} : slot? fd = some i ↔ fd = i.val := by
  rw [slot?]
  split
  · rw [Option.some_inj, Fin.ext_iff]
    show fd.toNat = i.val ↔ _
    omega
  · have hi := i.isLt
    simp only [reduceCtorEq, false_iff]
    omega

/-- A number without a slot is no open descriptor. -/
theorem ne_of_slot?_eq_none (h : slot? fd = none) : ∀ n ∈ d.openSet, fd ≠ n := by
  intro n hn hfd
  have hslot : slot? fd = some ⟨n, lt_of_mem_openSet hn⟩ := slot?_eq_some.2 hfd
  rw [h] at hslot
  cases hslot

/-- **Being open is being a member.** -/
theorem isOpen_iff : d.isOpen fd = true ↔ ∃ n ∈ d.openSet, fd = n := by
  rw [isOpen]
  cases hslot : slot? fd with
  | none =>
      refine iff_of_false Bool.false_ne_true ?_
      rintro ⟨n, hn, hfd⟩
      exact ne_of_slot?_eq_none hslot n hn hfd
  | some i =>
      obtain rfl := slot?_eq_some.1 hslot
      simp only [Int.natCast_inj]
      rw [exists_eq_right', mem_openSet_val]

/-- Negative numbers and numbers from 256 on are never open. -/
theorem isOpen_eq_false (h : fd < 0 ∨ 255 < fd) : d.isOpen fd = false := by
  rw [Bool.eq_false_iff, Ne, isOpen_iff]
  rintro ⟨n, hn, rfl⟩
  have hlt : n < 256 := lt_of_mem_openSet hn
  omega

/-- The least number that is not open is opened. -/
theorem openLowest_eq_some {i : Fin count} (h : d.openLowest = some (i, d')) :
    IsLeast {n | n < count ∧ n ∉ d.openSet} i ∧ d'.openSet = insert i.val d.openSet := by
  rw [openLowest, Option.map_eq_some_iff] at h
  obtain ⟨i', hfind, hpair⟩ := h
  cases hpair
  rw [lowestFree?, List.find?_eq_some_iff_getElem] at hfind
  obtain ⟨hfree, k, hk, hget, hbefore⟩ := hfind
  rw [List.getElem_finRange] at hget
  have hk : i.val = k := congrArg Fin.val hget.symm
  refine ⟨⟨⟨i.isLt, fun hmem => ?_⟩, ?_⟩, ?_⟩
  · rw [mem_openSet_val.1 hmem] at hfree
    cases hfree
  · rintro n ⟨hn, hnot⟩
    refine Nat.le_of_not_lt fun hlt => hnot ?_
    have hopen := hbefore n (hk ▸ hlt)
    rw [List.getElem_finRange, Bool.not_not] at hopen
    exact (mem_openSet_val (i := ⟨n, hn⟩)).2 hopen
  · ext n
    rw [mem_openSet_set, Finset.mem_insert]
    split <;> simp_all

/-- Opening fails if all descriptors are open. -/
theorem openLowest_eq_none (h : d.openLowest = none) : ∀ n < count, n ∈ d.openSet := by
  rw [openLowest, Option.map_eq_none_iff, lowestFree?, List.find?_eq_none] at h
  intro n hn
  have hset := h ⟨n, hn⟩ (List.mem_finRange _)
  rw [Bool.not_eq_true', Bool.not_eq_false] at hset
  exact mem_openSet_val.2 hset

/-- A member is closed, and that one only. -/
theorem close_eq_some (h : d.close fd = some d') :
    ∃ n ∈ d.openSet, fd = n ∧ d'.openSet = d.openSet.erase n := by
  rw [close] at h
  split at h
  case h_2 => cases h
  case h_1 i hslot =>
    split at h <;> cases h
    rename_i hopen
    refine ⟨i, mem_openSet_val.2 hopen, slot?_eq_some.1 hslot, ?_⟩
    ext n
    rw [mem_openSet_set, Finset.mem_erase]
    split <;> simp_all

/-- Closing fails for everything else. -/
theorem close_eq_none (h : d.close fd = none) : ∀ n ∈ d.openSet, fd ≠ n := by
  rw [close] at h
  split at h
  case h_2 hslot => exact ne_of_slot?_eq_none hslot
  case h_1 i hslot =>
    split at h
    case isTrue => cases h
    case isFalse hclosed =>
      rintro n hn hfd
      obtain rfl : i.val = n := Int.natCast_inj.1 ((slot?_eq_some.1 hslot).symm.trans hfd)
      exact hclosed (mem_openSet_val.1 hn)

end Descriptors

/-! ## Sequences of uses -/

/-- What the table is asked for. -/
inductive DescriptorUse where
  | openLowest
  | close (fd : Int32)
  | isOpen (fd : Int32)
deriving DecidableEq

/-- A use of the table and how it ended. -/
inductive DescriptorEvent where
  | opened (n : ℕ)
  /-- Nothing could be opened. -/
  | full
  | closed (fd : Int32)
  /-- There was nothing to close. -/
  | notOpen (fd : Int32)
  | asked (fd : Int32) (answer : Bool)
deriving DecidableEq

/-- The use that ended so. -/
def DescriptorEvent.use : DescriptorEvent → DescriptorUse
  | opened _ | full => .openLowest
  | closed fd | notOpen fd => .close fd
  | asked fd _ => .isOpen fd

/-- Whether the event put a number into the set. -/
def DescriptorEvent.isOpened : DescriptorEvent → Bool
  | opened _ => true
  | _ => false

/-- Whether the event took a number out of the set. -/
def DescriptorEvent.isClosed : DescriptorEvent → Bool
  | closed _ => true
  | _ => false

/-- One use of the table. -/
def Descriptors.perform (d : Descriptors) : DescriptorUse → DescriptorEvent × Descriptors
  | .openLowest =>
      match d.openLowest with
      | some (i, d') => (.opened i, d')
      | none => (.full, d)
  | .close fd =>
      match d.close fd.toInt with
      | some d' => (.closed fd, d')
      | none => (.notOpen fd, d)
  | .isOpen fd => (.asked fd (d.isOpen fd.toInt), d)

/-- Uses of the table one after the other. -/
def Descriptors.performAll (d : Descriptors) :
    List DescriptorUse → List DescriptorEvent × Descriptors
  | [] => ([], d)
  | use :: uses =>
      ((d.perform use).1 :: ((d.perform use).2.performAll uses).1,
        ((d.perform use).2.performAll uses).2)

/-- What the events do to a set, and when they occur. -/
inductive SetStep : Finset ℕ → DescriptorEvent → Finset ℕ → Prop where
  | opened {s : Finset ℕ} {n : ℕ} (h : IsLeast {n | n < 256 ∧ n ∉ s} n) :
      SetStep s (.opened n) (insert n s)
  | full {s : Finset ℕ} (h : ∀ n < 256, n ∈ s) : SetStep s .full s
  | closed {s : Finset ℕ} {n : ℕ} {fd : Int32} (h : n ∈ s) (hfd : fd.toInt = n) :
      SetStep s (.closed fd) (s.erase n)
  | notOpen {s : Finset ℕ} {fd : Int32} (h : ∀ n ∈ s, fd.toInt ≠ n) : SetStep s (.notOpen fd) s
  | asked {s : Finset ℕ} {fd : Int32} {answer : Bool}
      (h : answer = true ↔ ∃ n ∈ s, fd.toInt = n) : SetStep s (.asked fd answer) s

/-- Events one after the other. -/
inductive SetRun : Finset ℕ → List DescriptorEvent → Finset ℕ → Prop where
  | nil (s : Finset ℕ) : SetRun s [] s
  | cons {s t u : Finset ℕ} {event : DescriptorEvent} {events : List DescriptorEvent}
      (hstep : SetStep s event t) (hrest : SetRun t events u) : SetRun s (event :: events) u

namespace Descriptors

/-- **One use of the table** is one step of the set of open descriptors. -/
theorem perform_step (d : Descriptors) (use : DescriptorUse) :
    SetStep d.openSet (d.perform use).1 (d.perform use).2.openSet
      ∧ (d.perform use).1.use = use := by
  cases use with
  | openLowest =>
      rw [perform]
      rcases hopen : d.openLowest with _ | ⟨i, d'⟩
      · exact ⟨.full (openLowest_eq_none hopen), rfl⟩
      · obtain ⟨hleast, hset⟩ := openLowest_eq_some hopen
        dsimp only
        rw [hset]
        exact ⟨.opened hleast, rfl⟩
  | close fd =>
      rw [perform]
      rcases hclose : d.close fd.toInt with _ | d'
      · exact ⟨.notOpen (close_eq_none hclose), rfl⟩
      · obtain ⟨n, hn, hfd, hset⟩ := close_eq_some hclose
        dsimp only
        rw [hset]
        exact ⟨.closed hn hfd, rfl⟩
  | isOpen fd => exact ⟨.asked isOpen_iff, rfl⟩

/-- **Any uses of the table** are a run of the set, with one event for each use. -/
theorem performAll_run (d : Descriptors) (uses : List DescriptorUse) :
    SetRun d.openSet (d.performAll uses).1 (d.performAll uses).2.openSet
      ∧ (d.performAll uses).1.map DescriptorEvent.use = uses := by
  induction uses generalizing d with
  | nil => exact ⟨.nil _, rfl⟩
  | cons use uses ih =>
      obtain ⟨hstep, huse⟩ := d.perform_step use
      obtain ⟨hrest, huses⟩ := ih (d.perform use).2
      refine ⟨.cons hstep hrest, ?_⟩
      rw [performAll, List.map_cons, huse, huses]

theorem performAll_append (d : Descriptors) (uses uses' : List DescriptorUse) :
    d.performAll (uses ++ uses')
      = ((d.performAll uses).1 ++ ((d.performAll uses).2.performAll uses').1,
          ((d.performAll uses).2.performAll uses').2) := by
  induction uses generalizing d with
  | nil => rfl
  | cons use uses ih =>
      rw [List.cons_append, performAll, ih]
      rfl

end Descriptors

/-! ## What follows for sets -/

namespace SetRun

variable {s t u : Finset ℕ} {events : List DescriptorEvent}

theorem of_append {later : List DescriptorEvent} (h : SetRun s (events ++ later) u) :
    ∃ t, SetRun s events t ∧ SetRun t later u := by
  induction events generalizing s with
  | nil => exact ⟨s, .nil s, h⟩
  | cons event events ih =>
      cases h with
      | cons hstep hrest =>
          obtain ⟨t, hfirst, hsecond⟩ := ih hrest
          exact ⟨t, .cons hstep hfirst, hsecond⟩

/-- No number from 256 on is ever put into the set. -/
theorem lt_of_mem (h : SetRun s events u) (hs : ∀ n ∈ s, n < 256) : ∀ n ∈ u, n < 256 := by
  induction h with
  | nil => exact hs
  | cons hstep hrest ih =>
      refine ih ?_
      cases hstep with
      | opened hleast => exact Finset.forall_mem_insert _ _ _ |>.2 ⟨hleast.1.1, hs⟩
      | closed => exact fun n hn => hs n (Finset.mem_of_mem_erase hn)
      | full | notOpen | asked => exact hs

/-- The set grows by what is opened and shrinks by what is closed. -/
theorem card (h : SetRun s events u) :
    u.card + events.countP (·.isClosed) = s.card + events.countP (·.isOpened) := by
  induction h with
  | nil => rfl
  | cons hstep hrest ih =>
      cases hstep with
      | opened hleast =>
          rw [Finset.card_insert_of_notMem hleast.1.2] at ih
          rw [List.countP_cons_of_neg Bool.false_ne_true, List.countP_cons_of_pos rfl]
          omega
      | closed hmem =>
          have hcard := Finset.card_erase_add_one hmem
          rw [List.countP_cons_of_pos rfl, List.countP_cons_of_neg Bool.false_ne_true]
          omega
      | full | notOpen | asked => exact ih

/-- A number stays in the set until it is closed. -/
theorem closed_of_removed (h : SetRun s events u) {n : ℕ} (hs : n ∈ s) (hu : n ∉ u) :
    ∃ fd : Int32, .closed fd ∈ events ∧ fd.toInt = n := by
  induction h with
  | nil => exact absurd hs hu
  | @cons _ t _ _ _ hstep _ ih =>
      by_cases ht : n ∈ t
      · obtain ⟨fd, hmem, hfd⟩ := ih ht hu
        exact ⟨fd, List.mem_cons_of_mem _ hmem, hfd⟩
      cases hstep with
      | opened => exact absurd (Finset.mem_insert_of_mem hs) ht
      | closed _ hfd =>
          obtain rfl : n = _ := by_contra fun hne => ht (Finset.mem_erase.2 ⟨hne, hs⟩)
          exact ⟨_, List.mem_cons_self, hfd⟩
      | full | notOpen | asked => exact absurd hs ht

/-- **Descriptors that are open at the same time differ:** before a number is handed out again it is
    closed. -/
theorem closed_between {earlier between later : List DescriptorEvent} {n : ℕ}
    (h : SetRun s (earlier ++ .opened n :: (between ++ .opened n :: later)) u) :
    ∃ fd : Int32, .closed fd ∈ between ∧ fd.toInt = n := by
  obtain ⟨_, -, hfirst⟩ := h.of_append
  cases hfirst with
  | cons hopen hrest =>
      cases hopen with
      | opened =>
          obtain ⟨t, hbetween, hsecond⟩ := hrest.of_append
          cases hsecond with
          | cons hreopen =>
              cases hreopen with
              | opened hleast =>
                  exact hbetween.closed_of_removed (Finset.mem_insert_self n _) hleast.1.2

end SetRun

/-- What uses of a fresh table end with, and the set of open descriptors after them. -/
structure SetHistory (uses : List DescriptorUse) (events : List DescriptorEvent)
    (final : Finset ℕ) : Prop where
  /-- There is one event for each use. -/
  answered : events.map DescriptorEvent.use = uses
  run : SetRun {0, 1, 2} events final
  lt_of_mem : ∀ n ∈ final, n < 256
  /-- The size of the set is 3 plus what has been opened minus what has been closed. -/
  card : final.card + events.countP (·.isClosed) = 3 + events.countP (·.isOpened)
  /-- A number is handed out again only after it has been closed. -/
  differ (earlier between later : List DescriptorEvent) (n : ℕ)
    (h : events = earlier ++ .opened n :: (between ++ .opened n :: later)) :
    ∃ fd : Int32, .closed fd ∈ between ∧ fd.toInt = n

/-- **The table is a set** that starts with the standard streams. -/
theorem Descriptors.setHistory (uses : List DescriptorUse) :
    SetHistory uses (initial.performAll uses).1 (initial.performAll uses).2.openSet := by
  obtain ⟨hrun, huses⟩ := initial.performAll_run uses
  rw [openSet_initial] at hrun
  exact
    { answered := huses
      run := hrun
      lt_of_mem := hrun.lt_of_mem (by decide)
      card := hrun.card
      differ := fun _ _ _ _ h => SetRun.closed_between (h ▸ hrun) }

end WasmHost
