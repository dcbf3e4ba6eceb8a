import WasmHost.Proofs.Run.Invariant
import WasmHost.Proofs.Run.Transcript

set_option autoImplicit false

/-! # The moments of a run

`Run.Moment` lists the machines that a run goes through while it answers requests: after each
request, at the stages of each load and before and after each call of a stub, at any depth, and
whenever code in between has changed memories, tables and globals.

The main result is `Run.Moment.invariant`: an invariant that holds at the start holds at every
moment. -/

namespace WasmHost

variable {ι : Type}

namespace Run

/-! ## What requests do -/

namespace Request

instance (q : Request ι) (r : Run ι) : Decidable (q.Allowed r) :=
  match q with
  | addStubs _ => inferInstanceAs (Decidable (r.phase = .initializing))
  | loadModules _ => inferInstanceAs (Decidable (r.phase = .loadingStubs))
  | loadMain _ =>
      inferInstanceAs (Decidable (r.phase = .loadingStubs ∨ r.phase = .loadingModules 0))
  | execute => inferInstanceAs (Decidable (r.phase = .loadingMain ∧ r.main.isSome = true))

/-- The calls of stubs that are made while the step is taken. -/
def record (e : Engine ι) (loads : Loads ι) (r : Run ι) : Request ι → List (StubCall ι)
  | addStubs _ => []
  | loadModules names => e.recordStartup loads names.reverse r.machine
  | loadMain name => recordLoad (e.record loads e.callDepth) name r.machine
  | execute =>
      match r.main with
      | some (_, f) =>
          if f.type.params = [] then e.record loads e.callDepth [] f [] r.machine else []
      | none => []

/-- The modules that are loaded for the step itself. -/
def loads (e : Engine ι) (r : Run ι) : Request ι → List (ModuleLoad ι)
  | loadModules names => e.startupLoads names.reverse r.machine
  | loadMain name => [⟨name, e.callDepth, r.machine⟩]
  | _ => []

end Request

namespace Event

/-- The calls of stubs that are made while the request is answered, without those inside them. -/
def record (e : Engine ι) (loads : Loads ι) (ev : Event ι) : List (StubCall ι) :=
  if ev.request.Allowed ev.before then ev.request.record e loads ev.before else []

/-- All loads that are made while the request is answered. -/
def loads (e : Engine ι) (loads : Loads ι) (ev : Event ι) : List (ModuleLoad ι) :=
  (if ev.request.Allowed ev.before then ev.request.loads e ev.before else [])
    ++ loadsIn loads (ev.record e loads)

end Event

/-- The calls of stubs that are made while requests are answered, at any depth. -/
def callsOf (e : Engine ι) (loads : Loads ι) (requests : List (Request ι)) (r : Run ι) :
    List (StubCall ι) :=
  (transcript e requests r).flatMap fun ev => flattenAll (ev.record e loads)

/-- The loads that are made while requests are answered: those of startup modules, of the main
    module, and those that stubs make. -/
def loadsOf (e : Engine ι) (loads : Loads ι) (requests : List (Request ι)) (r : Run ι) :
    List (ModuleLoad ι) :=
  (transcript e requests r).flatMap (Event.loads e loads)

/-- The machines that a run goes through while it answers requests. -/
inductive Moment (e : Engine ι) (loads : Loads ι) (requests : List (Request ι)) (r : Run ι) :
    Machine ι → Prop where
  | start : Moment e loads requests r r.machine
  | answered (ev : Event ι) (h : ev ∈ transcript e requests r) :
      Moment e loads requests r ev.after.machine
  /-- A module is to be loaded. -/
  | load (l : ModuleLoad ι) (h : l ∈ loadsOf e loads requests r) : Moment e loads requests r l.before
  | requested (l : ModuleLoad ι) (h : l ∈ loadsOf e loads requests r) :
      Moment e loads requests r l.requested
  /-- The instance has been made; its segments are not yet written. -/
  | allocated (l : ModuleLoad ι) (h : l ∈ loadsOf e loads requests r) (w : WasmModule)
      (items : List (Item ι)) (haccept : l.accepted = .ok (w, items)) :
      Moment e loads requests r (l.requested.allocating w items)
  | loaded (l : ModuleLoad ι) (h : l ∈ loadsOf e loads requests r) :
      Moment e loads requests r (l.run e).2
  /-- A stub is called. -/
  | call (c : StubCall ι) (h : c ∈ callsOf e loads requests r) : Moment e loads requests r c.before
  | replied (c : StubCall ι) (h : c ∈ callsOf e loads requests r) :
      Moment e loads requests r (c.run e).2
  /-- Code has run that calls nothing. -/
  | quiet (m m' : Machine ι) (h : Moment e loads requests r m) (hquiet : m.Quiet m') :
      Moment e loads requests r m'

/-! ## Invariants of runs -/

variable {e : Engine ι} {loads : Loads ι} {admitted : ModuleLoad ι → Prop} {P : Machine ι → Prop}

/-- **One request.** A property that every step preserves holds while the request is answered and
    afterwards. -/
theorem Request.perform_holds (he : e.stubs.Lawful) (hP : e.Preserves loads admitted P)
    (q : Request ι) {r : Run ι} (hq : q.Allowed r) (htop : ∀ l ∈ q.loads e r, admitted l)
    (hadmitted : ∀ l ∈ loadsIn loads (q.record e loads r), admitted l) (hr : P r.machine) :
    e.Holds loads P (q.record e loads r) ∧ (∀ l ∈ q.loads e r, l.Holds e P)
      ∧ P (q.perform e r).2.machine := by
  cases q with
  | addStubs libs =>
      rw [perform, bind_apply_of_ok (addStubs_apply libs hq)]
      exact ⟨.nil, fun _ h => absurd h List.not_mem_nil, hP.linking _ libs hr⟩
  | loadModules names =>
      obtain ⟨hcalls, hloads, hafter⟩ := hP.startup he htop hadmitted hr
      refine ⟨hcalls, hloads, ?_⟩
      obtain ⟨r', hr', hmachine, -⟩ := loadModules_apply e names hq
      rw [perform, bind_apply, hr']
      rw [← hmachine] at hafter
      rcases (e.startup names.reverse r.machine).1 with err | loaded <;> exact hafter
  | loadMain name =>
      obtain ⟨hcalls, hload⟩ := hP.load he ⟨name, e.callDepth, r.machine⟩
        (htop _ List.mem_cons_self) hadmitted hr
      refine ⟨hcalls, List.forall_mem_singleton.2 hload, ?_⟩
      have hafter : P (e.load name r.machine).2 := hload.after
      rw [perform, bind_apply, loadMain_apply e name hq]
      rw [← e.prepareMain_machine] at hafter
      rcases hprepare : e.prepareMain name r.machine with ⟨err | found, m⟩ <;>
        rw [hprepare] at hafter <;> exact hafter
  | execute =>
      obtain ⟨hphase, hsome⟩ := hq
      obtain ⟨⟨loaded, f⟩, hmain⟩ := Option.isSome_iff_exists.1 hsome
      rw [perform, bind_apply, execute_apply e hphase hmain, Engine.execute_apply]
      simp only [record, hmain] at hadmitted ⊢
      -- an entry point with parameters cannot be called at all
      by_cases hparams : f.type.params = []
      · rw [if_pos hparams] at hadmitted ⊢
        obtain ⟨hcalls, hafter⟩ := hP.invoke he hadmitted hr
        rw [Engine.call_of_params hparams]
        exact ⟨hcalls, fun _ h => absurd h List.not_mem_nil, hP.reporting _ _ hafter⟩
      · rw [if_neg hparams] at hadmitted ⊢
        rw [Engine.call_of_params_ne hparams]
        exact ⟨.nil, fun _ h => absurd h List.not_mem_nil, hP.reporting _ _ hr⟩

/-- What holds of the events of a transcript. -/
structure Event.Holds (e : Engine ι) (loads : Loads ι) (P : Machine ι → Prop) (ev : Event ι) :
    Prop where
  calls : ∀ c ∈ flattenAll (ev.record e loads), P c.before ∧ P (c.run e).2
  loads : ∀ l ∈ ev.loads e loads, l.Holds e P
  after : P ev.after.machine

theorem Event.holds_perform (he : e.stubs.Lawful) (hP : e.Preserves loads admitted P)
    (q : Request ι) {r : Run ι}
    (hadmitted : ∀ l ∈ Event.loads e loads ⟨r, q, (q.perform e r).1, (q.perform e r).2⟩, admitted l)
    (hr : P r.machine) : Event.Holds e loads P ⟨r, q, (q.perform e r).1, (q.perform e r).2⟩ := by
  rw [Event.loads, List.forall_mem_append] at hadmitted
  by_cases hq : q.Allowed r
  · simp only [Event.record, if_pos hq] at hadmitted
    obtain ⟨hcalls, htop, hafter⟩ := q.perform_holds he hP hq hadmitted.1 hadmitted.2 hr
    refine ⟨?_, ?_, hafter⟩
    · simp only [Event.record, if_pos hq]
      exact hcalls.calls
    · simp only [Event.loads, Event.record, if_pos hq]
      exact List.forall_mem_append.2 ⟨htop, hcalls.loads⟩
  · refine ⟨?_, ?_, ?_⟩
    · simp only [Event.record, if_neg hq]
      exact fun _ h => absurd h List.not_mem_nil
    · simp only [Event.loads, Event.record, if_neg hq]
      exact fun _ h => absurd h List.not_mem_nil
    · rw [perform_of_not_allowed e hq]
      exact hr

theorem holds_of_mem_transcript (he : e.stubs.Lawful) (hP : e.Preserves loads admitted P)
    {requests : List (Request ι)} {r : Run ι}
    (hadmitted : ∀ l ∈ loadsOf e loads requests r, admitted l) (hr : P r.machine) :
    ∀ ev ∈ transcript e requests r, ev.Holds e loads P := by
  induction requests generalizing r with
  | nil => exact fun _ h => absurd h List.not_mem_nil
  | cons q requests ih =>
      rw [loadsOf, transcript, List.flatMap_cons, List.forall_mem_append] at hadmitted
      have hq := Event.holds_perform he hP q hadmitted.1 hr
      rw [transcript]
      exact List.forall_mem_cons.2 ⟨hq, ih hadmitted.2 hq.after⟩

/-- **An invariant holds at every moment** if it holds at the start and every load is admitted. -/
theorem Moment.invariant (he : e.stubs.Lawful) (hP : e.Preserves loads admitted P)
    {requests : List (Request ι)} {r : Run ι}
    (hadmitted : ∀ l ∈ loadsOf e loads requests r, admitted l) (hr : P r.machine) {m : Machine ι}
    (hm : Moment e loads requests r m) : P m := by
  have hevents := holds_of_mem_transcript he hP hadmitted hr
  have hload {l : ModuleLoad ι} (h : l ∈ loadsOf e loads requests r) : l.Holds e P := by
    obtain ⟨ev, hev, hl⟩ := List.mem_flatMap.1 h
    exact (hevents ev hev).loads l hl
  have hcall {c : StubCall ι} (h : c ∈ callsOf e loads requests r) :
      P c.before ∧ P (c.run e).2 := by
    obtain ⟨ev, hev, hc⟩ := List.mem_flatMap.1 h
    exact (hevents ev hev).calls c hc
  induction hm with
  | start => exact hr
  | answered ev h => exact (hevents ev h).after
  | load l h => exact (hload h).before
  | requested l h => exact (hload h).requested
  | allocated l h w items haccept => exact (hload h).allocated w items haccept
  | loaded l h => exact (hload h).after
  | call c h => exact (hcall h).1
  | replied c h => exact (hcall h).2
  | quiet m m' _ hquiet ih => exact hP.quiet hquiet ih

end Run

end WasmHost
