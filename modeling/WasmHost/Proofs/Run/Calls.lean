import WasmHost.Proofs.Run.Moments

set_option autoImplicit false

/-! # The calls of a run

A run answers one request after the other and goes on when a request has failed. So a property of
stretches of a run, which does not ask how a stretch ends, holds of the run with all its calls if it
holds of calm steps and of single calls (`Run.callsOf_trace`). -/

namespace WasmHost

variable {ι : Type}

/-- A property of the machine at the start of a stretch, of the calls in it, and of the machine at
    its end. -/
abbrev Stretch (ι : Type) := Machine ι → List (StubCall ι) → Machine ι → Prop

/-- The property as one of runs, whether they fail or not. -/
def Stretch.trace (K : Stretch ι) : Trace ι (StubCall ι) := fun m cs _ m' => K m cs m'

/-- The property holds of calm steps and of a report, and of stretches one after the other. -/
structure Stretch.Steady (K : Stretch ι) : Prop where
  calm {m m' : Machine ι} (h : m.Calm m') : K m [] m'
  reporting (m : Machine ι) (outcome : Outcome) : K m [] (m.reporting outcome)
  append {m m' m'' : Machine ι} {cs ds : List (StubCall ι)} (h : K m cs m') (h' : K m' ds m'') :
    K m (cs ++ ds) m''

theorem Stretch.Steady.trace {K : Stretch ι} (hK : K.Steady) : K.trace.Steady where
  calm _ h := hK.calm h
  append := hK.append

namespace Run

variable {e : Engine ι} {loads : Loads ι} {K : Stretch ι}

/-- **One request.** The calls that are made while it is answered are a stretch of the run. -/
theorem Request.perform_trace (hK : K.Steady) (hstubs : e.TracesStubs loads K.trace)
    (q : Request ι) {r : Run ι} (hq : q.Allowed r) :
    K r.machine (q.record e loads r) (q.perform e r).2.machine := by
  cases q with
  | addStubs libs =>
      rw [perform, bind_apply_of_ok (addStubs_apply libs hq)]
      exact hK.calm ⟨rfl, rfl, rfl, rfl, rfl, rfl⟩
  | loadModules names =>
      obtain ⟨_, htrace, -⟩ := Engine.startup_trace hK.trace hstubs names.reverse r.machine
      obtain ⟨r', hr', hmachine, -⟩ := loadModules_apply e names hq
      rw [perform, bind_apply, hr']
      rw [← hmachine] at htrace
      rcases (e.startup names.reverse r.machine).1 with err | loaded <;> exact htrace
  | loadMain name =>
      obtain ⟨_, htrace, -⟩ := Engine.load_trace hK.trace hstubs name r.machine
      rw [perform, bind_apply, loadMain_apply e name hq]
      rw [← e.prepareMain_machine] at htrace
      rcases hprepare : e.prepareMain name r.machine with ⟨err | found, m⟩ <;>
        rw [hprepare] at htrace <;> exact htrace
  | execute =>
      obtain ⟨hphase, hsome⟩ := hq
      obtain ⟨⟨loaded, f⟩, hmain⟩ := Option.isSome_iff_exists.1 hsome
      rw [perform, bind_apply, execute_apply e hphase hmain, Engine.execute_apply]
      simp only [record, hmain]
      by_cases hparams : f.type.params = []
      · have htrace := Engine.invoke_traces hK.trace.sequential hstubs e.callDepth [] f [] r.machine
        rw [if_pos hparams, Engine.call_of_params hparams,
          ← List.append_nil (e.record loads e.callDepth [] f [] r.machine)]
        exact hK.append htrace (hK.reporting _ _)
      · rw [if_neg hparams, Engine.call_of_params_ne hparams]
        exact hK.reporting _ _

/-- **A steady property of single calls is one of whole runs.** -/
theorem callsOf_trace (hK : K.Steady) (hstubs : e.TracesStubs loads K.trace)
    (requests : List (Request ι)) (r : Run ι) :
    ∃ cs m', callsOf e loads requests r = flattenAll cs ∧ K r.machine cs m' := by
  induction requests generalizing r with
  | nil => exact ⟨[], r.machine, rfl, hK.calm ⟨rfl, rfl, rfl, rfl, rfl, rfl⟩⟩
  | cons q requests ih =>
      let ev : Event ι := ⟨r, q, (q.perform e r).1, (q.perform e r).2⟩
      have hfirst : K r.machine (ev.record e loads) (q.perform e r).2.machine := by
        by_cases hq : q.Allowed r
        · rw [Event.record, if_pos hq]
          exact q.perform_trace hK hstubs hq
        · rw [Event.record, if_neg hq, perform_of_not_allowed e hq]
          exact hK.calm ⟨rfl, rfl, rfl, rfl, rfl, rfl⟩
      obtain ⟨cs, m', hcalls, hrest⟩ := ih (q.perform e r).2
      refine ⟨ev.record e loads ++ cs, m', ?_, hK.append hfirst hrest⟩
      rw [flattenAll_append, ← hcalls]
      exact List.flatMap_cons

end Run

end WasmHost
