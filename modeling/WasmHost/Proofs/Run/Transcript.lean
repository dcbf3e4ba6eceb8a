import WasmHost.Libc.Function
import WasmHost.Proofs.Run.Requests

set_option autoImplicit false

/-! # Steps are taken in order

`Run.transcript` is what becomes of a sequence of requests. A request is refused just if the phase
of the run does not allow it, and a step that is taken always leads to a later stage. What the state
of a run says about the requests before it (`Run.Explained`) is kept by each request, so
`Run.transcript_orderly`: whatever is requested, each step is taken at most once and in order, the
entry point is called only after it has been accepted, and a run whose modules failed to load is
stuck. -/

namespace WasmHost

variable {ι : Type}

namespace Run

/-! ## Sequences of requests -/

/-- A request, the run of which it was made, the answer, and the run afterwards. -/
structure Event (ι : Type) where
  before : Run ι
  request : Request ι
  answer : Except LinkError (Option Outcome)
  after : Run ι

/-- What becomes of requests that are made one after the other. -/
def transcript (e : Engine ι) : List (Request ι) → Run ι → List (Event ι)
  | [], _ => []
  | q :: qs, r => ⟨r, q, (q.perform e r).1, (q.perform e r).2⟩ :: transcript e qs (q.perform e r).2

namespace Event

/-- The answer is that the run is in the wrong state. -/
def IsRefused (ev : Event ι) : Prop :=
  ∃ err state action, ev.answer = .error err ∧ err.kind = .invalidState state action

/-- Startup modules or the main module were to be loaded, and that failed midway. -/
def FailsLoading (ev : Event ι) : Prop :=
  ((∃ names, ev.request = .loadModules names) ∨ ∃ name, ev.request = .loadMain name)
    ∧ ¬ ev.IsRefused ∧ ∃ err, ev.answer = .error err

/-- The main module has been loaded and its entry point accepted. -/
def Accepts (ev : Event ι) (loaded : LoadedModule ι) (f : Func ι) : Prop :=
  ∃ name, ev.request = .loadMain name ∧ ev.answer = .ok none ∧ loaded.name = name
    ∧ entryPoint loaded ev.after.machine.host.config.entry = .ok f
    ∧ ev.after.main = some (loaded, f)

/-- Startup modules were to be loaded, `remaining` of them have not been, and the modules that have
    been are the last ones, in reverse order. -/
def HasLoaded (ev : Event ι) (remaining : Nat) (modules : List (LoadedModule ι)) : Prop :=
  ∃ names, ev.request = .loadModules names ∧ ¬ ev.IsRefused ∧ remaining ≤ names.length
    ∧ modules.map LoadedModule.name = (names.drop remaining).reverse

end Event

section

variable {e : Engine ι} {q : Request ι} {r r' : Run ι}
  {answer : Except LinkError (Option Outcome)}

/-- A failure that is not about the state of the run is no refusal. -/
theorem Event.not_isRefused_of_kind {ev : Event ι} {err : LinkError}
    (hanswer : ev.answer = .error err)
    (hkind : ∀ state action, err.kind ≠ .invalidState state action) : ¬ ev.IsRefused := by
  rintro ⟨err', state, action, herr, hstate⟩
  rw [hanswer] at herr
  cases herr
  exact hkind state action hstate

theorem Event.not_isRefused_of_ok {ev : Event ι} {outcome : Option Outcome}
    (hanswer : ev.answer = .ok outcome) : ¬ ev.IsRefused := by
  rintro ⟨err, state, action, herr, -⟩
  rw [hanswer] at herr
  cases herr

/-- **A request is refused just if it is not allowed.** A step that fails midway says why the module
    failed to load, never that the run is in the wrong state. -/
theorem Answered.refused_iff (h : Answered e r q answer r') :
    Event.IsRefused ⟨r, q, answer, r'⟩ ↔ ¬ q.Allowed r := by
  cases h with
  | refused q h => exact ⟨fun _ => h, fun _ => ⟨_, _, _, rfl, rfl⟩⟩
  | stubsAdded libs h => exact iff_of_false (Event.not_isRefused_of_ok rfl) fun hnot => hnot h
  | modulesLoaded names h => exact iff_of_false (Event.not_isRefused_of_ok rfl) fun hnot => hnot h
  | moduleFailed names h done name rest hnames loaded m hstartup err m' hload =>
      refine iff_of_false (Event.not_isRefused_of_kind rfl fun state action => ?_) fun hnot => hnot h
      rw [Engine.kind_of_load (congrArg Prod.fst hload)]
      exact LinkError.Kind.noConfusion
  | mainLoaded name h => exact iff_of_false (Event.not_isRefused_of_ok rfl) fun hnot => hnot h
  | mainFailed name h err m hprepare =>
      exact iff_of_false (Event.not_isRefused_of_kind rfl (kind_of_prepareMain hprepare))
        fun hnot => hnot h
  | executed loaded f h hmain =>
      exact iff_of_false (Event.not_isRefused_of_ok rfl)
        fun hnot => hnot ⟨h, Option.isSome_iff_exists.2 ⟨_, hmain⟩⟩

theorem Answered.eq_of_not_allowed (h : Answered e r q answer r') (hq : ¬ q.Allowed r) :
    r' = r := by
  cases h with
  | refused => rfl
  | stubsAdded libs h => exact absurd h hq
  | modulesLoaded names h => exact absurd h hq
  | moduleFailed names h => exact absurd h hq
  | mainLoaded name h => exact absurd h hq
  | mainFailed name h => exact absurd h hq
  | executed loaded f h hmain => exact absurd ⟨h, Option.isSome_iff_exists.2 ⟨_, hmain⟩⟩ hq

/-! ### Stages -/

/-- A step is allowed only up to its place. -/
theorem Request.Allowed.stage_le (h : q.Allowed r) : r.phase.stage ≤ q.rank := by
  cases q with
  | addStubs libs => rw [show r.phase = _ from h]; exact Nat.le_refl _
  | loadModules names => rw [show r.phase = _ from h]; exact Nat.le_refl _
  | loadMain name =>
      have h : r.phase = _ ∨ r.phase = _ := h
      rcases h with h | h <;> rw [h] <;> simp
  | execute => rw [h.1]; exact Nat.le_refl _

/-- A step that is taken, even one that fails midway, leads beyond its place. -/
theorem Answered.rank_lt (h : Answered e r q answer r') (hq : q.Allowed r) :
    q.rank < r'.phase.stage := by
  cases h with
  | refused _ h => exact absurd hq h
  | _ => simp

theorem Answered.stage_lt (h : Answered e r q answer r') (hq : q.Allowed r) :
    r.phase.stage < r'.phase.stage :=
  Nat.lt_of_le_of_lt hq.stage_le (h.rank_lt hq)

theorem Answered.stage_le (h : Answered e r q answer r') : r.phase.stage ≤ r'.phase.stage := by
  by_cases hq : q.Allowed r
  · exact Nat.le_of_lt (h.stage_lt hq)
  · exact Nat.le_of_eq (by rw [h.eq_of_not_allowed hq])

/-! ### What the state of a run says -/

/-- What the state of a run says about what has become of earlier requests. -/
structure Explained (past : List (Event ι)) (r : Run ι) : Prop where
  main_none (h : r.phase.stage ≤ 2) : r.main = none
  modules_nil (h : r.phase.stage ≤ 1) : r.modules = []
  passed : ∀ ev ∈ past, ev.after.phase.stage ≤ r.phase.stage
  taken : ∀ ev ∈ past, ¬ ev.IsRefused → ev.request.rank < r.phase.stage
  loading (remaining : Nat) (h : r.phase = .loadingModules remaining) :
    ∃ ev ∈ past, ev.HasLoaded remaining r.modules
  accepted (loaded : LoadedModule ι) (f : Func ι) (h : r.main = some (loaded, f)) :
    ∃ ev ∈ past, ev.Accepts loaded f
  stuck (h : ∃ ev ∈ past, ev.FailsLoading) (q : Request ι) : ¬ q.Allowed r

theorem Explained.of_start {config : Config} {source : ModuleSource ModuleObject} {sink : Sink}
    (h : Run.start config source sink = .ok r) : Explained [] r := by
  cases start_eq_ok h
  exact
    { main_none := fun _ => rfl
      modules_nil := fun _ => rfl
      passed := fun _ hev => absurd hev List.not_mem_nil
      taken := fun _ hev => absurd hev List.not_mem_nil
      loading := fun _ h => by cases h
      accepted := fun _ _ h => by cases h
      stuck := fun ⟨_, hev, _⟩ => absurd hev List.not_mem_nil }

variable {past : List (Event ι)}

/-- A request that is refused is explained by the same events. -/
theorem Explained.refuse (h : Explained past r) (hrefused : Event.IsRefused ⟨r, q, answer, r⟩) :
    Explained (past ++ [⟨r, q, answer, r⟩]) r where
  main_none := h.main_none
  modules_nil := h.modules_nil
  passed := List.forall_mem_append.2 ⟨h.passed, List.forall_mem_singleton.2 (Nat.le_refl _)⟩
  taken := List.forall_mem_append.2
    ⟨h.taken, List.forall_mem_singleton.2 fun hnot => absurd hrefused hnot⟩
  loading remaining hphase := by
    obtain ⟨ev, hev, hloaded⟩ := h.loading remaining hphase
    exact ⟨ev, List.mem_append_left _ hev, hloaded⟩
  accepted loaded f hmain := by
    obtain ⟨ev, hev, haccepts⟩ := h.accepted loaded f hmain
    exact ⟨ev, List.mem_append_left _ hev, haccepts⟩
  stuck := by
    rintro ⟨ev, hev, hfails⟩
    rcases List.mem_append.1 hev with hev | hev
    · exact h.stuck ⟨ev, hev, hfails⟩
    · rw [List.mem_singleton.1 hev] at hfails
      exact absurd hrefused hfails.2.1

theorem Event.not_failsLoading_of_ok {ev : Event ι} {outcome : Option Outcome}
    (hanswer : ev.answer = .ok outcome) : ¬ ev.FailsLoading := by
  rintro ⟨-, -, err, herr⟩
  rw [hanswer] at herr
  cases herr

/-- A step that is taken is explained by itself and by the events before it. No load has failed
    before it, so only the step itself can leave the run stuck. -/
theorem Explained.advance (h : Explained past r) (ha : Answered e r q answer r')
    (hq : q.Allowed r) (hmain : r'.phase.stage ≤ 2 → r'.main = none)
    (hmodules : r'.phase.stage ≤ 1 → r'.modules = [])
    (hloading : ∀ remaining, r'.phase = .loadingModules remaining →
      Event.HasLoaded ⟨r, q, answer, r'⟩ remaining r'.modules)
    (haccepted : ∀ loaded f, r'.main = some (loaded, f) →
      ∃ ev ∈ past ++ [⟨r, q, answer, r'⟩], ev.Accepts loaded f)
    (hstuck : Event.FailsLoading ⟨r, q, answer, r'⟩ → ∀ q' : Request ι, ¬ q'.Allowed r') :
    Explained (past ++ [⟨r, q, answer, r'⟩]) r' where
  main_none := hmain
  modules_nil := hmodules
  passed := List.forall_mem_append.2
    ⟨fun ev hev => Nat.le_trans (h.passed ev hev) ha.stage_le,
      List.forall_mem_singleton.2 (Nat.le_refl _)⟩
  taken := List.forall_mem_append.2
    ⟨fun ev hev hnot => Nat.lt_of_lt_of_le (h.taken ev hev hnot) ha.stage_le,
      List.forall_mem_singleton.2 fun _ => ha.rank_lt hq⟩
  loading remaining hphase :=
    ⟨_, List.mem_append_right _ (List.mem_singleton.2 rfl), hloading remaining hphase⟩
  accepted := haccepted
  stuck := by
    rintro ⟨ev, hev, hfails⟩
    rcases List.mem_append.1 hev with hev | hev
    · exact absurd hq (h.stuck ⟨ev, hev, hfails⟩ q)
    · rw [List.mem_singleton.1 hev] at hfails
      exact hstuck hfails

/-- Modules are loaded from the last one on, so those that are left over are the first ones. -/
theorem drop_of_reverse {names done rest : List String} (h : names.reverse = done ++ rest) :
    rest.length ≤ names.length ∧ (names.drop rest.length).reverse = done := by
  have hnames : names = rest.reverse ++ done.reverse := by
    rw [← List.reverse_reverse names, h, List.reverse_append]
  subst hnames
  refine ⟨?_, ?_⟩
  · rw [List.length_append, List.length_reverse]
    exact Nat.le_add_right _ _
  · rw [List.drop_left' List.length_reverse, List.reverse_reverse]

/-- While a module is left over, no request is allowed. -/
theorem Request.not_allowed_of_remaining {remaining : Nat}
    (h : r.phase = .loadingModules (remaining + 1)) : ¬ q.Allowed r := by
  intro hq
  cases q with
  | addStubs | loadModules => exact Phase.noConfusion (h.symm.trans hq)
  | loadMain =>
      rcases hq with hq | hq
      · exact Phase.noConfusion (h.symm.trans hq)
      · cases h.symm.trans hq
  | execute => exact Phase.noConfusion (h.symm.trans hq.1)

/-- Without an entry point no request is allowed once the main module has had its turn. -/
theorem Request.not_allowed_of_main_none (h : r.phase = .loadingMain) (hmain : r.main = none) :
    ¬ q.Allowed r := by
  intro hq
  cases q with
  | addStubs | loadModules => exact Phase.noConfusion (h.symm.trans hq)
  | loadMain => rcases hq with hq | hq <;> exact Phase.noConfusion (h.symm.trans hq)
  | execute =>
      have hsome : r.main.isSome = true := hq.2
      rw [hmain] at hsome
      cases hsome

/-- **One request.** What becomes of it explains the run afterwards, together with what became of
    the requests before. -/
theorem Explained.step (h : Explained past r) (ha : Answered e r q answer r') :
    Explained (past ++ [⟨r, q, answer, r'⟩]) r' := by
  by_cases hq : q.Allowed r
  case neg =>
    cases ha.eq_of_not_allowed hq
    exact h.refuse (ha.refused_iff.2 hq)
  have hnotRefused : ¬ Event.IsRefused ⟨r, q, answer, r'⟩ := fun hr => ha.refused_iff.1 hr hq
  have hnone (hrank : q.rank ≤ 2) : r.main = none :=
    h.main_none (Nat.le_trans hq.stage_le hrank)
  have hnil (hrank : q.rank ≤ 1) : r.modules = [] :=
    h.modules_nil (Nat.le_trans hq.stage_le hrank)
  have hadvance := h.advance ha hq
  cases ha with
  | refused _ hnot => exact absurd hq hnot
  | stubsAdded libs hphase =>
      have hnone : r.main = none := hnone (by simp)
      exact hadvance (fun _ => hnone) (fun _ => hnil (by simp)) (fun _ hphase => by cases hphase)
        (fun _ _ hfound => nomatch hnone.symm.trans hfound)
        (fun hfails => absurd hfails (Event.not_failsLoading_of_ok rfl))
  | modulesLoaded names hphase loaded m hstartup =>
      have hnone : r.main = none := hnone (by simp)
      refine hadvance (fun _ => hnone) (fun hstage => absurd hstage (by simp)) ?_
        (fun _ _ hfound => nomatch hnone.symm.trans hfound)
        (fun hfails => absurd hfails (Event.not_failsLoading_of_ok rfl))
      intro remaining hremaining
      cases hremaining
      obtain ⟨hle, hdrop⟩ := drop_of_reverse (List.append_nil names.reverse).symm
      refine ⟨names, rfl, hnotRefused, hle, ?_⟩
      rw [hnil (by simp), List.nil_append, Engine.names_of_startup hstartup]
      exact hdrop.symm
  | moduleFailed names hphase done name rest hnames loaded m hstartup err m' hload =>
      have hnone : r.main = none := hnone (by simp)
      refine hadvance (fun _ => hnone) (fun hstage => absurd hstage (by simp)) ?_
        (fun _ _ hfound => nomatch hnone.symm.trans hfound)
        (fun _ q' => Request.not_allowed_of_remaining rfl)
      intro remaining hremaining
      cases hremaining
      obtain ⟨hle, hdrop⟩ := drop_of_reverse hnames
      refine ⟨names, rfl, hnotRefused, hle, ?_⟩
      rw [hnil (by simp), List.nil_append, Engine.names_of_startup hstartup]
      exact hdrop.symm
  | mainLoaded name hallowed loaded f m hload hentry =>
      refine hadvance (fun hstage => absurd hstage (by simp))
        (fun hstage => absurd hstage (by simp)) (fun _ hphase => by cases hphase) ?_
        (fun hfails => absurd hfails (Event.not_failsLoading_of_ok rfl))
      intro loaded' f' hfound
      cases hfound
      exact ⟨_, List.mem_append_right _ (List.mem_singleton.2 rfl), name, rfl, rfl,
        Engine.name_of_load (congrArg Prod.fst hload), hentry, rfl⟩
  | mainFailed name hallowed err m hprepare =>
      have hnone : r.main = none := hnone (by simp)
      exact hadvance (fun _ => hnone) (fun hstage => absurd hstage (by simp))
        (fun _ hphase => by cases hphase) (fun _ _ hfound => nomatch hnone.symm.trans hfound)
        (fun _ q' => Request.not_allowed_of_main_none rfl hnone)
  | executed loaded f hphase hfound outcome houtcome =>
      refine hadvance (fun hstage => absurd hstage (by simp))
        (fun hstage => absurd hstage (by simp)) (fun _ hphase => by cases hphase) ?_
        (fun hfails => absurd hfails (Event.not_failsLoading_of_ok rfl))
      intro loaded' f' hfound'
      obtain ⟨ev, hev, haccepts⟩ := h.accepted loaded' f' hfound'
      exact ⟨ev, List.mem_append_left _ hev, haccepts⟩

/-- Each event in a transcript is what becomes of its request, and the transcript goes on from
    there. -/
theorem transcript_split {requests : List (Request ι)} {earlier later : List (Event ι)}
    {ev : Event ι} (hsplit : transcript e requests r = earlier ++ ev :: later) :
    Answered e ev.before ev.request ev.answer ev.after
      ∧ ev.request.perform e ev.before = (ev.answer, ev.after)
      ∧ ∃ rest, later = transcript e rest ev.after := by
  induction requests generalizing r earlier with
  | nil => cases earlier <;> cases hsplit
  | cons q requests ih =>
      rw [transcript] at hsplit
      cases earlier with
      | nil =>
          cases hsplit
          exact ⟨answered e q r, rfl, requests, rfl⟩
      | cons first earlier =>
          rw [List.cons_append] at hsplit
          exact ih (List.cons.inj hsplit).2

/-- **Any requests.** Each run in a transcript is explained by the events before it. -/
theorem explained_of_transcript (h : Explained past r) {requests : List (Request ι)}
    {earlier later : List (Event ι)} {ev : Event ι}
    (hsplit : transcript e requests r = earlier ++ ev :: later) :
    Explained (past ++ earlier) ev.before := by
  induction requests generalizing past r earlier with
  | nil => cases earlier <;> cases hsplit
  | cons q requests ih =>
      rw [transcript] at hsplit
      cases earlier with
      | nil =>
          cases hsplit
          rwa [List.append_nil]
      | cons first earlier =>
          rw [List.cons_append] at hsplit
          obtain ⟨rfl, hrest⟩ := List.cons.inj hsplit
          have hexplained := ih (h.step (answered e q r)) hrest
          rwa [List.append_assoc] at hexplained

end

/-- What holds of an event, given the events before it. -/
structure Event.Orderly (e : Engine ι) (earlier : List (Event ι)) (ev : Event ι) : Prop where
  /-- What becomes of the request is one of the things that are listed. -/
  answered : Answered e ev.before ev.request ev.answer ev.after
  refused_iff : ev.IsRefused ↔ ¬ ev.request.Allowed ev.before
  unchanged (h : ev.IsRefused) : ev.after = ev.before
  /-- A step that is taken leads to a later stage. -/
  forward (h : ¬ ev.IsRefused) : ev.before.phase.stage < ev.after.phase.stage
  /-- The run never goes back. -/
  monotone : ∀ ev' ∈ earlier, ev'.after.phase.stage ≤ ev.before.phase.stage
  /-- The steps that are taken are taken in order, so each of them once. -/
  once (h : ¬ ev.IsRefused) :
    ∀ ev' ∈ earlier, ¬ ev'.IsRefused → ev'.request.rank < ev.request.rank
  /-- The entry point that is called is the one that was accepted. -/
  entry (h : ¬ ev.IsRefused) (hrequest : ev.request = .execute) :
    ∃ ev' ∈ earlier, ∃ loaded f, ev'.Accepts loaded f ∧ ev.before.main = some (loaded, f)
  /-- While startup modules are loaded, the phase says which of them have been loaded. -/
  passing (names : List String) (h : ¬ ev.IsRefused) (hrequest : ev.request = .loadModules names) :
    ∃ runs, runs = loadingRuns e names.reverse
          { ev.before with phase := .loadingModules names.length }
      ∧ runs.getLast? = some ev.after
      ∧ ∀ r ∈ runs, ∃ remaining,
          r.phase = .loadingModules remaining ∧ ev.HasLoaded remaining r.modules
  /-- So it does when a run stays there after a request. -/
  loading (remaining : Nat) (h : ev.after.phase = .loadingModules remaining) :
    ∃ ev' ∈ earlier ++ [ev], ev'.HasLoaded remaining ev.after.modules
  /-- After a load that failed nothing is accepted. -/
  stuck (h : ∃ ev' ∈ earlier, ev'.FailsLoading) : ev.IsRefused

/-- **Steps are taken in order, each at most once,** whatever is requested of a fresh run. -/
theorem transcript_orderly (e : Engine ι) {config : Config} {source : ModuleSource ModuleObject}
    {sink : Sink} {start : Run ι} (hstart : Run.start config source sink = .ok start)
    (requests : List (Request ι)) :
    ∀ earlier ev later, transcript e requests start = earlier ++ ev :: later →
      ev.Orderly e earlier := by
  intro earlier ev later hsplit
  obtain ⟨ha, hperform, -⟩ := transcript_split hsplit
  have hbefore := explained_of_transcript (.of_start hstart) hsplit
  rw [List.nil_append] at hbefore
  have hrefused : ev.IsRefused ↔ ¬ ev.request.Allowed ev.before := ha.refused_iff
  have hallowed (h : ¬ ev.IsRefused) : ev.request.Allowed ev.before :=
    Classical.not_not.1 fun hnot => h (hrefused.2 hnot)
  exact
    { answered := ha
      refused_iff := hrefused
      unchanged := fun h => ha.eq_of_not_allowed (hrefused.1 h)
      forward := fun h => ha.stage_lt (hallowed h)
      monotone := hbefore.passed
      once := fun h ev' hev' hnot =>
        Nat.lt_of_lt_of_le (hbefore.taken ev' hev' hnot) (hallowed h).stage_le
      entry := fun h hrequest => by
        have hsome : ev.before.main.isSome = true := (hrequest ▸ hallowed h).2
        obtain ⟨⟨loaded, f⟩, hmain⟩ := Option.isSome_iff_exists.1 hsome
        obtain ⟨ev', hev', haccepts⟩ := hbefore.accepted loaded f hmain
        exact ⟨ev', hev', loaded, f, haccepts, hmain⟩
      passing := fun names h hrequest => by
        have hallowed : (Request.loadModules names).Allowed ev.before := hrequest ▸ hallowed h
        refine ⟨_, rfl, ?_, fun r hr => ?_⟩
        · have hlast := perform_loadModules e hallowed
          rw [← hrequest, hperform] at hlast
          rw [getLast?_loadingRuns, ← (Prod.mk.inj hlast).2]
        obtain ⟨done, rest, hnames, hphase, hmodules⟩ :=
          of_mem_loadingRuns (by rw [List.length_reverse]) hr
        obtain ⟨hle, hdrop⟩ := drop_of_reverse hnames
        refine ⟨rest.length, hphase, names, hrequest, h, hle, ?_⟩
        rw [hmodules, hbefore.modules_nil hallowed.stage_le]
        exact hdrop.symm
      loading := (hbefore.step ha).loading
      stuck := fun h => hrefused.2 (hbefore.stuck h _) }

/-- A source without the module `broken`; the other modules export an entry point. -/
def brokenSource : ModuleSource ModuleObject := fun name =>
  if name = "broken" then .error (LinkError.ofKind (.moduleNotFound name))
  else
    .ok (.parsed { WasmModule.empty with
      funcs := [⟨⟨[], [.i32]⟩, [], [.const (.i32 7)]⟩]
      exports := [⟨"main", .func, 0⟩] })

/-- Of three startup modules the last one loads and the one before it does not: two remain, and the
    main module is refused. -/
theorem transcript_orderly_broken :
    let start : Run Libc.Function :=
      ⟨.initial .default brokenSource .accepting, .initializing, [], none⟩
    let events := transcript Libc.engine
      [.execute, .addStubs [], .loadModules ["first", "broken", "second"], .loadMain "main"] start
    events.map (fun ev => ev.after.phase)
        = [.initializing, .loadingStubs, .loadingModules 2, .loadingModules 2]
      ∧ events.map (fun ev => ev.after.modules.map LoadedModule.name)
        = [[], [], ["second"], ["second"]]
      ∧ ∀ earlier ev later, events = earlier ++ ev :: later → ev.Orderly Libc.engine earlier := by
  intro start events
  have hstart : Run.start .default brokenSource .accepting = .ok start := by
    rw [Run.start_eq, if_pos (by decide)]
  exact ⟨by decide +kernel, by decide +kernel, transcript_orderly Libc.engine hstart _⟩

end Run

end WasmHost
