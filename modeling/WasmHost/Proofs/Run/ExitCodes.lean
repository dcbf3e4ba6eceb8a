import WasmHost.CommandLine
import WasmHost.Proofs.Run.Steps

set_option autoImplicit false

/-! # No failure is reported as success

The outcome of a failed run follows from the type of the failure's cause (`Outcome.Classified`).
Contexts count only in the text of an unknown outcome (`Outcome.classify_within`), and other texts
in the failure change nothing but texts of the outcome (`Outcome.classify_bare`). The exit code is
the low byte of the status, but 1 where that would hide a status that is not zero
(`Outcome.ExitCodeExact`). So a failure ends with the exit code 0 only if the program asked to stop
with the status 0. -/

namespace WasmHost

/-! ## Failures without their texts -/

/-- A failure in further contexts, of which the last one is added last. -/
def Failure.within (f : Failure) (contexts : List String) : Failure :=
  contexts.foldl addContext f

theorem Failure.within_cause (f : Failure) (contexts : List String) :
    (f.within contexts).cause = f.cause := by
  induction contexts generalizing f with
  | nil => rfl
  | cons context contexts ih => exact ih (f.addContext context)

/-- A cause without its texts. -/
def Cause.bare : Cause → Cause
  | .fault (.terminate status _) => .fault (.terminate status "")
  | .fault (.unimplemented _) => .fault (.unimplemented "")
  | .fault (.trap kind) => .fault (.trap kind)
  | .memory e => .memory e
  | .trap t => .trap t
  | .text _ => .text ""

namespace Outcome

/-- An outcome without its texts. -/
def bare : Outcome → Outcome
  | .returned _ _ status => .returned "" "" status
  | .terminated status _ => .terminated status ""
  | .unimplemented _ => .unimplemented ""
  | .trap kind => .trap kind
  | .unknown _ => .unknown ""

/-! ## The outcome of a failure -/

/-- What the outcome of a failure says about the cause. -/
structure Classified (f : Failure) (o : Outcome) : Prop where
  not_returned (moduleName entry : String) (status : Int32) : o ≠ .returned moduleName entry status
  terminated_iff (status : Int32) (reason : String) :
    o = .terminated status reason ↔ f.cause = .fault (.terminate status reason)
  unimplemented_iff (what : String) :
    o = .unimplemented what ↔ f.cause = .fault (.unimplemented what)
  trap_iff (kind : TrapKind) :
    o = .trap kind ↔ f.cause = .fault (.trap kind)
      ∨ (kind = .memoryOutOfBounds ∧ ∃ e, f.cause = .memory e)
      ∨ ∃ t, f.cause = .trap t ∧ TrapKind.ofTrap? t = some kind
  unknown_iff (message : String) :
    o = .unknown message ↔ message = f.message
      ∧ ((∃ text, f.cause = .text text) ∨ ∃ t, f.cause = .trap t ∧ TrapKind.ofTrap? t = none)

/-- **The cause says which outcome it is**, and each outcome of a failure tells its cause. -/
theorem classified (f : Failure) : Classified f (classify f) := by
  obtain ⟨cause, contexts⟩ := f
  cases cause with
  | fault fault => cases fault <;> constructor <;> simp [classify, eq_comm]
  | memory e => constructor <;> simp [classify, eq_comm]
  | trap t =>
      cases ht : TrapKind.ofTrap? t <;> constructor <;> simp [classify, ht, eq_comm]
  | text message => constructor <;> simp [classify, eq_comm]

/-- **Contexts matter only in the text of an unknown outcome.** -/
theorem classify_within (f : Failure) (contexts : List String) :
    classify (f.within contexts) = match classify f with
      | .unknown _ => .unknown (f.within contexts).message
      | o => o := by
  rw [classify, classify, f.within_cause contexts]
  generalize (f.within contexts).message = message
  cases f.cause with
  | fault fault => cases fault <;> rfl
  | memory e => rfl
  | trap t => cases ht : TrapKind.ofTrap? t <;> simp only [ht]
  | text text => rfl

/-- **A failure is classified by type.** The texts of a failure make no difference except to the
    texts of the outcome. -/
theorem classify_bare (f : Failure) :
    (classify f).bare = (classify (.ofCause f.cause.bare)).bare := by
  obtain ⟨cause, contexts⟩ := f
  cases cause with
  | fault fault => cases fault <;> rfl
  | memory e => rfl
  | trap t =>
      cases ht : TrapKind.ofTrap? t <;> simp [classify, Failure.ofCause, Cause.bare, ht, bare]
  | text text => rfl

/-! ## Exit codes -/

/-- The status of an outcome that has one. -/
def status? : Outcome → Option Int32
  | .returned _ _ status | .terminated status _ => some status
  | _ => none

/-- The low byte of a status is the status modulo 256, also where that is negative. -/
theorem toNat_lowByte (status : Int32) :
    (status.toUInt32.toUInt8.toNat : Int) = status.toInt % 256 := by
  have hlow : status.toUInt32.toUInt8.toNat = status.toBitVec.toNat % 256 := rfl
  have hint : status.toInt = status.toBitVec.toInt := rfl
  rw [hlow, hint, BitVec.toInt_eq_toNat_cond]
  split <;> omega

/-- What the exit code says about an outcome. -/
structure ExitCodeExact (o : Outcome) : Prop where
  zero_iff : o.exitCode = 0 ↔ o.isSuccess = true
  isSuccess_iff_not_reraises : o.isSuccess = true ↔ o.reraises = false
  isSuccess_iff :
    o.isSuccess = true ↔ (∃ moduleName entry, o = .returned moduleName entry 0)
      ∨ ∃ reason, o = .terminated 0 reason
  of_status (status : Int32) (h : o.status? = some status) (hlow : status.toInt % 256 ≠ 0) :
    (o.exitCode.toNat : Int) = status.toInt % 256
  /-- The low byte would hide that the status is not zero. -/
  of_hidden_status (status : Int32) (h : o.status? = some status) (hstatus : status ≠ 0)
    (hlow : status.toInt % 256 = 0) : o.exitCode = 1
  of_no_status (h : o.status? = none) : o.exitCode = 1

theorem exitStatus_of_status? {o : Outcome} {status : Int32} (h : o.status? = some status) :
    o.exitStatus = status := by
  cases o <;> cases h <;> rfl

theorem exitStatus_of_no_status {o : Outcome} (h : o.status? = none) : o.exitStatus = 1 := by
  cases o <;> first | rfl | cases h

/-- An outcome counts as success just if its status is zero; that of outcomes without one is 1. -/
theorem isSuccess_iff_exitStatus (o : Outcome) : o.isSuccess = true ↔ o.exitStatus = 0 := by
  cases o <;> simp [isSuccess, exitStatus]

/-- A status that is not zero never gives the exit code 0. -/
theorem exitCode_eq_zero (o : Outcome) : o.exitCode = 0 ↔ o.exitStatus = 0 := by
  rw [exitCode]
  by_cases hstatus : o.exitStatus = 0
  · simp [hstatus]
  · rw [if_neg hstatus]
    refine iff_of_false ?_ hstatus
    dsimp only
    split
    case isTrue => decide
    case isFalse hlow => exact hlow

theorem exitCode_of_lowByte {o : Outcome} (h : o.exitStatus.toInt % 256 ≠ 0) :
    (o.exitCode.toNat : Int) = o.exitStatus.toInt % 256 := by
  have hstatus : o.exitStatus ≠ 0 := by
    intro hzero
    rw [hzero] at h
    exact h rfl
  have hlow : o.exitStatus.toUInt32.toUInt8 ≠ 0 := by
    intro hzero
    rw [← toNat_lowByte, hzero] at h
    exact h rfl
  rw [exitCode, if_neg hstatus]
  dsimp only
  rw [if_neg hlow, toNat_lowByte]

theorem exitCode_of_hidden_status {o : Outcome} (hstatus : o.exitStatus ≠ 0)
    (h : o.exitStatus.toInt % 256 = 0) : o.exitCode = 1 := by
  have hlow : o.exitStatus.toUInt32.toUInt8 = 0 := by
    apply UInt8.toNat_inj.1
    have hnat := toNat_lowByte o.exitStatus
    rw [h] at hnat
    exact Int.ofNat_inj.1 hnat
  rw [exitCode, if_neg hstatus]
  dsimp only
  rw [if_pos hlow]

/-- **The exit code is zero just for success,** and otherwise the status modulo 256 or 1. -/
theorem exitCodeExact (o : Outcome) : o.ExitCodeExact where
  zero_iff := o.exitCode_eq_zero.trans o.isSuccess_iff_exitStatus.symm
  isSuccess_iff_not_reraises := by rw [reraises, Bool.not_eq_false']
  isSuccess_iff := by cases o <;> simp [isSuccess]
  of_status status h hlow := by
    rw [← exitStatus_of_status? h] at hlow ⊢
    exact exitCode_of_lowByte hlow
  of_hidden_status status h hstatus hlow := by
    rw [← exitStatus_of_status? h] at hstatus hlow
    exact exitCode_of_hidden_status hstatus hlow
  of_no_status h := by
    rw [exitCode, exitStatus_of_no_status h]
    rfl

/-- A failure counts as success just if the program asked to stop with the status 0. -/
theorem exitCode_classify_eq_zero (f : Failure) :
    (classify f).exitCode = 0 ↔ ∃ reason, f.cause = .fault (.terminate 0 reason) := by
  have hclassified := classified f
  rw [(exitCodeExact _).zero_iff, (exitCodeExact _).isSuccess_iff]
  constructor
  · rintro (⟨moduleName, entry, hreturned⟩ | ⟨reason, hterminated⟩)
    · exact absurd hreturned (hclassified.not_returned moduleName entry 0)
    · exact ⟨reason, (hclassified.terminated_iff 0 reason).1 hterminated⟩
  · rintro ⟨reason, hcause⟩
    exact .inr ⟨reason, (hclassified.terminated_iff 0 reason).2 hcause⟩

/-- How the call of an entry point ends with the exit code 0. -/
theorem exitCode_ofCall_eq_zero (moduleName entry : String)
    (result : Except Failure (List Value)) :
    (ofCall moduleName entry result).exitCode = 0
      ↔ (∃ results, result = .ok results ∧ Run.statusOf results = 0)
        ∨ ∃ failure reason, result = .error failure
            ∧ failure.cause = .fault (.terminate 0 reason) := by
  cases result with
  | error failure =>
      rw [ofCall, exitCode_classify_eq_zero]
      simp
  | ok results =>
      rw [ofCall, exitCode_eq_zero, exitStatus]
      simp

end Outcome

/-! ## The exit code of the process -/

namespace CommandLine

variable [Budget] (q : Request) (read : String → Except ReadError ModuleObject)

/-- The program of a request is loaded and its entry point succeeds: it returns the status 0 or
    stops the program with it, and the host has not panicked. -/
def Request.Succeeds : Prop :=
  q.config.initialPages ≤ maxPages
    ∧ ∃ loaded f m,
      Libc.engine.prepare Libc.libraries q.main q.extra
          (.initial q.config (.search read q.config.searchPaths) .accepting) = (.ok (loaded, f), m)
        ∧ (Libc.engine.call f [] m).2.panicked = false
        ∧ ((∃ results, (Libc.engine.call f [] m).1 = .ok results ∧ Run.statusOf results = 0)
          ∨ ∃ failure reason, (Libc.engine.call f [] m).1 = .error failure
              ∧ failure.cause = .fault (.terminate 0 reason))

theorem exitCode_respond_eq_zero : (q.respond read).exitCode = 0 ↔ q.Succeeds read := by
  have hcode : (q.respond read).exitCode = exitCodeOf (q.run read).result := rfl
  rw [hcode, Request.run, runProgram_eq, Request.Succeeds]
  by_cases hpages : q.config.initialPages ≤ maxPages
  case neg => simp [hpages, exitCodeOf]
  rw [if_pos hpages, and_iff_right hpages, Engine.program, bind_apply]
  generalize Machine.initial q.config (.search read q.config.searchPaths) .accepting = m
  rcases hprepare : Libc.engine.prepare Libc.libraries q.main q.extra m with
    ⟨err | ⟨loaded, f⟩, m'⟩
  · refine iff_of_false ?_ ?_
    · show exitCodeOf (Completed.of _ (.error err) m').result ≠ 0
      rw [Completed.of]
      split <;> simp [exitCodeOf]
    · rintro ⟨loaded, f, m'', hok, -⟩
      cases hok
  · dsimp only
    rw [Engine.execute_apply]
    show exitCodeOf (Completed.of _ (.ok _) ((Libc.engine.call f [] m').2.reporting _)).result = 0
      ↔ _
    rw [Completed.of, Machine.reporting]
    dsimp only
    rcases hpanicked : (Libc.engine.call f [] m').2.panicked with _ | _
    case true =>
      refine iff_of_false (by simp [exitCodeOf]) ?_
      rintro ⟨loaded, f, m', ⟨⟩, hcalm, -⟩
      cases hpanicked.symm.trans hcalm
    rw [if_neg Bool.false_ne_true, exitCodeOf, Outcome.exitCode_ofCall_eq_zero]
    constructor
    · intro h
      exact ⟨loaded, f, m', rfl, hpanicked, h⟩
    · rintro ⟨loaded, f, m', ⟨⟩, -, h⟩
      exact h

end CommandLine

/-! ## Reports of failures -/

/-- What is reported of a failure, also when it comes in some contexts. -/
structure Failure.ReportedByType (f : Failure) (contexts : List String) : Prop where
  classified : Outcome.Classified f (.classify f)
  /-- Contexts make no difference unless the outcome is unknown. -/
  of_known (h : ∀ message, Outcome.classify f ≠ .unknown message) :
    Outcome.classify (f.within contexts) = .classify f
  of_unknown (message : String) (h : Outcome.classify f = .unknown message) :
    Outcome.classify (f.within contexts) = .unknown (f.within contexts).message
  /-- Other texts make no difference except to the texts of the outcome. -/
  of_sameType (f' : Failure) (h : f'.cause.bare = f.cause.bare) :
    (Outcome.classify f').bare = (Outcome.classify f).bare
  /-- A failure that counts as success is a request to stop with the status 0. -/
  exitCode_eq_zero :
    (Outcome.classify f).exitCode = 0 ↔ ∃ reason, f.cause = .fault (.terminate 0 reason)

theorem Failure.reportedByType (f : Failure) (contexts : List String) :
    f.ReportedByType contexts where
  classified := Outcome.classified f
  of_known h := by
    rw [Outcome.classify_within]
    split
    case h_1 message hunknown => exact absurd hunknown (h message)
    case h_2 => rfl
  of_unknown message h := by rw [Outcome.classify_within, h]
  of_sameType f' h := by rw [Outcome.classify_bare f', h, ← Outcome.classify_bare f]
  exitCode_eq_zero := Outcome.exitCode_classify_eq_zero f

/-- **No failure is reported as success.** A failure is classified by type, whatever its texts and
    contexts are. An outcome has the exit code 0 just if it counts as success, and so does the
    process just if its program succeeds. -/
theorem no_failure_reported_as_success [Budget] :
    (∀ (f : Failure) (contexts : List String), f.ReportedByType contexts)
      ∧ (∀ o : Outcome, o.ExitCodeExact)
      ∧ ∀ (q : CommandLine.Request) (read : String → Except ReadError ModuleObject),
          (q.respond read).exitCode = 0 ↔ q.Succeeds read :=
  ⟨Failure.reportedByType, Outcome.exitCodeExact, CommandLine.exitCode_respond_eq_zero⟩

/-- A program that stops with the status 256 inside of two contexts fails with the exit code 1, and
    an exhausted stack is reported with its contexts. -/
theorem no_failure_reported_as_success_hidden_status :
    let stop : Failure := .ofFault (.terminate 256 "exit(256)")
    let overflow : Failure := .ofTrap .stackOverflow
    (Outcome.classify (stop.within ["in exit", "in main"])).exitCode = 1
      ∧ Outcome.classify (overflow.within ["in main"])
        = .unknown "in main: call stack exhausted" := by
  intro stop overflow
  obtain ⟨hreported, hexact, -⟩ := no_failure_reported_as_success
  refine ⟨?_, ?_⟩
  · rw [(hreported stop _).of_known fun message h => by cases h]
    exact (hexact _).of_hidden_status 256 rfl (by decide) (by decide)
  · rw [(hreported overflow _).of_unknown _ rfl]
    decide

end WasmHost
