import WasmHost.Proofs.Libc.Calls
import WasmHost.Proofs.Output.Delivery

set_option autoImplicit false

/-! # The output of a program

The output of a program is what its calls of `putchar` and `puts` write, in the order of the calls
and wherever they are made. It is held back until the program ends and is then handed to the sink,
followed by the line that says how the program ended; if the program cannot be started, or the host
panics, the sink stays as it was. -/

namespace WasmHost

/-! ## The buffer and the sink -/

namespace OutputBuffer

theorem push_push (b : OutputBuffer) (xs ys : List UInt8) :
    (b.push xs).push ys = b.push (xs ++ ys) := by
  simp only [push, Array.append_assoc, List.append_toArray]

/-- The first flush and the line after it reach a sink that accepts every write. -/
theorem report_accepted (contents : Array UInt8) (bytes : List UInt8) (line : String) :
    (((new ⟨contents, false⟩).push bytes).flush.2.writeLine line).2.sink
      = ⟨contents ++ bytes.toArray ++ (line ++ "\n").toUTF8.data, false⟩ := by
  rw [writeLine_snd, flush_of_not_flushed rfl, OutputCommand.direct]
  simp only [push, new, Sink.receive_receive, Array.empty_append]
  show (⟨_, false⟩ : Sink) = _
  rw [← List.append_toArray, Array.toArray_toList, Array.append_assoc]

end OutputBuffer

namespace Libc

/-! ## Whole histories -/

/-- The bytes that the calls of a history add to the output. -/
def writtenBy (cs : List (StubCall Function)) : List UInt8 := (flattenAll cs).flatMap written

theorem writtenBy_append (cs ds : List (StubCall Function)) :
    writtenBy (cs ++ ds) = writtenBy cs ++ writtenBy ds := by
  rw [writtenBy, flattenAll_append, List.flatMap_append]
  rfl

theorem writtenBy_singleton (c : StubCall Function) :
    writtenBy [c] = writtenBy c.inner ++ written c := by
  rw [writtenBy, flattenAll_singleton, List.flatMap_append, List.flatMap_singleton]
  rfl

/-- The output grows by what the calls of the history write. -/
def OutputTrace : Trace Function (StubCall Function) := fun m cs _ m' =>
  m'.host.output = m.host.output.push (writtenBy cs)

theorem OutputTrace.steady : OutputTrace.Steady where
  calm _ h := by
    rw [OutputTrace, h.output]
    exact (push_nil _).symm
  append h h' := by
    rw [OutputTrace] at h h' ⊢
    rw [h', h, OutputBuffer.push_push, ← writtenBy_append]

/-- **Every call writes what its history says.** -/
theorem OutputTrace.stubs [Budget] : engine.TracesStubs loads OutputTrace := by
  refine tracesStubs_of_calls OutputTrace.steady (fun c _ hflatten hname => ?_) ?_
  · rw [OutputTrace, writtenBy, hflatten, List.flatMap_singleton]
    exact (run_of_not_loads hname).1
  · intro c _ _ m t hstub htrace
    have hwritten : written c = [] := by rw [written, hstub]
    rw [OutputTrace, writtenBy_singleton, hwritten, List.append_nil]
    exact htrace

/-- **The output of a program is complete, in order, and followed by one line.** On a sink that
    accepts every write, a run that reports an outcome leaves there what was written by the calls in
    its history, then the line of the outcome; a run that could not be started leaves nothing, and
    neither does one in which the host has panicked. -/
theorem runProgram_output [Budget] (config : Config) (source : ModuleSource ModuleObject)
    (contents : Array UInt8) (libs : List (StubLibrary Function)) (main : String)
    (extra : List String) :
    let done := runProgram engine config source ⟨contents, false⟩ libs main extra
    let history := engine.recordProgram loads libs main extra
      (.initial config source ⟨contents, false⟩)
    match done.result with
    | some (.ok outcome) =>
        done.sink
          = ⟨contents ++ (writtenBy history).toArray ++ (outcome.text ++ "\n").toUTF8.data, false⟩
    | some (.error _) | none => done.sink = ⟨contents, false⟩ := by
  intro done history
  have hdone : done = runProgram engine config source ⟨contents, false⟩ libs main extra := rfl
  rw [runProgram_eq] at hdone
  by_cases hpages : config.initialPages ≤ maxPages
  · rw [if_pos hpages] at hdone
    obtain ⟨failure, m', htrace, hend⟩ := Engine.program_trace OutputTrace.steady OutputTrace.stubs
      libs main extra (.initial config source ⟨contents, false⟩)
    have houtput : m'.host.output = (OutputBuffer.new ⟨contents, false⟩).push (writtenBy history) :=
      htrace
    -- only the report at the end touches the sink
    rcases hrun : engine.program libs main extra (.initial config source ⟨contents, false⟩)
      with ⟨result, m''⟩
    rw [hrun] at hdone hend
    have hleft : done = .of ⟨contents, false⟩ result m'' := hdone
    rw [hleft, Completed.of]
    rcases m''.panicked with _ | _
    case true => rfl
    rcases result with err | outcome
    · show m''.host.output.sink = _
      rw [hend, houtput]
      rfl
    · show m''.host.output.sink = _
      rw [hend, ← OutputBuffer.report_accepted, ← houtput]
      rfl
  · rw [if_neg hpages] at hdone
    rw [hdone]

end Libc

end WasmHost
