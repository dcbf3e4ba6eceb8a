import WasmHost.Output

set_option autoImplicit false

/-! # What reaches the sink, and when

A buffer is asked to hold bytes, to flush, and to write lines past them. A line reaches the sink at
once; the bytes that have been pushed reach it with the first flush and not otherwise, and what is
pushed later stays in the buffer (`OutputBuffer.performAll_flushed`). On a sink that fails, the
first flush drops them.

The main result is `OutputBuffer.output_delivered_once`. -/

namespace WasmHost

/-! ## The sink -/

namespace Sink

/-- The sink after bytes have been written to it: a closed one stays as it is. -/
def receive (s : Sink) (bytes : List UInt8) : Sink :=
  if s.closed then s else ⟨s.contents ++ bytes.toArray, false⟩

variable {s : Sink}

@[simp]
theorem receive_closed (s : Sink) (bytes : List UInt8) : (s.receive bytes).closed = s.closed := by
  unfold receive
  split
  · rfl
  · rename_i h
    simp only [Bool.not_eq_true] at h
    rw [h]

@[simp]
theorem receive_nil (s : Sink) : s.receive [] = s := by
  obtain ⟨contents, closed⟩ := s
  cases closed <;> simp [receive]

@[simp]
theorem receive_receive (s : Sink) (xs ys : List UInt8) :
    (s.receive xs).receive ys = s.receive (xs ++ ys) := by
  obtain ⟨contents, closed⟩ := s
  cases closed <;> simp [receive]

theorem write_snd (s : Sink) (data : Array UInt8) : (s.write data).2 = s.receive data.toList := by
  obtain ⟨contents, closed⟩ := s
  unfold write
  split
  · rename_i h
    simp [Array.isEmpty_iff.1 h]
  · cases closed <;> simp [receive]

/-- A write fails just if the sink is closed and there is something to write. -/
theorem write_fst (s : Sink) (data : Array UInt8) :
    (s.write data).1 = if s.closed = true ∧ data ≠ #[] then .error .closed else .ok () := by
  unfold write
  by_cases hdata : data = #[]
  · simp [hdata]
  · by_cases hclosed : s.closed = true <;> simp [hdata, hclosed]

end Sink

/-! ## The buffer -/

/-- What a buffer is asked for. -/
inductive OutputCommand where
  | push (data : List UInt8)
  | flush
  | writeLine (line : String)
deriving DecidableEq

namespace OutputCommand

/-- The bytes that are to be held. -/
def pushed : OutputCommand → List UInt8
  | push data => data
  | flush | writeLine _ => []

/-- The bytes that go past the buffer: a line and a newline. -/
def direct : OutputCommand → List UInt8
  | writeLine line => (line ++ "\n").toUTF8.data.toList
  | push _ | flush => []

end OutputCommand

/-- All the bytes that commands push. -/
def pushedBy (commands : List OutputCommand) : List UInt8 := commands.flatMap (·.pushed)

/-- All the lines that commands write. -/
def linesOf (commands : List OutputCommand) : List UInt8 := commands.flatMap (·.direct)

namespace OutputBuffer

variable {b : OutputBuffer} {commands : List OutputCommand}

/-- The result of one command, and the buffer after it. -/
def perform (b : OutputBuffer) : OutputCommand → Except SinkError Unit × OutputBuffer
  | .push data => (.ok (), b.push data)
  | .flush => b.flush
  | .writeLine line => b.writeLine line

/-- Commands one after the other. -/
def performAll (b : OutputBuffer) :
    List OutputCommand → List (Except SinkError Unit) × OutputBuffer
  | [] => ([], b)
  | command :: commands =>
      ((b.perform command).1 :: ((b.perform command).2.performAll commands).1,
        ((b.perform command).2.performAll commands).2)

theorem performAll_cons_snd (b : OutputBuffer) (command : OutputCommand)
    (commands : List OutputCommand) :
    (b.performAll (command :: commands)).2 = ((b.perform command).2.performAll commands).2 :=
  rfl

theorem performAll_append (b : OutputBuffer) (commands commands' : List OutputCommand) :
    (b.performAll (commands ++ commands')).2
      = ((b.performAll commands).2.performAll commands').2 := by
  induction commands generalizing b with
  | nil => rfl
  | cons command commands ih =>
      rw [List.cons_append, performAll_cons_snd, ih, performAll_cons_snd]

/-- A flush that is not the first does nothing. -/
theorem flush_of_flushed (h : b.flushed = true) : b.flush = (.ok (), b) := by
  rw [flush, if_pos h]

/-- The first flush hands over what is pending, and nothing is pending after it. -/
theorem flush_of_not_flushed (h : b.flushed = false) :
    b.flush = ((b.sink.write b.pending).1, ⟨#[], b.sink.receive b.pending.toList, true⟩) := by
  rw [flush, h, ← Sink.write_snd]
  rfl

theorem writeLine_snd (b : OutputBuffer) (line : String) :
    (b.writeLine line).2
      = { b with sink := b.sink.receive (OutputCommand.writeLine line).direct } := by
  rw [OutputCommand.direct, ← Sink.write_snd]
  rfl

/-- Every command but the first flush only adds what it pushes and writes. -/
theorem perform_snd {command : OutputCommand} (h : b.flushed = true ∨ command ≠ .flush) :
    (b.perform command).2
      = ⟨b.pending ++ command.pushed.toArray, b.sink.receive command.direct, b.flushed⟩ := by
  cases command with
  | push data => simp [perform, push, OutputCommand.pushed, OutputCommand.direct]
  | flush =>
      have hflushed : b.flushed = true := h.resolve_right fun hne => hne rfl
      simp [perform, flush_of_flushed hflushed, OutputCommand.pushed, OutputCommand.direct]
  | writeLine line => simp [perform, writeLine_snd, OutputCommand.pushed]

/-- No command opens or closes the sink. -/
theorem closed_perform (b : OutputBuffer) (command : OutputCommand) :
    (b.perform command).2.sink.closed = b.sink.closed := by
  cases command with
  | push data => rfl
  | flush =>
      cases hflushed : b.flushed with
      | true => simp [perform, flush_of_flushed hflushed]
      | false => simp [perform, flush_of_not_flushed hflushed]
  | writeLine line => simp [perform, writeLine_snd]

theorem perform_accepted (h : b.sink.closed = false) (command : OutputCommand) :
    (b.perform command).1 = .ok () := by
  cases command with
  | push data => rfl
  | flush =>
      cases hflushed : b.flushed with
      | true => simp [perform, flush_of_flushed hflushed]
      | false => simp [perform, flush_of_not_flushed hflushed, Sink.write_fst, h]
  | writeLine line =>
      show (b.sink.write _).1 = _
      simp [Sink.write_fst, h]

/-! ## Sequences of commands -/

/-- **Without the first flush** the bytes that are pushed stay, and the lines go to the sink. -/
theorem performAll_held (h : b.flushed = true ∨ .flush ∉ commands) :
    (b.performAll commands).2
      = ⟨b.pending ++ (pushedBy commands).toArray, b.sink.receive (linesOf commands),
          b.flushed⟩ := by
  induction commands generalizing b with
  | nil => simp [performAll, pushedBy, linesOf]
  | cons command commands ih =>
      have hcommand : b.flushed = true ∨ command ≠ .flush :=
        h.imp_right fun hmem heq => hmem (heq ▸ List.mem_cons_self)
      have hrest : (b.perform command).2.flushed = true ∨ .flush ∉ commands := by
        rw [perform_snd hcommand]
        exact h.imp_right fun hmem => hmem ∘ List.mem_cons_of_mem command
      rw [performAll_cons_snd, ih hrest, perform_snd hcommand]
      simp [pushedBy, linesOf]

/-- **The first flush** hands over what has been pushed before it, between the lines before and
    after it. -/
theorem performAll_flushed {before after : List OutputCommand} (hb : b.flushed = false)
    (hfirst : .flush ∉ before) :
    (b.performAll (before ++ .flush :: after)).2
      = ⟨(pushedBy after).toArray,
          b.sink.receive
            (linesOf before ++ (b.pending.toList ++ pushedBy before) ++ linesOf after), true⟩ := by
  have hheld : (b.performAll before).2.flushed = false := by
    rw [performAll_held (.inr hfirst)]
    exact hb
  rw [performAll_append, performAll_cons_snd, perform, flush_of_not_flushed hheld,
    performAll_held (.inl rfl), performAll_held (.inr hfirst)]
  simp

theorem performAll_accepted (h : b.sink.closed = false) :
    ∀ result ∈ (b.performAll commands).1, result = .ok () := by
  induction commands generalizing b with
  | nil => simp [performAll]
  | cons command commands ih =>
      refine List.forall_mem_cons.2 ⟨perform_accepted h command, ?_⟩
      exact ih ((closed_perform b command).trans h)

/-- Once there has been a flush, no flush does anything. -/
theorem flushed_of_mem (h : .flush ∈ commands) : (b.performAll commands).2.flushed = true := by
  obtain ⟨before, after, rfl, hfirst⟩ := List.eq_append_cons_of_mem h
  cases hb : b.flushed with
  | true => rw [performAll_held (.inl hb), hb]
  | false => rw [performAll_flushed hb hfirst]

/-- What commands do to a new buffer in front of a sink that accepts every write. -/
structure Delivers (contents : Array UInt8) (commands : List OutputCommand)
    (results : List (Except SinkError Unit)) (final : OutputBuffer) : Prop where
  accepted : ∀ result ∈ results, result = .ok ()
  /-- Before a flush only the lines have been written. -/
  held (h : .flush ∉ commands) :
    final = ⟨(pushedBy commands).toArray, ⟨contents ++ (linesOf commands).toArray, false⟩, false⟩
  /-- What has been pushed before the first flush stands where that flush is among the lines; what
      has been pushed after it is still pending. -/
  delivered (before after : List OutputCommand) (hsplit : commands = before ++ .flush :: after)
    (hfirst : .flush ∉ before) :
    final = ⟨(pushedBy after).toArray,
      ⟨contents ++ (linesOf before ++ pushedBy before ++ linesOf after).toArray, false⟩, true⟩
  /-- A later flush does nothing. -/
  settled (h : .flush ∈ commands) : final.flush = (.ok (), final)

/-- What commands do to a new buffer in front of a sink that fails. -/
structure Loses (contents : Array UInt8) (commands : List OutputCommand) (final : OutputBuffer) :
    Prop where
  unchanged : final.sink = ⟨contents, true⟩
  /-- What has been pushed before the first flush is gone after it. -/
  dropped (before after : List OutputCommand) (hsplit : commands = before ++ .flush :: after)
    (hfirst : .flush ∉ before) : final.pending.toList = pushedBy after
  /-- The first flush fails just if there are bytes pending, namely all that have been pushed, and
      drops them. -/
  first (h : .flush ∉ commands) :
    final.pending.toList = pushedBy commands
      ∧ (final.flush.1 = .error .closed ↔ final.pending ≠ #[])
      ∧ final.flush.2 = ⟨#[], ⟨contents, true⟩, true⟩
  /-- A later flush succeeds and does nothing. -/
  settled (h : .flush ∈ commands) : final.flush = (.ok (), final)

theorem delivers (contents : Array UInt8) (commands : List OutputCommand) :
    Delivers contents commands ((new ⟨contents, false⟩).performAll commands).1
      ((new ⟨contents, false⟩).performAll commands).2 where
  accepted := performAll_accepted rfl
  held h := by
    rw [performAll_held (.inr h)]
    simp [new, Sink.receive]
  delivered before after hsplit hfirst := by
    rw [hsplit, performAll_flushed rfl hfirst]
    simp [new, Sink.receive]
  settled h := flush_of_flushed (flushed_of_mem h)

theorem loses (contents : Array UInt8) (commands : List OutputCommand) :
    Loses contents commands ((new ⟨contents, true⟩).performAll commands).2 where
  unchanged := by
    by_cases h : .flush ∈ commands
    · obtain ⟨before, after, rfl, hfirst⟩ := List.eq_append_cons_of_mem h
      rw [performAll_flushed rfl hfirst]
      rfl
    · rw [performAll_held (.inr h)]
      rfl
  dropped before after hsplit hfirst := by
    rw [hsplit, performAll_flushed rfl hfirst]
  first h := by
    rw [performAll_held (.inr h)]
    have hflush := flush_of_not_flushed
      (b := ⟨(pushedBy commands).toArray, ⟨contents, true⟩, false⟩) rfl
    simp [new, Sink.receive, hflush, Sink.write_fst]
  settled h := flush_of_flushed (flushed_of_mem h)

/-- **Output is delivered once.** On a sink that accepts every write, the lines reach the sink in
    order and what has been pushed before the first flush reaches it there, all at once; no later
    flush does anything, and what is pushed later stays. On a sink that fails, the first flush fails
    just if something is pending and drops it, and every later flush succeeds. -/
theorem output_delivered_once (contents : Array UInt8) (commands : List OutputCommand) :
    Delivers contents commands ((new ⟨contents, false⟩).performAll commands).1
        ((new ⟨contents, false⟩).performAll commands).2
      ∧ Loses contents commands ((new ⟨contents, true⟩).performAll commands).2 :=
  ⟨delivers contents commands, loses contents commands⟩

/-- Lines around the first flush, a second flush, and bytes that are pushed too late. -/
def sampleCommands : List OutputCommand :=
  [.push [97], .writeLine "x", .push [98, 99], .flush, .push [100], .flush, .writeLine "y"]

/-- On a sink that accepts every write `abc` stands between the two lines, and `d` is still pending;
    on one that fails only `d` is left. -/
theorem output_delivered_once_between_lines :
    ((new .accepting).performAll sampleCommands).2
        = ⟨#[100], ⟨#[120, 10, 97, 98, 99, 121, 10], false⟩, true⟩
      ∧ ((new .broken).performAll sampleCommands).2.pending.toList = [100] := by
  obtain ⟨hdelivers, hloses⟩ := output_delivered_once #[] sampleCommands
  have hfirst : .flush ∉ sampleCommands.take 3 := by decide
  have hwritten : linesOf (sampleCommands.take 3) ++ pushedBy (sampleCommands.take 3)
      ++ linesOf (sampleCommands.drop 4) = [120, 10, 97, 98, 99, 121, 10] := by
    decide +kernel
  constructor
  · refine (hdelivers.delivered _ (sampleCommands.drop 4) rfl hfirst).trans ?_
    rw [hwritten]
    rfl
  · exact hloses.dropped _ (sampleCommands.drop 4) rfl hfirst

end OutputBuffer

end WasmHost
