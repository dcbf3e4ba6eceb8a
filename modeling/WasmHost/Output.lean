set_option autoImplicit false

/-! # Program output

What a program writes is buffered until the run ends, and is then handed to a sink at once; the line
that says how the run ended goes to the sink directly. A sink either accepts every write or, once it
is closed, fails every write of at least one byte. -/

namespace WasmHost

/-- Why a write to a sink failed. -/
inductive SinkError where
  /-- The sink takes no more bytes. -/
  | closed
deriving DecidableEq

/-- The text of a failed write. -/
def SinkError.message : SinkError → String
  | .closed => "sink is closed"

/-- Where output goes. -/
structure Sink where
  /-- The bytes written so far. -/
  contents : Array UInt8
  /-- Whether writes fail. -/
  closed : Bool

namespace Sink

/-- A sink that accepts every write. -/
def accepting : Sink := ⟨#[], false⟩

/-- A sink whose every write fails. -/
def broken : Sink := ⟨#[], true⟩

/-- Write `data`. A write of no bytes is not attempted and does not fail. -/
def write (s : Sink) (data : Array UInt8) : Except SinkError Unit × Sink :=
  if data.isEmpty then (.ok (), s)
  else if s.closed then (.error .closed, s)
  else (.ok (), { s with contents := s.contents ++ data })

end Sink

/-- Output held back until the first flush. -/
structure OutputBuffer where
  /-- The bytes not yet handed to the sink. -/
  pending : Array UInt8
  /-- Where they go. -/
  sink : Sink
  /-- Whether the flush has been done. -/
  flushed : Bool

namespace OutputBuffer

/-- A buffer in front of `sink`. -/
def new (sink : Sink) : OutputBuffer := ⟨#[], sink, false⟩

/-- Add bytes to the buffer. -/
def push (b : OutputBuffer) (data : List UInt8) : OutputBuffer :=
  { b with pending := b.pending ++ data.toArray }

/-- Hand the pending bytes to the sink. Only the first flush does anything, even if it fails. -/
def flush (b : OutputBuffer) : Except SinkError Unit × OutputBuffer :=
  if b.flushed then (.ok (), b)
  else
    let (result, sink) := b.sink.write b.pending
    (result, ⟨#[], sink, true⟩)

/-- Write a line to the sink, past the buffer. -/
def writeLine (b : OutputBuffer) (line : String) : Except SinkError Unit × OutputBuffer :=
  let (result, sink) := b.sink.write ((line ++ "\n").toUTF8.data)
  (result, { b with sink := sink })

end OutputBuffer

end WasmHost
