import CallTelemetry.SortedMap
import CallTelemetry.Trace.Span

/-! Traces as they arrive. Spans and chunks are kept apart, and a chunk joins its span when the
trace is read. -/
namespace CallTelemetry.Trace

def bySequence (events : List SpanEvent) : List SpanEvent :=
  events.mergeSort fun a b => decide (a.sequence ≤ b.sequence)

def byStartTime (spans : List Span) : List Span :=
  spans.mergeSort fun a b => decide (a.startTime ≤ b.startTime)

/-- Spans and chunks of one transaction, each in the order of arrival. -/
structure Parts where
  spans : List Span
  chunks : List SpanChunk
  deriving DecidableEq

/-- Gives the events of a chunk to the first span that it belongs to. -/
def attach (c : SpanChunk) : List Span → List Span
  | [] => []
  | s :: rest =>
    if s.spanId = c.spanId then { s with events := s.events ++ c.events } :: rest
    else s :: attach c rest

/-- Spans by their start, and the events of each by their sequence; what is equal stays in the
order of arrival. -/
def Parts.assemble (p : Parts) : List Span :=
  let spans := p.chunks.foldl (fun spans c => attach c spans) p.spans
  byStartTime (spans.map fun s => { s with events := bySequence s.events })

abbrev Archive := SortedMap TransactionId Parts

namespace Archive

def addSpan (a : Archive) (s : Span) : Archive :=
  SortedMap.update a s.transactionId ⟨[], []⟩ fun p => { p with spans := p.spans ++ [s] }

def addChunk (a : Archive) (c : SpanChunk) : Archive :=
  SortedMap.update a c.transactionId ⟨[], []⟩ fun p => { p with chunks := p.chunks ++ [c] }

def trace (a : Archive) (t : TransactionId) : List Span :=
  match SortedMap.get? a t with
  | some p => p.assemble
  | none => []

end Archive

end CallTelemetry.Trace
