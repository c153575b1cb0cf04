import CallTelemetry.Proofs.Intake.Restoring
import CallTelemetry.Proofs.SortedMap

/-! Traces as they are read. What is read of a transaction depends on its spans and on its chunks,
each in the order of their arrival, and not on how they came mixed. Every span is read once, with
its own events and those of the chunks that join it. -/
namespace CallTelemetry.Trace

inductive Arrival where
  | span (s : Span)
  | chunk (c : SpanChunk)
  deriving DecidableEq

def Arrival.span? (t : TransactionId) : Arrival → Option Span
  | .span s => if s.transactionId = t then some s else none
  | .chunk _ => none

def Arrival.chunk? (t : TransactionId) : Arrival → Option SpanChunk
  | .span _ => none
  | .chunk c => if c.transactionId = t then some c else none

/-- Whether this is a chunk of a transaction that belongs to none of its spans. -/
def Arrival.orphan (t : TransactionId) (spans : List Span) : Arrival → Bool
  | .span _ => false
  | .chunk c => decide (c.transactionId = t) && !spans.any (·.spanId = c.spanId)

def spansOf (t : TransactionId) (arrivals : List Arrival) : List Span :=
  arrivals.filterMap (Arrival.span? t)

def chunksOf (t : TransactionId) (arrivals : List Arrival) : List SpanChunk :=
  arrivals.filterMap (Arrival.chunk? t)

namespace Archive

def receive (a : Archive) : Arrival → Archive
  | .span s => a.addSpan s
  | .chunk c => a.addChunk c

def collect (arrivals : List Arrival) : Archive := arrivals.foldl receive SortedMap.empty

/-- What has arrived of a transaction. -/
def parts (a : Archive) (t : TransactionId) : Parts := SortedMap.getD a t ⟨[], []⟩

theorem trace_eq (a : Archive) (t : TransactionId) : a.trace t = (a.parts t).assemble := by
  unfold trace parts SortedMap.getD
  cases SortedMap.get? a t with
  | some p => rfl
  | none => simp [Parts.assemble, byStartTime]

theorem parts_update (a : Archive) (k t : TransactionId) (f : Parts → Parts) :
    parts (SortedMap.update a k ⟨[], []⟩ f) t = if k = t then f (a.parts t) else a.parts t := by
  unfold parts SortedMap.getD
  rw [SortedMap.get?_update]
  by_cases own : k = t
  · subst own
    simp [SortedMap.getD]
  · simp [own, Ne.symm own]

theorem parts_receive (a : Archive) (x : Arrival) (t : TransactionId) :
    (a.receive x).parts t =
      ⟨(a.parts t).spans ++ (x.span? t).toList, (a.parts t).chunks ++ (x.chunk? t).toList⟩ := by
  cases x with
  | span s =>
    rw [receive, addSpan, parts_update, Arrival.span?, Arrival.chunk?]
    split <;> simp
  | chunk c =>
    rw [receive, addChunk, parts_update, Arrival.span?, Arrival.chunk?]
    split <;> simp

theorem parts_foldl (a : Archive) (arrivals : List Arrival) (t : TransactionId) :
    (arrivals.foldl receive a).parts t =
      ⟨(a.parts t).spans ++ spansOf t arrivals, (a.parts t).chunks ++ chunksOf t arrivals⟩ := by
  induction arrivals generalizing a with
  | nil => simp [spansOf, chunksOf]
  | cons x arrivals ih =>
    rw [List.foldl_cons, ih, parts_receive]
    simp only [spansOf, chunksOf, List.filterMap_cons, List.append_assoc]
    cases x.span? t <;> cases x.chunk? t <;> rfl

/-- A trace is assembled from the spans and the chunks of its transaction. -/
theorem trace_collect (arrivals : List Arrival) (t : TransactionId) :
    (collect arrivals).trace t = Parts.assemble ⟨spansOf t arrivals, chunksOf t arrivals⟩ := by
  rw [trace_eq]
  exact congrArg _ (parts_foldl SortedMap.empty arrivals t)

end Archive

/-! Chunks join their spans. -/

/-- The events of the chunks of a span. -/
def eventsOf (spanId : Int64) (chunks : List SpanChunk) : List SpanEvent :=
  (chunks.filter (·.spanId = spanId)).flatMap (·.events)

/-- The events that join a span from chunks: all those of its id, unless an earlier span has it. -/
def joining (chunks : List SpanChunk) (earlier : List Span) (s : Span) : List SpanEvent :=
  if ∃ s' ∈ earlier, s'.spanId = s.spanId then [] else eventsOf s.spanId chunks

def attachAll (chunks : List SpanChunk) (spans : List Span) : List Span :=
  chunks.foldl (fun spans c => attach c spans) spans

theorem attachAll_nil (chunks : List SpanChunk) : attachAll chunks [] = [] := by
  induction chunks with
  | nil => rfl
  | cons c chunks ih => exact ih

/-- The first span takes the chunks of its id, and leaves the others to those that follow. -/
theorem attachAll_cons (chunks : List SpanChunk) (s : Span) (rest : List Span) :
    attachAll chunks (s :: rest) =
      { s with events := s.events ++ eventsOf s.spanId chunks } ::
        attachAll (chunks.filter (·.spanId ≠ s.spanId)) rest := by
  induction chunks generalizing s rest with
  | nil => simp [attachAll, eventsOf]
  | cons c chunks ih =>
    rw [attachAll, List.foldl_cons, attach]
    split
    next own =>
      refine (ih _ rest).trans ?_
      simp [eventsOf, own.symm]
    next other =>
      refine (ih s _).trans ?_
      have kept : c.spanId ≠ s.spanId := Ne.symm other
      simp [eventsOf, kept, attachAll]

/-- Whether no span of a list has the id of a chunk. -/
def free (earlier : List Span) (c : SpanChunk) : Bool := earlier.all (·.spanId ≠ c.spanId)

/-- What joins a span is in the chunks that no earlier span could take. -/
theorem eventsOf_free (chunks : List SpanChunk) (earlier : List Span) (s : Span) :
    eventsOf s.spanId (chunks.filter (free earlier)) = joining chunks earlier s := by
  unfold joining eventsOf
  rw [List.filter_filter]
  split
  next taken =>
    obtain ⟨s', member, same⟩ := taken
    have none : chunks.filter (fun c => decide (c.spanId = s.spanId) && free earlier c) = [] := by
      refine List.filter_eq_nil_iff.2 fun c _ both => ?_
      obtain ⟨own, free⟩ := Bool.and_eq_true_iff.1 both
      have apart := of_decide_eq_true (List.all_eq_true.1 free s' member)
      exact apart (same.trans (of_decide_eq_true own).symm)
    rw [none]
    rfl
  next first =>
    congr 1
    refine List.filter_congr fun c _ => ?_
    by_cases own : c.spanId = s.spanId
    · have free : free earlier c := List.all_eq_true.2 fun s' member =>
        decide_eq_true fun same => first ⟨s', member, same.trans own⟩
      simp [own, free]
    · simp [own]

/-- The events of a span at its place among the spans, in the order in which they arrived. -/
def eventsAt (spans : List Span) (chunks : List SpanChunk) (e : Span × Nat) : List SpanEvent :=
  e.1.events ++ joining chunks (spans.take e.2) e.1

theorem attachAll_eq (spans : List Span) (chunks : List SpanChunk) :
    attachAll chunks spans =
      spans.zipIdx.map fun e => { e.1 with events := eventsAt spans chunks e } := by
  -- The spans before have taken their chunks already, and the others are met with what they left.
  have later (earlier rest : List Span) :
      attachAll (chunks.filter (free earlier)) rest = (rest.zipIdx earlier.length).map
        fun e => { e.1 with events := eventsAt (earlier ++ rest) chunks e } := by
    induction rest generalizing earlier with
    | nil => exact attachAll_nil _
    | cons s rest ih =>
      have left : (chunks.filter (free earlier)).filter (·.spanId ≠ s.spanId) =
          chunks.filter (free (earlier ++ [s])) := by
        rw [List.filter_filter]
        refine List.filter_congr fun c _ => ?_
        simp [free, Bool.and_comm, eq_comm]
      have next := ih (earlier ++ [s])
      rw [List.length_append, List.append_assoc] at next
      rw [attachAll_cons, left, next, eventsOf_free, List.zipIdx_cons, List.map_cons, eventsAt,
        List.take_left]
      rfl
  have all : chunks.filter (free []) = chunks := List.filter_eq_self.2 fun c _ => rfl
  have start := later [] spans
  rwa [all] at start

/-! Spans are sorted with their places. -/

/-- A span as it is read. -/
def completed (spans : List Span) (chunks : List SpanChunk) (e : Span × Nat) : Span :=
  { e.1 with events := bySequence (eventsAt spans chunks e) }

/-- Spans with their places, in the order of their starts. -/
def byStart (spans : List Span) : List (Span × Nat) :=
  spans.zipIdx.mergeSort (List.zipIdxLE fun a b => decide (a.startTime ≤ b.startTime))

theorem assemble_eq (spans : List Span) (chunks : List SpanChunk) :
    Parts.assemble ⟨spans, chunks⟩ = (byStart spans).map (completed spans chunks) := by
  have attached : (attachAll chunks spans).map (fun s => { s with events := bySequence s.events }) =
      spans.zipIdx.map (completed spans chunks) := by
    rw [attachAll_eq, List.map_map]
    rfl
  have placed : (spans.zipIdx.map (completed spans chunks)).zipIdx =
      spans.zipIdx.map fun e => (completed spans chunks e, e.2) := by
    refine List.ext_getElem? fun n => ?_
    simp only [List.getElem?_zipIdx, List.getElem?_map]
    cases spans[n]? <;> simp
  -- Reading a span changes its events only, so sorting before and after come to the same.
  have moved : (byStart spans).map (fun e => (completed spans chunks e, e.2)) =
      (spans.zipIdx.map fun e => (completed spans chunks e, e.2)).mergeSort
        (List.zipIdxLE fun a b => decide (a.startTime ≤ b.startTime)) :=
    List.map_mergeSort fun _ _ _ _ => rfl
  refine (congrArg byStartTime attached).trans ?_
  rw [byStartTime, ← List.mergeSort_zipIdx, placed, ← moved, List.map_map]
  rfl

theorem byStart_perm (spans : List Span) : (byStart spans).Perm spans.zipIdx :=
  List.mergeSort_perm _ _

/-- Of spans that start at the same time, the one that came first is read first. -/
theorem byStart_ordered (spans : List Span) :
    (byStart spans).Pairwise fun a b =>
      a.1.startTime < b.1.startTime ∨ a.1.startTime = b.1.startTime ∧ a.2 < b.2 := by
  have trans (a b c : Span) (first : decide (a.startTime ≤ b.startTime) = true)
      (second : decide (b.startTime ≤ c.startTime) = true) :
      decide (a.startTime ≤ c.startTime) = true :=
    decide_eq_true (Int64.le_trans (of_decide_eq_true first) (of_decide_eq_true second))
  have total (a b : Span) :
      (decide (a.startTime ≤ b.startTime) || decide (b.startTime ≤ a.startTime)) = true := by
    simpa using Int64.le_total a.startTime b.startTime
  have places : ((byStart spans).map (·.2)).Nodup := by
    rw [((byStart_perm spans).map (·.2)).nodup_iff, List.zipIdx_map_snd]
    exact List.nodup_range'
  have sorted := List.pairwise_mergeSort (List.zipIdxLE_trans trans) (List.zipIdxLE_total total)
    spans.zipIdx
  refine (sorted.and (List.pairwise_map.1 places)).imp fun {a b} both => ?_
  obtain ⟨before, apart⟩ := both
  simp only [List.zipIdxLE, decide_eq_true_eq] at before
  split at before
  next le =>
    split at before
    next ge =>
      have place := of_decide_eq_true before
      exact .inr ⟨Int64.le_antisymm le ge, by omega⟩
    next less => exact .inl (Int64.not_le.1 less)
  next => cases before

/-! Chunks without a span. -/

theorem spansOf_orphans (t : TransactionId) (spans : List Span) (arrivals : List Arrival) :
    spansOf t (arrivals.filter fun x => !x.orphan t spans) = spansOf t arrivals := by
  rw [spansOf, List.filterMap_filter]
  refine congrArg (List.filterMap · arrivals) (funext fun x => ?_)
  cases x with
  | span s => rfl
  | chunk c => simp [Arrival.span?]

theorem chunksOf_orphans (t : TransactionId) (spans : List Span) (arrivals : List Arrival) :
    chunksOf t (arrivals.filter fun x => !x.orphan t spans) =
      (chunksOf t arrivals).filter fun c => spans.any (·.spanId = c.spanId) := by
  rw [chunksOf, chunksOf, List.filterMap_filter, List.filter_filterMap]
  refine congrArg (List.filterMap · arrivals) (funext fun x => ?_)
  cases x with
  | span s => rfl
  | chunk c =>
    by_cases own : c.transactionId = t <;>
      simp [Arrival.orphan, Arrival.chunk?, own, Option.filter_some]

/-- Chunks join the spans of their id, so those without such a span make no difference. -/
theorem completed_filter (spans : List Span) (chunks : List SpanChunk) {e : Span × Nat}
    (member : e ∈ spans.zipIdx) :
    completed spans (chunks.filter fun c => spans.any (·.spanId = c.spanId)) e =
      completed spans chunks e := by
  have kept : eventsOf e.1.spanId (chunks.filter fun c => spans.any (·.spanId = c.spanId)) =
      eventsOf e.1.spanId chunks := by
    rw [eventsOf, List.filter_filter, eventsOf]
    congr 1
    refine List.filter_congr fun c _ => ?_
    by_cases own : c.spanId = e.1.spanId
    · have known : ∃ s ∈ spans, s.spanId = e.1.spanId :=
        ⟨e.1, List.fst_mem_of_mem_zipIdx member, rfl⟩
      simpa [own] using known
    · simp [own]
  rw [completed, completed, eventsAt, eventsAt, joining, joining, kept]

theorem completed_events (spans : List Span) (chunks : List SpanChunk) (e : Span × Nat) :
    (completed spans chunks e).events.Pairwise (fun a b => a.sequence ≤ b.sequence) ∧
      (completed spans chunks e).events.Perm (eventsAt spans chunks e) := by
  have sorted := stableSort_mergeSort (·.sequence) (eventsAt spans chunks e)
  exact ⟨sorted.ordered, sorted.perm⟩

/-- A trace has the spans of its transaction, each once, by their starts and then as they arrived.
Each is as it arrived but for its events, which are in sequence: its own, and if it is the first of
its id those of the chunks of this id. Chunks without a span make no difference, and it does not
matter how the spans and the chunks came mixed with each other and with those of other
transactions. -/
theorem trace_assembled (t : TransactionId) (arrivals : List Arrival) :
    let spans := spansOf t arrivals
    let chunks := chunksOf t arrivals
    (∃ order : List (Span × Nat), order.Perm spans.zipIdx ∧
      order.Pairwise (fun a b => a.1.startTime < b.1.startTime ∨
        a.1.startTime = b.1.startTime ∧ a.2 < b.2) ∧
      (Archive.collect arrivals).trace t = order.map (completed spans chunks)) ∧
    (∀ e ∈ spans.zipIdx, let read := completed spans chunks e
      { read with events := e.1.events } = e.1 ∧
      read.events.Pairwise (fun a b => a.sequence ≤ b.sequence) ∧
      read.events.Perm (e.1.events ++ joining chunks (spans.take e.2) e.1)) ∧
    (Archive.collect (arrivals.filter fun x => !x.orphan t spans)).trace t =
      (Archive.collect arrivals).trace t ∧
    ∀ arrivals', spansOf t arrivals' = spans → chunksOf t arrivals' = chunks →
      (Archive.collect arrivals').trace t = (Archive.collect arrivals).trace t := by
  intro spans chunks
  have assembled := Archive.trace_collect arrivals t
  refine ⟨⟨byStart spans, byStart_perm spans, byStart_ordered spans, ?_⟩, fun e _ => ?_, ?_, ?_⟩
  · rw [assembled, assemble_eq]
  · exact ⟨rfl, completed_events spans chunks e⟩
  · rw [Archive.trace_collect, spansOf_orphans, chunksOf_orphans, assembled, assemble_eq,
      assemble_eq]
    exact List.map_congr_left fun e member =>
      completed_filter spans chunks ((byStart_perm spans).mem_iff.1 member)
  · intro arrivals' sameSpans sameChunks
    rw [Archive.trace_collect, sameSpans, sameChunks, assembled]

/-- Two spans, a chunk of one of them, and a chunk without a span. -/
def fourArrivals : List Arrival :=
  let t : TransactionId := ⟨"agent", 1, 7⟩
  let events := List.map fun sequence : Int32 =>
    (⟨sequence, 0, 0, 0, .undefined, 0, none, none, none, none, [], none⟩ : SpanEvent)
  let span (id start : Int64) (sequences : List Int32) : Span :=
    ⟨t, "agent", "app", 1, 0, id, -1, start, 10, .undefined, .undefined, 0, none, none, none, none,
      none, 0, 0, 0, none, [], events sequences⟩
  let chunk (id : Int64) (sequences : List Int32) : SpanChunk :=
    ⟨t, "agent", "app", 1, id, 0, none, .undefined, none, events sequences⟩
  [.span (span 2 200 [0]), .span (span 1 100 [0, 4]), .chunk (chunk 1 [3, 2]), .chunk (chunk 9 [1])]

/-- The chunks may come before the spans. -/
theorem trace_assembled_chunksFirst :
    let t : TransactionId := ⟨"agent", 1, 7⟩
    let read := (Archive.collect fourArrivals).trace t
    (Archive.collect (fourArrivals.drop 2 ++ fourArrivals.take 2)).trace t = read ∧
      read.length = 2 := by
  obtain ⟨⟨order, perm, -, read⟩, -, -, alike⟩ := trace_assembled ⟨"agent", 1, 7⟩ fourArrivals
  exact ⟨alike _ (by decide) (by decide), by rw [read, List.length_map, perm.length_eq]; decide⟩

end CallTelemetry.Trace
