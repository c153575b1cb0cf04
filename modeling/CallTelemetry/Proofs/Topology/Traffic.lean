import CallTelemetry.Proofs.Statistics.Answering
import CallTelemetry.Proofs.Topology.RoundTrip
import CallTelemetry.Proofs.Topology.Totals

/-! The traffic of spans. A span is entered twice in the row of its application: as an answer of the
agent, and as a call by whoever made it. The totals of the two rows are the same. -/
namespace CallTelemetry

open Latency Pending
open CallTelemetry.Topology.Query (valuesIn addressed_onSide)

namespace Statistics

/-- The answer that a span is. -/
def answer (s : Trace.Span) : Answer :=
  ⟨⟨s.applicationName, s.applicationServiceType⟩, s.agentId, s.elapsed, s.hasError,
    s.acceptTime.toInt⟩

/-- What a record says, whatever its column. -/
def Record.count {κ : Type} (r : Record κ) : RowKey × Slot × Int64 := (r.row, r.slot, r.value)

/-- What a call says of its callee. -/
def Call.counts (c : Call) : List (RowKey × Slot × Int64) :=
  let row : RowKey := ⟨c.callee.name, c.callee.type.code, timeSlot c.timestamp⟩
  [(row, c.slot, 1), (row, .sum, c.elapsed.toInt64), (row, .max, c.elapsed.toInt64)]

namespace Half

/-- What is kept of calls, with the bytes of its columns. -/
def stored {κ : Type} (h : Half κ) (encode : κ → Bytes) : Half Bytes where
  row := h.row
  column c slot := encode (h.column c slot)

theorem mutation_stored {κ : Type} (h : Half κ) (encode : κ → Bytes) (c : Call) :
    ((h.stored encode).records c).map (·.mutation id) = (h.records c).map (·.mutation encode) := by
  rw [mutation_records, mutation_records]
  rfl

/-- Whether calls are kept in the rows of their callees, in columns that tell the codes of slots. -/
structure OfCallee (h : Half Bytes) (code : Bytes → Int16) : Prop where
  row (c : Call) : h.row c = ⟨c.callee.name, c.callee.type.code, timeSlot c.timestamp⟩
  code (c : Call) (slot : Slot) : code (h.column c slot) = c.callee.type.scheme.code slot

theorem response_ofCallee : (response.stored ResponseColumn.encode).OfCallee ResponseColumn.codeIn where
  row _ := rfl
  code _ _ := ResponseColumn.codeIn_encode _

theorem inbound_ofCallee : (inbound.stored CallerColumn.encode).OfCallee CallerColumn.codeIn where
  row _ := rfl
  code _ _ := CallerColumn.codeIn_encode _

namespace OfCallee

variable {h : Half Bytes} {code : Bytes → Int16} (ofCallee : h.OfCallee code)

include ofCallee

theorem readable {calls : List Call} (valid : ∀ c ∈ calls, Identifier.valid c.callee.name)
    (nonneg : ∀ c ∈ calls, 0 ≤ c.timestamp) (bound : ∀ c ∈ calls, c.timestamp ≤ lastMillis) :
    h.Readable id .ok calls where
  row c member := by
    rw [ofCallee.row]
    exact row_sound (nonneg c member) (bound c member) (valid c member) _
  column c member slot := rfl
  slot c member c' member' slot slot' rows columns := by
    rw [ofCallee.row, ofCallee.row] at rows
    obtain ⟨-, types, -⟩ := RowKey.mk.inj rows
    have codes := congrArg code columns
    rw [ofCallee.code, ofCallee.code] at codes
    exact slot_injective (ServiceType.code_injective _ _ types) codes

/-- In a row of an application, the code of a column tells the slot of its records. -/
theorem code_eq_iff {calls : List Call} {r : Record Bytes} (member : r ∈ calls.flatMap h.records)
    {a : Application} {time : Int} (here : r.row.encode = RowKey.encode ⟨a.name, a.type.code, time⟩)
    (slot : Slot) : code r.column = a.type.scheme.code slot ↔ r.slot = slot := by
  obtain ⟨c, -, row, column, -⟩ := h.mem_records member
  have types := RowKey.type_of_encode here
  rw [row, ofCallee.row] at types
  have types := ServiceType.code_injective _ _ types
  rw [column, ofCallee.code]
  constructor
  · exact slot_injective types
  · rintro rfl
    rw [types]

/-- On every such side a call counts in the same way. -/
theorem valuesIn_eq (d : Destination Bytes) (calls : List Call) (row : Bytes) (slot : Slot) :
    valuesIn d (calls.flatMap h.records) row slot = ((calls.flatMap Call.counts).filter
      fun e => d.salting.salted e.1.encode = row ∧ e.2.1 = slot).map (·.2.2) := by
  have counts : (calls.flatMap h.records).map Record.count = calls.flatMap Call.counts := by
    rw [List.map_flatMap]
    congr 1
    funext c
    simp only [records, record, List.map_cons, List.map_nil, Record.count, Call.counts, ofCallee.row]
  rw [← counts, List.filter_map, List.map_map]
  rfl

end OfCallee

end Half

theorem counts_answer (s : Trace.Span) : (answer s).call.counts = (inboundCall s).counts := by
  cases parent : s.parent <;> simp only [inboundCall, parent] <;> rfl

theorem inboundCall_callee (s : Trace.Span) : (inboundCall s).callee = (answer s).application := by
  cases parent : s.parent <;> simp only [inboundCall, parent] <;> rfl

theorem inboundCall_timestamp (s : Trace.Span) :
    (inboundCall s).timestamp = s.acceptTime.toInt := by
  cases parent : s.parent <;> simp only [inboundCall, parent]

theorem side_of_mem {side : Side} {mutations : Except RowError (List Mutation)} {m : Side × Mutation}
    (member : m ∈ onSide side mutations) : m.1 = side := by
  cases mutations with
  | error _ => exact absurd member List.not_mem_nil
  | ok ms =>
    obtain ⟨_, -, rfl⟩ := List.mem_map.1 member
    rfl

/-- What a span tells the writers of answers and of callees. Its events are calls to others. -/
theorem addressed_ofSpan {s : Trace.Span} (valid : Identifier.valid s.applicationName) :
    Writing.addressed .self (ofSpan s) =
        (Half.response.records (answer s).call).map (·.mutation ResponseColumn.encode) ∧
      Writing.addressed .callee (ofSpan s) =
        (Half.inbound.records (inboundCall s)).map (·.mutation CallerColumn.encode) := by
  have named : Identifier.valid (inboundCall s).callee.name := by
    rw [inboundCall_callee]
    exact valid
  have own : response ⟨s.applicationName, s.applicationServiceType⟩ s.agentId s.elapsed s.hasError
      s.acceptTime.toInt = .ok _ := Half.response_eq (c := answer s) valid
  let rest := (if s.parent.isNone then onSide .caller (outbound (inboundCall s)) else []) ++
    ofEvents ⟨s.applicationName, s.applicationServiceType⟩ s.agentId s.acceptTime.toInt s.events
  have caller (m : Side × Mutation) (member : m ∈ rest) : m.1 = .caller := by
    rcases List.mem_append.1 member with user | event
    · split at user
      · exact side_of_mem user
      · exact absurd user List.not_mem_nil
    · obtain ⟨c, -, call⟩ := List.mem_flatMap.1 event
      exact side_of_mem call
  have elsewhere {side : Side} (apart : side ≠ .caller) : Writing.addressed side rest = [] := by
    refine List.filterMap_eq_nil_iff.2 fun m member => if_neg fun here => apart ?_
    rw [← here, caller m member]
  have parts : ofSpan s = onSide .self (.ok ((Half.response.records (answer s).call).map
      (·.mutation ResponseColumn.encode))) ++ onSide .callee (.ok ((Half.inbound.records
        (inboundCall s)).map (·.mutation CallerColumn.encode))) ++ rest := by
    rw [← own, ← Half.inbound_eq named, ofSpan, List.append_assoc _ _ (ofEvents _ _ _ _)]
  rw [parts]
  simp only [Writing.addressed_append, addressed_onSide, elsewhere (by decide : Side.self ≠ .caller),
    elsewhere (by decide : Side.callee ≠ .caller)]
  simp

end Statistics

namespace Topology.Query

open Statistics

/-- The numbers of the columns in which the row of an application and a minute keeps a slot. -/
def slotNumbers (s : Store) (t : Tables) (f : ColumnFamily) (code : Bytes → Int16) (a : Application)
    (time : Int) (slot : Slot) : List Int :=
  numbersOf s (f.tableIn t.space) (t.salting.salted (RowKey.encode ⟨a.name, a.type.code, time⟩))
    fun column => code column = a.type.scheme.code slot

/-- What spans leave in the rows of those who answered, and in the rows of callees, with the bytes of
the columns. -/
def ownRecords (spans : List Trace.Span) : List (Record Bytes) :=
  (spans.map fun x => (answer x).call).flatMap (Half.response.stored ResponseColumn.encode).records

def callerRecords (spans : List Trace.Span) : List (Record Bytes) :=
  (spans.map inboundCall).flatMap (Half.inbound.stored CallerColumn.encode).records

/-- A writer is told of spans what it is told of each. -/
theorem told_of_spans {κ : Type} {recording : List (Writing.Action Side)}
    {spans : List Trace.Span} (recorded : (Writing.mutations recording).Perm (spans.flatMap ofSpan))
    {side : Side} {h : Half κ} {encode : κ → Bytes} {call : Trace.Span → Call}
    (each : ∀ x ∈ spans, Writing.addressed side (ofSpan x) =
      (h.records (call x)).map (·.mutation encode)) :
    (Writing.told side recording).Perm
      (((spans.map call).flatMap (h.stored encode).records).map (·.mutation id)) := by
  have addressed : Writing.addressed side (spans.flatMap ofSpan) =
      ((spans.map call).flatMap (h.stored encode).records).map (·.mutation id) := by
    rw [Writing.addressed, List.filterMap_flatMap, List.flatMap_map, List.map_flatMap,
      List.flatMap_def, List.flatMap_def]
    refine congrArg List.flatten (List.map_congr_left fun x member => ?_)
    rw [Half.mutation_stored]
    exact each x member
  rw [← addressed]
  exact recorded.filterMap _

section

variable {t : Tables} {s : Writing Side} (starts : Starts t s)
  {recording finishing : List (Writing.Action Side)} (quiet : ∀ a ∈ recording, a.Quiet)
  (room : s.admits recording) (flushes : ∀ a ∈ finishing, a.Flushes)
  (last : ∀ side kind, .flush side kind ∈ finishing)
  (done : (s.run (recording ++ finishing)).deliveries = [])

include starts quiet room flushes last done

/-- After a last flush, the row of an application has the totals of its calls. -/
theorem total_slotNumbers (side : Side) {h : Half Bytes} {code : Bytes → Int16}
    (ofCallee : h.OfCallee code) {calls : List Call}
    (valid : ∀ c ∈ calls, Identifier.valid c.callee.name) (nonneg : ∀ c ∈ calls, 0 ≤ c.timestamp)
    (bound : ∀ c ∈ calls, c.timestamp ≤ lastMillis) (bounded : Bounded (calls.flatMap h.records))
    (told : (Writing.told side recording).Perm ((calls.flatMap h.records).map (·.mutation id)))
    (a : Application) (time : Int) (slot : Slot) :
    slot.total (slotNumbers (s.run (recording ++ finishing)).store t side.family code a time slot) =
      slot.total (((calls.flatMap Call.counts).filter fun e => t.salting.salted e.1.encode =
        t.salting.salted (RowKey.encode ⟨a.name, a.type.code, time⟩) ∧ e.2.1 = slot).map
          (·.2.2.toInt)) := by
  have readable := ofCallee.readable valid nonneg bound
  have keeps := keeps_records starts quiet room flushes last done side readable told
  have peaks := fun r => peak_records (r := r) starts quiet room flushes last done side readable told
  refine Eq.trans
    (total_numbersOf keeps readable.distinct (fun r member here => ?_) bounded peaks) ?_
  · rw [decide_eq_true_iff]
    exact ofCallee.code_eq_iff member (List.cons.inj here).2 slot
  · rw [ofCallee.valuesIn_eq, List.map_map]
    rfl

/-- Spans that are recorded in any order, with flushes in between and a last flush of all writers,
leave the same totals in the two rows of an application and a minute: what its agents answered, and
what it was called. Neither depends on the columns over which it is spread. -/
theorem traffic_agrees {spans : List Trace.Span}
    (recorded : (Writing.mutations recording).Perm (spans.flatMap ofSpan))
    (valid : ∀ x ∈ spans, Identifier.valid x.applicationName) (nonneg : ∀ x ∈ spans, 0 ≤ x.acceptTime)
    (bounded : Bounded (ownRecords spans)) (bounded' : Bounded (callerRecords spans))
    (a : Application) (time : Int) (slot : Slot) :
    let store := (s.run (recording ++ finishing)).store
    slot.total (slotNumbers store t .selfCounter ResponseColumn.codeIn a time slot) =
      slot.total (slotNumbers store t .calleeCounter CallerColumn.codeIn a time slot) := by
  have early (x : Trace.Span) (member : x ∈ spans) : 0 ≤ x.acceptTime.toInt :=
    Int64.le_iff_toInt_le.1 (nonneg x member)
  have late (x : Trace.Span) : x.acceptTime.toInt ≤ lastMillis := by
    rw [lastMillis_eq]
    exact Int64.le_iff_toInt_le.1 (Int64.le_maxValue _)
  have own := total_slotNumbers starts quiet room flushes last done .self Half.response_ofCallee
    (List.forall_mem_map.2 valid) (List.forall_mem_map.2 early)
    (List.forall_mem_map.2 fun x _ => late x) bounded
    (told_of_spans recorded fun x member => (addressed_ofSpan (valid x member)).1) a time slot
  have called := total_slotNumbers starts quiet room flushes last done .callee Half.inbound_ofCallee
    (List.forall_mem_map.2 fun x member => inboundCall_callee x ▸ valid x member)
    (List.forall_mem_map.2 fun x member => inboundCall_timestamp x ▸ early x member)
    (List.forall_mem_map.2 fun x _ => inboundCall_timestamp x ▸ late x) bounded'
    (told_of_spans recorded fun x member => (addressed_ofSpan (valid x member)).2) a time slot
  refine own.trans (Eq.trans ?_ called.symm)
  simp only [List.flatMap_map, counts_answer]

end

/-- A span of a user, in which a database is called, and one of another agent for a caller who names
the host. The second failed, and ended before it began. -/
def twoSpans : Trace.Span × Trace.Span :=
  let ofUser : Trace.Span := {
    transactionId := ⟨"shop-1", 60000, 1⟩, agentId := "shop-1", applicationName := "shop"
    agentStartTime := 60000, acceptTime := 61000, spanId := 1, parentSpanId := -1
    startTime := 60500, elapsed := 1200, serviceType := .tomcat, applicationServiceType := .tomcat
    apiId := 0, rpc := none, endPoint := none, remoteAddr := none, acceptorHost := none
    parent := none, flag := 0, errCode := 0, loggingTransactionInfo := 0, exceptionInfo := none
    tags := []
    events := [⟨0, 0, 30, 1, .mysql, 0, some "db:3306", some "orders", none, none, [], none⟩] }
  (ofUser, { ofUser with
    agentId := "shop-2", acceptTime := 119999, spanId := 2, parentSpanId := 1, elapsed := -5
    acceptorHost := some "shop:80", parent := some ⟨"gateway", .springBoot⟩, errCode := 1
    events := [] })

/-- The second span is recorded first, and a flush is under way when the other is. -/
def spansRecorded : List (Writing.Action Side) :=
  let record (l : List (Side × Mutation)) : List (Writing.Action Side) :=
    l.map fun e => .mutate e.1 e.2
  record (ofSpan twoSpans.2) ++ [.flush .callee .maxima, .flush .self .counters] ++
    record (ofSpan twoSpans.1) ++ [.answer 0]

theorem traffic_agrees_two :
    let store := (threeWriters.run (spansRecorded ++ twoFinished)).store
    let own := slotNumbers store twoBuckets .selfCounter ResponseColumn.codeIn ⟨"shop", .tomcat⟩ 60000
    let called :=
      slotNumbers store twoBuckets .calleeCounter CallerColumn.codeIn ⟨"shop", .tomcat⟩ 60000
    (∀ slot : Slot, slot.total (own slot) = slot.total (called slot)) ∧
      own .sum = [1200, -5] := by
  have quiet : ∀ a ∈ spansRecorded, a.Quiet := by decide
  have recorded : (Writing.mutations spansRecorded).Perm
      ([twoSpans.1, twoSpans.2].flatMap ofSpan) := List.isPerm_iff.1 (by cbv)
  refine ⟨?_, by cbv⟩
  exact traffic_agrees threeWriters_starts quiet (by cbv) twoFinished_flushes mem_twoFinished (by cbv)
    recorded (by decide) (by decide) (by decide) (by decide) ⟨"shop", .tomcat⟩ 60000

end Topology.Query

end CallTelemetry
