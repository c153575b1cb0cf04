import CallTelemetry.Proofs.Intake.Refusal
import CallTelemetry.Proofs.Statistics.Keying
import CallTelemetry.Proofs.Topology.Traffic

/-! The calls of users. A span that names no caller is entered as a call of the user, whatever its
parent span is; so the calls of users are those of the root spans only where the root spans are the
ones that name no caller. -/
namespace CallTelemetry

open Latency Pending

namespace Statistics

/-- Whether a span is entered as a call of a user: it names no caller, or one of that type. -/
def fromUser (x : Trace.Span) : Bool := x.parent.all (·.type == .user)

theorem fromUser_iff (x : Trace.Span) : fromUser x ↔ (inboundCall x).caller.type = .user := by
  cases parent : x.parent <;> simp [fromUser, inboundCall, parent]

/-- Whether a span is of an application and a minute. -/
def Of (a : Application) (time : Int) (x : Trace.Span) : Prop :=
  (⟨x.applicationName, x.applicationServiceType⟩ : Application) = a ∧ timeSlot x.acceptTime.toInt = time

instance (a : Application) (time : Int) (x : Trace.Span) : Decidable (Of a time x) :=
  inferInstanceAs (Decidable (_ ∧ _))

/-- Whether changes are in rows of applications of a type. -/
def Typed (type : ServiceType) (mutations : Except RowError (List Mutation)) : Prop :=
  ∀ ms, mutations = .ok ms →
    ∀ m ∈ ms, ∃ name slot, m.row.key = RowKey.encode ⟨name, type.code, slot⟩

theorem typed_changes (name : String) (type : ServiceType) (slot : Int) (column : Slot → Bytes)
    (counted : Slot) (elapsed : Int32) :
    Typed type (do return changes (← RowKey.of name type.code slot) column counted elapsed) := by
  intro ms made m member
  rw [RowKey.of] at made
  split at made
  · cases made
  · obtain rfl := Except.ok.inj made
    refine ⟨name, slot, ?_⟩
    simp only [changes, List.mem_cons, List.not_mem_nil, or_false] at member
    rcases member with rfl | rfl | rfl <;> rfl

/-- All that is tried for a span is in rows of the type of its application, but for the call of a user
of whom it names nothing. -/
theorem typed_triedForSpan {x : Trace.Span} {e : Side × Except RowError (List Mutation)}
    (member : e ∈ triedForSpan x) :
    Typed x.applicationServiceType e.2 ∨ e.1 = .caller ∧ x.parent = none := by
  simp only [triedForSpan, List.mem_append, List.mem_cons, List.not_mem_nil, or_false] at member
  rcases member with ((rfl | rfl) | user) | event
  · exact .inl (typed_changes _ _ _ _ _ _)
  · have type : (inboundCall x).callee.type = x.applicationServiceType := by
      rw [inboundCall_callee]
      rfl
    exact .inl (type ▸ typed_changes _ _ _ _ _ _)
  · cases parent : x.parent with
    | none =>
      simp only [parent, Option.isNone_none, ↓reduceIte, List.mem_singleton] at user
      exact .inr ⟨by rw [user], rfl⟩
    | some _ => simp [parent] at user
  · obtain ⟨c, made, rfl⟩ := List.mem_map.1 event
    obtain ⟨event, -, called⟩ := List.mem_filterMap.1 made
    unfold eventCall? at called
    split at called
    · obtain ⟨destination, -, rfl⟩ := Option.map_eq_some_iff.1 called
      exact .inl (typed_changes _ _ _ _ _ _)
    · cases called

/-- A span writes to rows of users only if its application is a user, or if it names no caller. -/
theorem row_of_user {x : Trace.Span} {e : Side × Mutation} (member : e ∈ ofSpan x) {k : RowKey}
    (row : e.2.row.key = k.encode) (user : k.type = ServiceType.user.code) :
    x.applicationServiceType = .user ∨ fromUser x := by
  rw [ofSpan_eq] at member
  obtain ⟨tried, inside, entered⟩ := List.mem_flatMap.1 member
  rcases typed_triedForSpan inside with typed | ⟨-, nobody⟩
  · cases made : tried.2 with
    | error _ => simp [onSide, made] at entered
    | ok ms =>
      rw [made] at entered
      obtain ⟨m, written, rfl⟩ := List.mem_map.1 entered
      obtain ⟨name, slot, key⟩ := typed ms made m written
      have types := RowKey.type_of_encode (key.symm.trans row)
      exact .inl (ServiceType.code_injective _ _ (types.trans user))
  · exact .inr (by simp [fromUser, nobody])

/-- What a span writes to the row of a callee is in columns of the type of its caller. -/
theorem column_of_callee {x : Trace.Span} (valid : Identifier.valid x.applicationName)
    {e : Side × Mutation} (member : e ∈ ofSpan x) (callee : e.1 = .callee) :
    CallerColumn.typeIn e.2.column = (inboundCall x).caller.type.code := by
  have told : e.2 ∈ Writing.addressed .callee (ofSpan x) :=
    List.mem_filterMap.2 ⟨e, member, if_pos callee⟩
  rw [(addressed_ofSpan valid).2] at told
  obtain ⟨r, written, same⟩ := List.mem_map.1 told
  have column : r.column = Half.inbound.column (inboundCall x) r.slot := by
    simp only [Half.records, List.mem_cons, List.not_mem_nil, or_false] at written
    rcases written with rfl | rfl | rfl <;> rfl
  rw [← same, Record.mutation, column, CallerColumn.typeIn_encode]
  rfl

theorem exists_callee {x : Trace.Span} (valid : Identifier.valid x.applicationName) :
    ∃ e ∈ ofSpan x, e.1 = .callee := by
  have told : (Half.inbound.record (inboundCall x) (inboundCall x).slot 1).mutation
      CallerColumn.encode ∈ Writing.addressed .callee (ofSpan x) := by
    rw [(addressed_ofSpan valid).2]
    exact List.mem_map_of_mem List.mem_cons_self
  obtain ⟨e, member, here⟩ := List.mem_filterMap.1 told
  refine ⟨e, member, ?_⟩
  by_contra other
  rw [if_neg other] at here
  cases here

end Statistics

namespace Topology.Query

open Statistics

/-- The columns in which the row of an application counts calls of callers of a type. -/
def countsCaller (a : Application) (caller : ServiceType) (column : Bytes) : Bool :=
  CallerColumn.typeIn column == caller.code &&
    (a.type.scheme.slotOfCode? (CallerColumn.codeIn column)).any (· ∈ Slot.counted)

/-- The number of calls that the row of an application and a minute counts under callers of a type. -/
def callsUnder (s : Store) (t : Tables) (caller : ServiceType) (a : Application) (time : Int) : Int :=
  (numbersOf s (ColumnFamily.calleeCounter.tableIn t.space)
    (t.salting.salted (RowKey.encode ⟨a.name, a.type.code, time⟩)) (countsCaller a caller)).sum

/-- Whether the calls of users are those that some of the spans answer, and no other span is in a column
of theirs, or in a row of theirs that is not its own. -/
structure UserTraffic (s : Store) (t : Tables) (spans : List Trace.Span) (p : Trace.Span → Bool) :
    Prop where
  calls : ∀ a time, RowKey.Sound ⟨a.name, a.type.code, time⟩ →
    callsUnder s t .user a time = spans.countP fun x => Of a time x ∧ p x
  columns : ∀ x ∈ spans, ∀ e ∈ ofSpan x, e.1 = .callee →
    (CallerColumn.typeIn e.2.column = ServiceType.user.code ↔ p x)
  rows : ∀ x ∈ spans, ∀ e ∈ ofSpan x, ∀ k : RowKey, e.2.row.key = k.encode →
    k.type = ServiceType.user.code → x.applicationServiceType = .user ∨ p x

theorem UserTraffic.congr {s : Store} {t : Tables} {spans : List Trace.Span}
    {p q : Trace.Span → Bool} (users : UserTraffic s t spans p) (agree : ∀ x ∈ spans, q x = p x) :
    UserTraffic s t spans q where
  calls a time sound := by
    rw [users.calls a time sound]
    refine congrArg Nat.cast (List.countP_congr fun x member => ?_)
    rw [agree x member]
  columns x member e inside callee := by
    rw [agree x member]
    exact users.columns x member e inside callee
  rows x member e inside k row user := by
    rw [agree x member]
    exact users.rows x member e inside k row user

section

variable {t : Tables} {s : Writing Side} (starts : Starts t s)
  {recording finishing : List (Writing.Action Side)} (quiet : ∀ a ∈ recording, a.Quiet)
  (room : s.admits recording) (flushes : ∀ a ∈ finishing, a.Flushes)
  (last : ∀ side kind, .flush side kind ∈ finishing)
  (done : (s.run (recording ++ finishing)).deliveries = [])

include starts quiet room flushes last done

/-- After a last flush, columns of a row that count calls hold the number of these calls. -/
theorem sum_numbersOf {κ : Type} [DecidableEq κ] (side : Side) {h : Half κ} {encode : κ → Bytes}
    {decode : Bytes → Except RowError κ} {calls : List Call}
    (readable : h.Readable encode decode calls) (few : calls.length < 2 ^ 63)
    (told : (Writing.told side recording).Perm ((calls.flatMap h.records).map (·.mutation encode)))
    {row : Bytes} {chosen : Bytes → Bool} {q : Call → Bool}
    (choice : ∀ c ∈ calls, t.salting.salted (h.row c).encode = row →
      ∀ slot, chosen (encode (h.column c slot)) = (q c && decide (slot ∈ Slot.counted))) :
    (numbersOf (s.run (recording ++ finishing)).store (side.family.tableIn t.space) row chosen).sum =
      calls.countP fun c => decide (t.salting.salted (h.row c).encode = row) && q c := by
  have distinct : Distinct (t.destination side.family encode) _ := readable.distinct
  have keeps := keeps_records starts quiet room flushes last done side readable told
  have counted {r : Record κ} (member : r ∈ calls.flatMap h.records)
      (here : t.salting.salted r.row.encode = row) (taken : chosen (encode r.column)) :
      r.slot ∈ Slot.counted ∧ r.value = 1 := by
    obtain ⟨c, inside, rows, column, one⟩ := h.mem_records member
    rw [column, choice c inside (rows ▸ here), Bool.and_eq_true] at taken
    exact ⟨of_decide_eq_true taken.2, one (of_decide_eq_true taken.2)⟩
  have adds (l : List Int) := amount_of_counter (by decide : Slot.fast ≠ .max) l
  have amounts (r : Record κ) (member : r ∈ calls.flatMap h.records)
      (here : t.salting.salted r.row.encode = row) (taken : chosen (encode r.column)) :
      Slot.fast.amount (((s.run (recording ++ finishing)).store.count?
          ((t.destination side.family encode).place r.row r.column)).map Int64.toInt).toList =
        unwrapped (calls.flatMap h.records) r.key .fast := by
    have class_ := (counted member here taken).1
    have most := Half.unwrapped_le_length distinct member class_
    have least := Half.unwrapped_counted distinct member class_
    have fits : Representable (unwrapped (calls.flatMap h.records) r.key r.slot) := by
      have words : Int64.minValue.toInt ≤ 0 ∧ Int64.maxValue.toInt = 2 ^ 63 - 1 := by decide
      unfold Representable
      omega
    have amount := keeps.toInt_amounts member fits
    have top := Slot.ne_max_of_counted class_
    rwa [unwrapped, amount_of_counter top, amount_of_counter top, ← adds, ← adds, ← unwrapped]
      at amount
  let kept := (calls.flatMap h.records).filter fun r =>
    t.salting.salted r.row.encode = row ∧ chosen (encode r.column)
  have ones : ∀ x ∈ kept.map (·.value.toInt), x = 1 := by
    intro x listed
    obtain ⟨r, inside, rfl⟩ := List.mem_map.1 listed
    obtain ⟨member, taken⟩ := List.mem_filter.1 inside
    obtain ⟨here, taken⟩ := of_decide_eq_true taken
    rw [(counted member here taken).2]
    rfl
  have total : Slot.fast.amount (numbersOf (s.run (recording ++ finishing)).store
      (side.family.tableIn t.space) row chosen) = Slot.fast.amount (kept.map (·.value.toInt)) :=
    amount_chosen keeps.origin distinct amounts
  have number : kept.length =
      calls.countP fun c => decide (t.salting.salted (h.row c).encode = row) && q c := by
    rw [← List.countP_eq_length_filter]
    refine Half.countP_records fun c inside slot value => ?_
    simp only [Half.record]
    by_cases here : t.salting.salted (h.row c).encode = row
    · simp [here, choice c inside here]
    · simp [here]
  rw [adds, adds, sum_of_ones ones, List.length_map, number] at total
  exact total

/-- The row of an application and a minute counts, under callers of a type, the spans of it that have
such a caller. -/
theorem callsUnder_eq {spans : List Trace.Span}
    (recorded : (Writing.mutations recording).Perm (spans.flatMap ofSpan))
    (valid : ∀ x ∈ spans, Identifier.valid x.applicationName) (nonneg : ∀ x ∈ spans, 0 ≤ x.acceptTime)
    (few : spans.length < 2 ^ 63) (caller : ServiceType) {a : Application} {time : Int}
    (sound : RowKey.Sound ⟨a.name, a.type.code, time⟩) :
    callsUnder (s.run (recording ++ finishing)).store t caller a time =
      spans.countP fun x => Of a time x ∧ (inboundCall x).caller.type = caller := by
  have early (x : Trace.Span) (member : x ∈ spans) : 0 ≤ x.acceptTime.toInt :=
    Int64.le_iff_toInt_le.1 (nonneg x member)
  have late (x : Trace.Span) : x.acceptTime.toInt ≤ lastMillis := by
    rw [lastMillis_eq]
    exact Int64.le_iff_toInt_le.1 (Int64.le_maxValue _)
  have readable := Half.inbound_ofCallee.readable
    (List.forall_mem_map.2 fun x member => inboundCall_callee x ▸ valid x member)
    (List.forall_mem_map.2 fun x member => inboundCall_timestamp x ▸ early x member)
    (List.forall_mem_map.2 fun x _ => inboundCall_timestamp x ▸ late x)
  have told := told_of_spans recorded fun x member => (addressed_ofSpan (valid x member)).2
  let k : RowKey := ⟨a.name, a.type.code, time⟩
  let h : Half Bytes := Half.inbound.stored CallerColumn.encode
  have choice : ∀ c ∈ spans.map inboundCall, t.salting.salted (h.row c).encode =
      t.salting.salted k.encode → ∀ slot, countsCaller a caller (h.column c slot) =
        (decide (c.caller.type = caller) && decide (slot ∈ Slot.counted)) := by
    intro c _ here slot
    have types := ServiceType.code_injective _ _ (RowKey.type_of_encode (List.cons.inj here).2)
    have callers : (c.caller.type.code == caller.code) = decide (c.caller.type = caller) :=
      Bool.eq_iff_iff.2 (by simpa using ⟨ServiceType.code_injective _ _, congrArg _⟩)
    simp only [h, Half.stored, Half.inbound, countsCaller, CallerColumn.typeIn_encode,
      CallerColumn.codeIn_encode, callers]
    rw [← types, c.callee.type.slotOfCode?_code, Option.any_some]
  refine (sum_numbersOf starts quiet room flushes last done .callee readable
    (by rwa [List.length_map]) told choice).trans (congrArg Nat.cast ?_)
  rw [List.countP_map]
  refine List.countP_congr fun x member => ?_
  have own : t.salting.salted (h.row (inboundCall x)).encode = t.salting.salted k.encode ↔
      Of a time x := by
    have row : h.row (inboundCall x) =
        ⟨x.applicationName, x.applicationServiceType.code, timeSlot x.acceptTime.toInt⟩ := by
      rw [Half.inbound_ofCallee.row, inboundCall_callee, inboundCall_timestamp]
      rfl
    constructor
    · intro here
      have told := RowKey.decode_encode (readable.row _ (List.mem_map_of_mem member))
      rw [(List.cons.inj here).2, RowKey.decode_encode sound, row] at told
      obtain ⟨name, code, slot⟩ := RowKey.mk.inj (Except.ok.inj told)
      exact ⟨by rw [← name, ← ServiceType.code_injective _ _ code], slot.symm⟩
    · rintro ⟨rfl, rfl⟩
      rw [row]
  simpa using fun _ => own

/-- Spans that are bound under one attribute, whenever they are accepted, are entered as calls of users
if they name no caller, or one of that type. These are the root spans if and only if every span is a
root span that is entered so, and only such a span is. -/
theorem user_calls_counted {agent : Intake.Attribute}
    (valid : Identifier.valid agent.applicationName) {accepted : List (Int64 × Wire.Span)}
    {spans : List Trace.Span}
    (bound : accepted.mapM (fun e => Intake.span (agent.acceptedAt e.1) e.2) = .ok spans)
    (nonneg : ∀ e ∈ accepted, 0 ≤ e.1) (few : spans.length < 2 ^ 63)
    (recorded : (Writing.mutations recording).Perm (spans.flatMap ofSpan)) :
    let store := (s.run (recording ++ finishing)).store
    UserTraffic store t spans fromUser ∧
      (UserTraffic store t spans Trace.Span.isRoot ↔ ∀ x ∈ spans, x.isRoot = fromUser x) := by
  intro store
  have origin (x : Trace.Span) (member : x ∈ spans) :
      Identifier.valid x.applicationName ∧ 0 ≤ x.acceptTime := by
    obtain ⟨e, inside, made⟩ := (answers_of_mapM bound).1 x member
    obtain ⟨name, time⟩ := Intake.accepted_of_span made
    exact ⟨name ▸ valid, time ▸ nonneg e inside⟩
  have users : UserTraffic store t spans fromUser := {
    calls := fun a time sound => by
      simp only [fromUser_iff]
      exact callsUnder_eq starts quiet room flushes last done recorded
        (fun x member => (origin x member).1) (fun x member => (origin x member).2) few .user sound
    columns := fun x member e inside callee => by
      rw [column_of_callee (origin x member).1 inside callee, fromUser_iff]
      exact ⟨ServiceType.code_injective _ _, congrArg _⟩
    rows := fun x _ e inside k row user => row_of_user inside row user }
  refine ⟨users, fun roots x member => Bool.eq_iff_iff.2 ?_, users.congr⟩
  obtain ⟨e, inside, callee⟩ := exists_callee (origin x member).1
  rw [← users.columns x member e inside callee, ← roots.columns x member e inside callee]

end

def shopAgent : Intake.Attribute := ⟨"shop-1", none, "shop", 60000, 0⟩

/-- The root span of a trace, and a span of another trace for a caller who names the host. -/
def sentSpans : Wire.Span × Wire.Span :=
  let root : Wire.Span := {
    version := 1, transactionId := some {}, spanId := 1, parentSpanId := -1, elapsed := 1200
    applicationServiceType := 1010 }
  (root, { root with
    parentSpanId := 2, elapsed := -5, err := 1
    acceptEvent := some { parentInfo := some ⟨"gate", 1210, "shop:80"⟩ } })

def boundSpans : Trace.Span × Trace.Span :=
  let root : Trace.Span := {
    transactionId := ⟨"shop-1", 0, 0⟩, agentId := "shop-1", applicationName := "shop"
    agentStartTime := 60000, acceptTime := 61000, spanId := 1, parentSpanId := -1, startTime := 0
    elapsed := 1200, serviceType := .undefined, applicationServiceType := .tomcat, apiId := 0
    rpc := none, endPoint := none, remoteAddr := none, acceptorHost := none, parent := none, flag := 0
    errCode := 0, loggingTransactionInfo := 0, exceptionInfo := none, tags := [], events := [] }
  (root, { root with
    acceptTime := 119999, parentSpanId := 2, elapsed := -5, errCode := 1
    acceptorHost := some "shop:80", parent := some ⟨"gate", .springBoot⟩ })

/-- Spans are recorded one after another, while a flush is under way. -/
def oneByOne (spans : List Trace.Span) : List (Writing.Action Side) :=
  [.flush .callee .maxima] ++ (spans.flatMap ofSpan).map (fun e => .mutate e.1 e.2) ++ [.answer 0]

theorem user_calls_counted_two :
    let spans := [boundSpans.1, boundSpans.2]
    let store := (threeWriters.run (oneByOne spans ++ twoFinished)).store
    UserTraffic store twoBuckets spans Trace.Span.isRoot ∧
      callsUnder store twoBuckets .user ⟨"shop", .tomcat⟩ 60000 = 1 := by
  have quiet : ∀ a ∈ oneByOne [boundSpans.1, boundSpans.2], a.Quiet := by decide
  have recorded : (Writing.mutations (oneByOne [boundSpans.1, boundSpans.2])).Perm
      ([boundSpans.1, boundSpans.2].flatMap ofSpan) := List.isPerm_iff.1 (by cbv)
  have bound : [(61000, sentSpans.1), (119999, sentSpans.2)].mapM
      (fun e => Intake.span (shopAgent.acceptedAt e.1) e.2) = .ok [boundSpans.1, boundSpans.2] := by
    cbv
  have counted := user_calls_counted threeWriters_starts quiet (by cbv) twoFinished_flushes
    mem_twoFinished (by cbv) (by decide : Identifier.valid shopAgent.applicationName) bound
    (by decide) (by decide) recorded
  exact ⟨counted.2.2 (by decide), by cbv⟩

/-- A span with a parent span, of whose caller nothing is told. -/
def orphan : Wire.Span × Trace.Span :=
  ({ sentSpans.2 with acceptEvent := none },
    { boundSpans.2 with acceptorHost := none, parent := none })

/-- It is no root span, but it is counted as a call of the user, and entered in the row of the user. -/
theorem orphan_counts_as_user :
    let store := (threeWriters.run (oneByOne [orphan.2] ++ twoFinished)).store
    Intake.span (shopAgent.acceptedAt 119999) orphan.1 = .ok orphan.2 ∧ orphan.2.isRoot = false ∧
      callsUnder store twoBuckets .user ⟨"shop", .tomcat⟩ 60000 = 1 ∧
      (∃ e ∈ ofSpan orphan.2, e.1 = .caller ∧
        e.2.row.key = RowKey.encode ⟨"shop", ServiceType.user.code, 60000⟩) ∧
      ¬UserTraffic store twoBuckets [orphan.2] Trace.Span.isRoot := by
  have counted : callsUnder (threeWriters.run (oneByOne [orphan.2] ++ twoFinished)).store twoBuckets
      .user ⟨"shop", .tomcat⟩ 60000 = 1 := by cbv
  refine ⟨by cbv, by decide, counted, by decide, fun roots => ?_⟩
  have none := roots.calls ⟨"shop", .tomcat⟩ 60000 (by decide)
  rw [counted] at none
  exact absurd none (by decide)

end Topology.Query

end CallTelemetry
