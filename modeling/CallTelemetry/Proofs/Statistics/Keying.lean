import CallTelemetry.Statistics.Recording

/-! Changes and their rows. What is entered for a span or a chunk is what is tried for it, as far as it
has a row; where the name of the application fits a row key, all of it has. -/
namespace CallTelemetry.Statistics

/-- Whether changes have a row, with room for a salt before it. -/
def Keyed (mutations : Except RowError (List Pending.Mutation)) : Prop :=
  ∃ ms, mutations = .ok ms ∧ ∀ m ∈ ms, m.row.leavesRoom

/-- Where the name of the application fits, its changes have a row. -/
theorem keyed_changes {name : String} (short : name.utf8ByteSize ≤ Identifier.maxLength)
    (type : Int16) (slot : Int) (column : Latency.Slot → Bytes) (counted : Latency.Slot)
    (elapsed : Int32) :
    Keyed (do return changes (← RowKey.of name type slot) column counted elapsed) := by
  rw [RowKey.of, if_neg (Nat.not_lt.2 short)]
  exact ⟨_, rfl, by simp [changes]⟩

theorem keyed_outbound {c : Call} (short : c.caller.name.utf8ByteSize ≤ Identifier.maxLength) :
    Keyed (outbound c) := keyed_changes short _ _ _ _ _

theorem keyed_inbound {c : Call} (short : c.callee.name.utf8ByteSize ≤ Identifier.maxLength) :
    Keyed (inbound c) := keyed_changes short _ _ _ _ _

/-- What is tried for events: on which side, and with what changes, if they have a row. -/
def triedForEvents (caller : Application) (agentId : String) (timestamp : Int)
    (events : List Trace.SpanEvent) : List (Side × Except RowError (List Pending.Mutation)) :=
  (events.filterMap (eventCall? caller agentId timestamp)).map fun c => (.caller, outbound c)

def triedForSpan (s : Trace.Span) : List (Side × Except RowError (List Pending.Mutation)) :=
  let application : Application := ⟨s.applicationName, s.applicationServiceType⟩
  let call := inboundCall s
  [(.self, response application s.agentId s.elapsed s.hasError s.acceptTime.toInt),
    (.callee, inbound call)] ++ (if s.parent.isNone then [(.caller, outbound call)] else []) ++
    triedForEvents application s.agentId s.acceptTime.toInt s.events

def entered (tried : List (Side × Except RowError (List Pending.Mutation))) :
    List (Side × Pending.Mutation) := tried.flatMap fun e => onSide e.1 e.2

theorem ofEvents_eq (caller : Application) (agentId : String) (timestamp : Int)
    (events : List Trace.SpanEvent) : ofEvents caller agentId timestamp events =
      entered (triedForEvents caller agentId timestamp events) := by
  simp [ofEvents, entered, triedForEvents, List.flatMap_map]

theorem ofSpan_eq (s : Trace.Span) : ofSpan s = entered (triedForSpan s) := by
  unfold ofSpan triedForSpan entered
  cases s.parent <;> simp [ofEvents_eq, entered]

/-- All events of an application are entered in its row. -/
theorem keyed_triedForEvents {caller : Application}
    (short : caller.name.utf8ByteSize ≤ Identifier.maxLength) (agentId : String) (timestamp : Int)
    (events : List Trace.SpanEvent) :
    ∀ e ∈ triedForEvents caller agentId timestamp events, Keyed e.2 := by
  intro e member
  obtain ⟨c, made, rfl⟩ := List.mem_map.1 member
  obtain ⟨event, -, called⟩ := List.mem_filterMap.1 made
  refine keyed_outbound ?_
  unfold eventCall? at called
  split at called
  · obtain ⟨destination, -, rfl⟩ := Option.map_eq_some_iff.1 called
    exact short
  · cases called

theorem keyed_triedForSpan {s : Trace.Span}
    (short : s.applicationName.utf8ByteSize ≤ Identifier.maxLength) :
    ∀ e ∈ triedForSpan s, Keyed e.2 := by
  intro e member
  simp only [triedForSpan, List.mem_append, List.mem_cons, List.not_mem_nil, or_false] at member
  rcases member with ((rfl | rfl) | user) | event
  · exact keyed_changes short _ _ _ _ _
  · refine keyed_inbound ?_
    cases parent : s.parent <;> simpa [inboundCall, parent] using short
  · cases parent : s.parent with
    | none =>
      simp only [parent, Option.isNone_none, ↓reduceIte, List.mem_singleton] at user
      rw [user]
      exact keyed_outbound (by simpa [inboundCall, parent] using short)
    | some _ => simp [parent] at user
  · exact keyed_triedForEvents short _ _ _ e event

end CallTelemetry.Statistics
