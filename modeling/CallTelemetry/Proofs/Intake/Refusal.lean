import CallTelemetry.Proofs.Intake.Streaming
import CallTelemetry.Proofs.Metadata.Registering
import CallTelemetry.Proofs.Statistics.Keying

/-! Frames that are refused, and rows that are never missing. A frame is refused before it changes
anything, or by a store that then changes nothing either. What a handshake accepts as the name of an
agent or of an application fits every row key, so nothing that a frame tells is left out. -/
namespace CallTelemetry.Intake

open Statistics

theorem Attribute.valid_of_ofHandshake {m : Wire.Handshake} {time : Int64} {a : Attribute}
    (accepted : ofHandshake m time = .ok a) :
    Identifier.valid a.agentId ∧ Identifier.valid a.applicationName := by
  obtain rfl := eq_of_ofHandshake accepted
  unfold ofHandshake at accepted
  split at accepted
  · cases accepted
  next agent =>
    split at accepted
    · cases accepted
    next application => exact ⟨by simpa using agent, by simpa using application⟩

/-- A span is of the application that its stream is of, and is accepted when its message was. -/
theorem accepted_of_span {a : Attribute} {m : Wire.Span} {s : Trace.Span} (bound : span a m = .ok s) :
    s.applicationName = a.applicationName ∧ s.acceptTime = a.acceptedTime := by
  simp only [span, bind, Except.bind] at bound
  split at bound
  · cases bound
  · split at bound
    · cases bound
    · split at bound
      · cases bound
      · obtain rfl := Except.ok.inj bound
        exact ⟨rfl, rfl⟩

theorem applicationName_of_span {a : Attribute} {m : Wire.Span} {s : Trace.Span}
    (bound : span a m = .ok s) : s.applicationName = a.applicationName :=
  (accepted_of_span bound).1

theorem applicationName_of_spanChunk {a : Attribute} {m : Wire.SpanChunk} {s : Trace.SpanChunk}
    (bound : spanChunk a m = .ok s) : s.applicationName = a.applicationName := by
  simp only [spanChunk, bind, Except.bind] at bound
  split at bound
  · cases bound
  · split at bound
    · cases bound
    · obtain rfl := Except.ok.inj bound
      rfl

namespace Collector

/-- A collector that has only waited, while its store counted requests and failures. -/
def waited (c : Collector) (millis requests dueFailures : Nat) : Collector :=
  let timeline := c.timeline.sleep millis
  { c with timeline := { timeline with store := { timeline.store with requests, dueFailures } } }

theorem waited_zero (c : Collector) :
    c.waited 0 c.timeline.store.requests c.timeline.store.dueFailures = c := by
  rw [waited, Timeline.sleep_zero]

theorem waited_alone {c : Collector} (alone : c.timeline.events = [])
    (millis requests dueFailures : Nat) :
    (c.waited millis requests dueFailures).timeline.store.tables = c.timeline.store.tables ∧
      (c.waited millis requests dueFailures).timeline.writers = c.timeline.writers := by
  rw [waited, Timeline.sleep_alone alone]
  exact ⟨rfl, rfl⟩

theorem register_refused {c : Collector} {key : Metadata.Key} {row : Bytes}
    (salted : key.salted c.salting = .ok row) {f : ColumnFamily} {payload : Bytes} {e : IntakeError}
    (refused : (c.register f key payload).1 = .error e) :
    (∃ s, e = .store s) ∧ ∃ millis requests dueFailures,
      (c.register f key payload).2 = c.waited millis requests dueFailures := by
  rw [register_of_ok salted] at refused ⊢
  dsimp only at refused ⊢
  cases outcome : (c.timeline.request (.put (f.tableIn c.space) row
      ⟨f.family, Metadata.signatureQualifier⟩ payload)).1 with
  | ok =>
    rw [outcome] at refused
    cases refused
  | error s =>
    rw [outcome] at refused
    obtain ⟨requests, dueFailures, left⟩ := Timeline.request_failed outcome
    rw [left]
    exact ⟨⟨s, (Except.error.inj refused).symm⟩, _, requests, dueFailures, rfl⟩

/-- A frame is refused for what it says, or by the store. -/
theorem take_refused {c : Collector} {a : Attribute} {f : Wire.Frame} {e : IntakeError}
    (short : a.agentId.utf8ByteSize ≤ Identifier.maxLength)
    (refused : (c.take a f).1 = .error e) :
    (((∃ h, e = .handshake h) ∨ ∃ b, e = .bind b) ∧ (c.take a f).2 = c) ∨
      ((∃ s, e = .store s) ∧ ∃ millis requests dueFailures,
        (c.take a f).2 = c.waited millis requests dueFailures) := by
  have metadata (f : ColumnFamily) (id : Int32) (payload : Bytes)
      (refused : (c.register f (metadataKey a id) payload).1 = .error e) :
      (∃ s, e = .store s) ∧ ∃ millis requests dueFailures,
        (c.register f (metadataKey a id) payload).2 = c.waited millis requests dueFailures := by
    obtain ⟨row, salted⟩ :=
      Metadata.Key.salted_of_short (s := c.salting) (k := metadataKey a id) short
    exact register_refused salted refused
  cases f with
  | handshake => exact .inl ⟨.inl ⟨_, (Except.error.inj refused).symm⟩, rfl⟩
  | span m =>
    simp only [take, addSpan] at refused ⊢
    split at refused
    next b _ => exact .inl ⟨.inr ⟨b, (Except.error.inj refused).symm⟩, rfl⟩
    next => cases refused
  | spanChunk m =>
    simp only [take, addChunk] at refused ⊢
    split at refused
    next b _ => exact .inl ⟨.inr ⟨b, (Except.error.inj refused).symm⟩, rfl⟩
    next => cases refused
  | api m => exact .inr (metadata _ _ _ refused)
  | string m => exact .inr (metadata _ _ _ refused)
  | sql m => exact .inr (metadata _ _ _ refused)

theorem handle_refused {c : Collector} {a : Attribute} {f : Wire.Frame} {e : IntakeError}
    (refused : (c.handle a f).1 = .error e) : (c.take a f).1 = .error e ∧
      (c.handle a f).2 = { (c.take a f).2 with rejected := c.rejected + 1 } := by
  have counted := (c.counts_take a f).2
  unfold handle at refused ⊢
  rcases taken : c.take a f with ⟨e' | _, c'⟩
  · rw [taken] at refused counted
    exact ⟨refused, congrArg (fun n => { c' with rejected := n + 1 }) counted⟩
  · rw [taken] at refused
    cases refused

/-- A frame that is refused, for what it says or by the store, changes nothing but the number of
refused frames; only time may have passed for it. A frame is never refused for want of a row, and
whatever an accepted span or chunk and its events tell is entered in a row. -/
theorem refused_without_trace {h : Wire.Handshake} {opened : Int64} {bound : Attribute}
    (accepted : Attribute.ofHandshake h opened = .ok bound) (time : Int64) (c : Collector)
    (f : Wire.Frame) :
    let a := bound.acceptedAt time
    let left := (c.handle a f).2
    (∀ e, (c.handle a f).1 = .error e → (∀ r, e ≠ .row r) ∧
      ((∀ s, e ≠ .store s) → left = { c with rejected := c.rejected + 1 }) ∧
      (∃ millis requests dueFailures,
        left = { c.waited millis requests dueFailures with rejected := c.rejected + 1 }) ∧
      (c.timeline.events = [] → left.timeline.store.tables = c.timeline.store.tables ∧
        left.timeline.writers = c.timeline.writers)) ∧
    (∀ id, ∃ row, (metadataKey a id).salted c.salting = .ok row) ∧
    (∀ m s, span a m = .ok s → (∀ e ∈ triedForSpan s, Keyed e.2) ∧ c.handle a (.span m) =
      (.ok (), { c.record (entered (triedForSpan s)) with
        archive := c.archive.addSpan s, accepted := c.accepted + 1 })) ∧
    ∀ m s, spanChunk a m = .ok s →
      let tried := triedForEvents ⟨s.applicationName, s.applicationServiceType⟩ s.agentId
        time.toInt s.events
      (∀ e ∈ tried, Keyed e.2) ∧ c.handle a (.spanChunk m) =
        (.ok (), { c.record (entered tried) with
          archive := c.archive.addChunk s, accepted := c.accepted + 1 }) := by
  intro a left
  obtain ⟨agent, application⟩ := Attribute.valid_of_ofHandshake accepted
  have short : a.agentId.utf8ByteSize ≤ Identifier.maxLength := (Identifier.fits_of_valid agent).1
  have fits : a.applicationName.utf8ByteSize ≤ Identifier.maxLength :=
    (Identifier.fits_of_valid application).1
  refine ⟨fun e refused => ?_, fun id => Metadata.Key.salted_of_short short, fun m s made => ?_,
    fun m s made => ?_⟩
  · obtain ⟨taken, same⟩ := handle_refused refused
    have leaves : left = { (c.take a f).2 with rejected := c.rejected + 1 } := same
    rw [leaves]
    rcases take_refused short taken with ⟨told, unchanged⟩ | ⟨⟨s, rfl⟩, millis, requests, due, waits⟩
    · rw [unchanged]
      refine ⟨?_, fun _ => rfl, ⟨0, _, _, by rw [waited_zero]⟩, fun _ => ⟨rfl, rfl⟩⟩
      rintro r rfl
      simp at told
    · rw [waits]
      refine ⟨by simp, fun other => absurd rfl (other s), ⟨millis, requests, due, rfl⟩, ?_⟩
      exact fun alone => waited_alone alone millis requests due
  · refine ⟨keyed_triedForSpan (applicationName_of_span made ▸ fits), ?_⟩
    simp only [handle, take, addSpan, made, ofSpan_eq]
    rfl
  · refine ⟨keyed_triedForEvents (applicationName_of_spanChunk made ▸ fits) _ _ _, ?_⟩
    simp only [handle, take, addChunk, made, ofChunk, ofEvents_eq]
    rfl

/-- A collector whose store takes its time and then fails. -/
def failingCollector : Collector :=
  { Stream.idleCollector with
    timeline := { Stream.idleCollector.timeline with
      store := { Store.empty with dueFailures := 1, latency := some 5 } } }

theorem refused_without_trace_failing :
    let h : Wire.Handshake := ⟨"agent-1", "", "shop", 7, 0⟩
    let a : Attribute := ⟨"agent-1", none, "shop", 7, 3⟩
    let (outcome, left) := failingCollector.handle (a.acceptedAt 9) (.string ⟨1, "get"⟩)
    Attribute.ofHandshake h 3 = .ok a ∧ outcome = .error (.store Store.failure) ∧
      left.timeline.store.tables = failingCollector.timeline.store.tables ∧
      left.timeline.writers = failingCollector.timeline.writers ∧
      ∃ millis requests dueFailures, left =
        { failingCollector.waited millis requests dueFailures with rejected := 1 } := by
  have accepted : Attribute.ofHandshake ⟨"agent-1", "", "shop", 7, 0⟩ 3 =
      .ok ⟨"agent-1", none, "shop", 7, 3⟩ := by rfl
  have refused : (failingCollector.handle ⟨"agent-1", none, "shop", 7, 9⟩
      (.string ⟨1, "get"⟩)).1 = .error (.store Store.failure) := by rfl
  obtain ⟨-, -, waits, alone⟩ := (refused_without_trace accepted 9 failingCollector
    (.string ⟨1, "get"⟩)).1 _ refused
  exact ⟨accepted, refused, (alone rfl).1, (alone rfl).2, waits⟩

end Collector

end CallTelemetry.Intake
