import CallTelemetry.Proofs.Failing
import CallTelemetry.Proofs.Metadata.Registering

/-! Metadata that was registered is looked up. A monitor answers with the value that was registered
last of the kind and under the key that it is asked for, or with nothing where there is none. -/
namespace CallTelemetry

open Metadata

namespace Monitor

variable {m : Monitor} {ε α β : Type}

theorem store_sleep (alone : m.collector.timeline.events = []) (millis : Nat) :
    (m.sleep millis).store = m.store := by
  have slept : (m.sleep millis).store = (m.collector.timeline.sleep millis).store := rfl
  rw [slept, Timeline.sleep_alone alone]
  rfl

theorem run_bind (x : Reading ε α) (f : α → Reading ε β) (m : Monitor) :
    (x >>= f).run.run m = match x.run.run m with
      | (.ok a, m) => (f a).run.run m
      | (.error e, m) => (.error e, m) := by
  simp only [ExceptT.run_bind, StateT.run_bind]
  rcases x.run.run m with ⟨_ | a, m'⟩ <;> rfl

theorem run_adapt {ε' : Type} (x : Reading ε α) (f : ε → ε') (m : Monitor) :
    (x.adapt f : Reading ε' α).run.run m = ((x.run.run m).1.mapError f, (x.run.run m).2) := rfl

/-- A read that does not fail sees the store as it is after the delay. -/
theorem run_read (sound : m.readFault = none) (f : Topology.Tables → Store → Except StoreError α) :
    (read true f).run.run m = (f m.tables (m.sleep m.readDelay).store, m.sleep m.readDelay) := by
  cases m
  cases sound
  rfl

theorem answer_lookUp (sound : m.readFault = none) (alone : m.collector.timeline.events = [])
    (f : ColumnFamily)
    (entries : Bytes → List (CellName × Bytes) → Except RowError (List (Entry α))) {key : Key}
    {row : Bytes} (salted : key.salted m.collector.salting = .ok row) :
    ((lookUp f entries key).run.run m).1 =
      match (m.store.rows (f.tableIn m.collector.space)).get? row with
      | some cells => (entries row cells.entries).mapError .row
      | none => .ok [] := by
  have first : (get : Reading LookupError Monitor).run.run m = (.ok m, m) := rfl
  have second : (ExceptT.mk (pure ((key.salted m.collector.salting).mapError .row)) :
      Reading LookupError Bytes).run.run m = (.ok row, m) := by
    rw [salted]
    rfl
  unfold lookUp
  rw [run_bind, first]
  dsimp only
  rw [run_bind, second]
  dsimp only
  rw [run_bind, run_adapt, run_read sound, store_sleep alone]
  dsimp only [Except.mapError, tables, Store.get?]
  cases (m.store.rows (f.tableIn m.collector.space)).get? row <;> rfl

end Monitor

namespace Metadata

/-- The only cell of a row is read under the key of the row. -/
theorem entries_cells {s : Salting} {kind : Kind} {key : Key} {row : Bytes}
    (fits : Identifier.Fits key.agentId) (salted : key.salted s = .ok row) {v : kind.Value}
    (sound : kind.Sound v) :
    entries kind.reader row (kind.cells v).entries = .ok [⟨key, v⟩] := by
  have cells : (kind.cells v).entries = [(kind.name, kind.encode v)] := rfl
  have read : RowError.reading kind.reader (payload (kind.name, kind.encode v)) = .ok v := by
    rw [payload, if_pos (.inl rfl)]
    exact Kind.reading_encode sound
  have written : (do Key.decode (← RowError.unsalting row)) = .ok key :=
    Key.decode_salted fits salted
  obtain ⟨bytes, unsalted, decoded⟩ := answered_of_bind written
  simp [cells, entries, unsalted, decoded, read, bind, Except.bind, pure, Except.pure]

/-- What is read of a row that a value was told to, or of none. -/
def Kind.readRow (kind : Kind) (row : Bytes) :
    Option kind.Value → Except RowError (List (Entry kind.Value))
  | some v => entries kind.reader row (kind.cells v).entries
  | none => .ok []

theorem Kind.readRow_eq {s : Salting} {kind : Kind} {key : Key} {row : Bytes}
    (fits : Identifier.Fits key.agentId) (salted : key.salted s = .ok row)
    {told : Option kind.Value} (sound : ∀ v ∈ told, kind.Sound v) :
    kind.readRow row told = .ok (told.toList.map (⟨key, ·⟩)) := by
  cases told with
  | none => rfl
  | some v => exact entries_cells fits salted (sound v rfl)

namespace Registration

section

variable {m : Monitor} (alone : m.collector.timeline.events = []) (sound : m.readFault = none)

include alone sound

/-- What is answered depends on what was told last, and on nothing else. -/
theorem answer_of_shows {kind : Kind} {key : Key} {row : Bytes}
    (salted : key.salted m.collector.salting = .ok row)
    {told : Option kind.Value} (shows : Shows m.collector kind key told) :
    kind.answer key m = (kind.readRow row told).mapError .row := by
  rw [Kind.answer, Kind.lookUp_eq, Monitor.answer_lookUp sound alone _ _ salted]
  unfold Monitor.store
  rw [shows.row row salted]
  cases told <;> rfl

variable {kind : Kind}
  (blank : m.store.rows (kind.family.tableIn m.collector.space) = .empty)
  {key : Key} (short : key.agentId.utf8ByteSize ≤ Identifier.maxLength)
  (trimmed : key.agentId.toList.getLast? ≠ some '\x00')

include blank short trimmed

/-- The answer after registrations of all sorts. -/
theorem answer_makeAll {row : Bytes} (salted : key.salted m.collector.salting = .ok row)
    {l : List Registration}
    (ids : ∀ r ∈ l, r.entry.key.agentId.toList.getLast? ≠ some '\x00') :
    kind.answer key { m with collector := makeAll m.collector l } =
      (kind.readRow row (last? (l.filter Succeeds) kind key)).mapError .row := by
  have fits : Identifier.Fits key.agentId := ⟨short, mt Bytes.getLast?_ofText trimmed⟩
  have start : Shows m.collector kind key none := by
    refine ⟨alone, fun row _ => ?_⟩
    rw [← Monitor.store, blank]
    rfl
  have shows := shows_makeAll start fits ids
  rw [Option.or_none, made_eq alone] at shows
  obtain ⟨alone', same⟩ := makeAll_keeps alone l
  exact answer_of_shows (m := { m with collector := makeAll m.collector l }) alone' sound
    (by rw [same]; exact salted) shows

/-- A monitor answers with what was registered last, where anything was, if its texts are shorter than
2^31 bytes, so that their lengths can be written before them. A registration that failed, or that was of
another kind or under another key, might as well not have been tried. -/
theorem registered_read_back {l : List Registration}
    (ids : ∀ r ∈ l, r.entry.key.agentId.toList.getLast? ≠ some '\x00') :
    let answer (l : List Registration) :=
      kind.answer key { m with collector := makeAll m.collector l }
    let told := last? (made m.collector l) kind key
    ((∀ v ∈ told, kind.Sound v) → answer l = .ok (told.toList.map (⟨key, ·⟩))) ∧
      ∀ before r rest, l = before ++ r :: rest →
        (r.make (makeAll m.collector before)).1 ≠ .ok () ∨ r.kind ≠ kind ∨ r.entry.key ≠ key →
        answer (before ++ rest) = answer l := by
  intro answer told
  have fits : Identifier.Fits key.agentId := ⟨short, mt Bytes.getLast?_ofText trimmed⟩
  obtain ⟨row, salted⟩ := Key.salted_of_short (s := m.collector.salting) short
  constructor
  · intro legible
    have answered := answer_makeAll alone sound blank short trimmed salted ids
    rw [← made_eq alone, Kind.readRow_eq fits salted legible] at answered
    exact answered
  · rintro before r rest rfl silent
    have silent : ¬r.Succeeds ∨ r.kind ≠ kind ∨ r.entry.key ≠ key :=
      silent.imp_left (mt (make_eq_ok_iff (makeAll_keeps alone before).1 r).2)
    have fewer : ∀ r' ∈ before ++ rest, r'.entry.key.agentId.toList.getLast? ≠ some '\x00' := by
      intro r' member
      refine ids r' ?_
      rcases List.mem_append.1 member with early | late
      · exact List.mem_append_left _ early
      · exact List.mem_append_right _ (List.mem_cons_of_mem r late)
    have without := answer_makeAll alone sound blank short trimmed salted fewer
    have whole := answer_makeAll alone sound blank short trimmed salted ids
    rw [last?_without silent] at whole
    exact without.trans whole.symm

end

def sixKey : Key := ⟨"agent-1", 7, -3⟩

/-- The signature of a method at a line. -/
def sixSignature (line : Int32) (location : Option String) : ApiSignature :=
  ⟨"Cart.add()", line, .webRequest, location⟩

/-- Of the registrations of one kind and key, one fails and another comes after it. -/
def sixRegistrations : List Registration :=
  [⟨.api, ⟨sixKey, sixSignature 10 (some "Cart.java")⟩, 0, none⟩,
    ⟨.sql, ⟨sixKey, "select 1"⟩, 0, some 20⟩,
    ⟨.api, ⟨sixKey, sixSignature 11 none⟩, 2, some 5⟩,
    ⟨.api, ⟨⟨"an-agent-of-a-name-too-long", 7, -3⟩, sixSignature 12 none⟩, 0, none⟩,
    ⟨.api, ⟨sixKey, sixSignature 13 none⟩, 0, some 5⟩,
    ⟨.api, ⟨⟨"agent-1", 8, -3⟩, sixSignature 14 none⟩, 0, none⟩]

/-- A monitor that reads slowly. -/
def slowMonitor : Monitor :=
  ⟨⟨.start [], .empty, "a", ⟨9, by decide, by decide⟩, 0, 0⟩, [], 0, 0, 30, none⟩

theorem registered_read_back_six :
    let answer (l : List Registration) :=
      Kind.answer .api sixKey { slowMonitor with collector := makeAll slowMonitor.collector l }
    answer sixRegistrations = .ok [⟨sixKey, sixSignature 13 none⟩] ∧
      answer (sixRegistrations.take 2 ++ sixRegistrations.drop 3) = answer sixRegistrations := by
  have told : last? (made slowMonitor.collector sixRegistrations) .api sixKey =
      some (sixSignature 13 none) := by
    rw [made_eq rfl]
    rfl
  have sound : ApiSignature.Sound (sixSignature 13 none) := ⟨by decide, by simp [sixSignature]⟩
  have blank : slowMonitor.store.rows (Kind.api.family.tableIn slowMonitor.collector.space) = .empty :=
    rfl
  have short : sixKey.agentId.utf8ByteSize ≤ Identifier.maxLength := by decide
  obtain ⟨answered, without⟩ := registered_read_back rfl rfl blank short (by decide)
    (l := sixRegistrations) (by decide)
  rw [told] at answered
  refine ⟨answered fun v last => Option.some.inj last ▸ sound, without _ _ _ rfl (.inl ?_)⟩
  rw [ne_eq, make_eq_ok_iff (makeAll_keeps rfl _).1]
  decide

end Registration

end Metadata

end CallTelemetry
