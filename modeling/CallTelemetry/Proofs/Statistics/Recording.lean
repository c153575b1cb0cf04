import CallTelemetry.Proofs.Statistics.Column
import CallTelemetry.Proofs.Statistics.Keeping
import CallTelemetry.Proofs.Statistics.RowKey

/-! The records of calls. A call leaves three records on a side: one that counts in its class, and two
of its time. -/
namespace CallTelemetry

open Latency

namespace ServiceType

@[simp] theorem ofCode_code (t : ServiceType) : ofCode t.code = t := by
  cases t <;> decide

/-- Both schemes tell their slots from the codes. -/
theorem slotOfCode?_code (t : ServiceType) (slot : Slot) :
    t.scheme.slotOfCode? (t.scheme.code slot) = some slot := by
  cases t <;> cases slot <;> decide

end ServiceType

theorem Latency.Slot.ne_max_of_counted {slot : Slot} (counted : slot ∈ Slot.counted) :
    slot ≠ .max := by
  rintro rfl
  exact absurd counted (by decide)

theorem sum_of_ones {l : List Int} (one : ∀ x ∈ l, x = 1) : l.sum = l.length := by
  induction l with
  | nil => rfl
  | cons x l ih =>
    rw [List.sum_cons, ih fun y inside => one y (List.mem_cons_of_mem x inside),
      one x List.mem_cons_self, List.length_cons]
    omega

namespace Statistics

def Call.slot (c : Call) : Slot := c.callee.type.scheme.classify c.elapsed c.failed

/-- How the calls of one side are kept: in which row, and in which columns. -/
structure Half (κ : Type) where
  row : Call → RowKey
  column : Call → Slot → κ

namespace Half

/-- Callers keep what they called. -/
def outbound : Half CalleeColumn where
  row c := ⟨c.caller.name, c.caller.type.code, timeSlot c.timestamp⟩
  column c slot := ⟨c.callee.type.code, c.callee.name, c.calleeHost, c.callee.type.scheme.code slot,
    c.callerAgentId⟩

/-- Callees keep who called them. -/
def inbound : Half CallerColumn where
  row c := ⟨c.callee.name, c.callee.type.code, timeSlot c.timestamp⟩
  column c slot := ⟨c.caller.type.code, c.caller.name, c.calleeHost, c.callee.type.scheme.code slot⟩

variable {κ : Type} (h : Half κ)

def record (c : Call) (slot : Slot) (value : Int64) : Record κ :=
  ⟨h.row c, h.column c slot, slot, value⟩

def records (c : Call) : List (Record κ) :=
  [h.record c c.slot 1, h.record c .sum c.elapsed.toInt64, h.record c .max c.elapsed.toInt64]

theorem mutation_records (encode : κ → Bytes) (c : Call) :
    (h.records c).map (·.mutation encode) =
      changes (h.row c) (fun slot => encode (h.column c slot)) c.slot c.elapsed := by
  have counted : (h.record c c.slot 1).change = .add 1 := by
    have member : c.slot ∈ Slot.counted := Scheme.classify_counted _ _ _
    cases slot : c.slot <;> first | rfl | (rw [slot] at member; exact absurd member (by decide))
  simp only [records, List.map_cons, List.map_nil, Record.mutation, counted]
  rfl

theorem outbound_eq {c : Call} (valid : Identifier.valid c.caller.name) :
    Statistics.outbound c = .ok ((outbound.records c).map (·.mutation CalleeColumn.encode)) := by
  have short : ¬Identifier.maxLength < c.caller.name.utf8ByteSize :=
    Nat.not_lt.2 (Identifier.fits_of_valid valid).1
  rw [mutation_records, Statistics.outbound, RowKey.of, if_neg short]
  rfl

theorem inbound_eq {c : Call} (valid : Identifier.valid c.callee.name) :
    Statistics.inbound c = .ok ((inbound.records c).map (·.mutation CallerColumn.encode)) := by
  have short : ¬Identifier.maxLength < c.callee.name.utf8ByteSize :=
    Nat.not_lt.2 (Identifier.fits_of_valid valid).1
  rw [mutation_records, Statistics.inbound, RowKey.of, if_neg short]
  rfl

/-- Whether calls can be read back: rows and columns from their bytes, and slots from the columns of a
row. -/
structure Readable (encode : κ → Bytes) (decode : Bytes → Except RowError κ) (calls : List Call) :
    Prop where
  row : ∀ c ∈ calls, (h.row c).Sound
  column : ∀ c ∈ calls, ∀ slot, decode (encode (h.column c slot)) = .ok (h.column c slot)
  slot : ∀ c ∈ calls, ∀ c' ∈ calls, ∀ slot slot', h.row c = h.row c' →
    h.column c slot = h.column c' slot' → slot = slot'

theorem mem_records {calls : List Call} {r : Record κ} (member : r ∈ calls.flatMap h.records) :
    ∃ c ∈ calls, r.row = h.row c ∧ r.column = h.column c r.slot ∧
      (r.slot ∈ Slot.counted → r.value = 1) := by
  obtain ⟨c, inside, member⟩ := List.mem_flatMap.1 member
  have uncounted {slot : Slot} {value : Int64} (uncounted : slot ∉ Slot.counted)
      (counted : (h.record c slot value).slot ∈ Slot.counted) : value = 1 :=
    absurd counted uncounted
  refine ⟨c, inside, ?_⟩
  simp only [records, List.mem_cons, List.not_mem_nil, or_false] at member
  rcases member with rfl | rfl | rfl
  · exact ⟨rfl, rfl, fun _ => rfl⟩
  · exact ⟨rfl, rfl, uncounted (by decide)⟩
  · exact ⟨rfl, rfl, uncounted (by decide)⟩

variable {h} {encode : κ → Bytes} {decode : Bytes → Except RowError κ} {calls : List Call}

theorem Readable.distinct [DecidableEq κ] {d : Destination κ}
    (readable : h.Readable d.encode decode calls) : Distinct d (calls.flatMap h.records) where
  key r member r' member' same := by
    obtain ⟨c, inside, row, column, -⟩ := h.mem_records member
    obtain ⟨c', inside', row', column', -⟩ := h.mem_records member'
    obtain ⟨-, rows, -, columns⟩ := Pending.Cell.mk.inj same
    have rows : r.row.encode = r'.row.encode := (List.cons.inj rows).2
    have read := RowKey.decode_encode (readable.row c inside)
    have read' := RowKey.decode_encode (readable.row c' inside')
    have told := readable.column c inside r.slot
    have told' := readable.column c' inside' r'.slot
    rw [← row, rows] at read
    rw [← row', read] at read'
    rw [← column, columns] at told
    rw [← column', told] at told'
    exact Prod.ext (Except.ok.inj read') (Except.ok.inj told')
  slot r member r' member' same := by
    obtain ⟨c, inside, row, column, -⟩ := h.mem_records member
    obtain ⟨c', inside', row', column', -⟩ := h.mem_records member'
    obtain ⟨rows, columns⟩ := Prod.mk.inj same
    exact readable.slot c inside c' inside' r.slot r'.slot (row ▸ row' ▸ rows)
      (column ▸ column' ▸ columns)

/-- What is recorded in a class is the number of its records. -/
theorem unwrapped_counted [DecidableEq κ] {d : Destination κ}
    (distinct : Distinct d (calls.flatMap h.records)) {r : Record κ}
    (member : r ∈ calls.flatMap h.records) (counted : r.slot ∈ Slot.counted) :
    unwrapped (calls.flatMap h.records) r.key r.slot =
      (values (calls.flatMap h.records) r.key).length := by
  have one : ∀ x ∈ (values (calls.flatMap h.records) r.key).map Int64.toInt, x = 1 := by
    intro x inside
    obtain ⟨v, kept, rfl⟩ := List.mem_map.1 inside
    obtain ⟨r', listed, rfl⟩ := List.mem_map.1 kept
    obtain ⟨member', same⟩ := List.mem_filter.1 listed
    obtain ⟨c, -, -, -, value⟩ := h.mem_records member'
    rw [value (distinct.slot r' member' r member (of_decide_eq_true same) ▸ counted)]
    rfl
  rw [unwrapped, amount_of_counter (Slot.ne_max_of_counted counted), sum_of_ones one,
    List.length_map]

/-- The class of a call comes to something, if its number does not wrap around. -/
theorem recorded_ne_zero [DecidableEq κ] {d : Destination κ}
    (distinct : Distinct d (calls.flatMap h.records)) (bounded : Bounded (calls.flatMap h.records))
    {r : Record κ} (member : r ∈ calls.flatMap h.records) (counted : r.slot ∈ Slot.counted) :
    recorded (calls.flatMap h.records) r.key r.slot ≠ 0 := by
  have here : r.value ∈ values (calls.flatMap h.records) r.key :=
    List.mem_map_of_mem (List.mem_filter.2 ⟨member, decide_eq_true rfl⟩)
  have some_ := List.length_pos_of_mem here
  have number := toInt_amount (bounded r member)
  rw [← unwrapped, unwrapped_counted distinct member counted, ← recorded_eq] at number
  intro none
  rw [none, Int64.toInt_zero] at number
  omega

/-- Of each call, the record of its class is the only one that counts. -/
theorem countP_records {p : Record κ → Bool} {q : Call → Bool}
    (each : ∀ c ∈ calls, ∀ slot value,
      p (h.record c slot value) = (q c && decide (slot ∈ Slot.counted))) :
    (calls.flatMap h.records).countP p = calls.countP q := by
  induction calls with
  | nil => rfl
  | cons c calls ih =>
    have own := each c List.mem_cons_self
    have class_ : decide (c.slot ∈ Slot.counted) = true :=
      decide_eq_true (Scheme.classify_counted _ _ _)
    have sum : decide (Slot.sum ∈ Slot.counted) = false := by decide
    have max : decide (Slot.max ∈ Slot.counted) = false := by decide
    rw [List.flatMap_cons, List.countP_append,
      ih fun c' member => each c' (List.mem_cons_of_mem c member), List.countP_cons, records]
    simp only [List.countP_cons, List.countP_nil, own, class_, sum, max]
    cases q c <;> simp [Nat.add_comm]

/-- A class has no more than one record of each call. -/
theorem unwrapped_le_length [DecidableEq κ] {d : Destination κ}
    (distinct : Distinct d (calls.flatMap h.records)) {r : Record κ}
    (member : r ∈ calls.flatMap h.records) (counted : r.slot ∈ Slot.counted) :
    unwrapped (calls.flatMap h.records) r.key r.slot ≤ calls.length := by
  have each : (calls.flatMap h.records).countP (fun r => decide (r.slot ∈ Slot.counted)) =
      calls.countP fun _ => true := countP_records fun c _ slot value => (Bool.true_and _).symm
  have classes : (values (calls.flatMap h.records) r.key).length ≤
      (calls.flatMap h.records).countP fun r => decide (r.slot ∈ Slot.counted) := by
    rw [values, List.length_map, ← List.countP_eq_length_filter]
    refine List.countP_mono_left fun r' member' same => decide_eq_true ?_
    exact distinct.slot r' member' r member (of_decide_eq_true same) ▸ counted
  rw [each, List.countP_true] at classes
  rw [unwrapped_counted distinct member counted]
  omega

end Half

/-- Whether a call has a time of its own, and texts whose lengths can be written before them. -/
structure Call.Sound (c : Call) : Prop where
  nonneg : 0 ≤ c.timestamp
  bound : c.timestamp ≤ lastMillis
  caller : Writable c.caller.name
  agent : Writable c.callerAgentId
  callee : Writable c.callee.name
  host : Writable c.calleeHost

instance (c : Call) : Decidable c.Sound :=
  decidable_of_iff (0 ≤ c.timestamp ∧ c.timestamp ≤ lastMillis ∧ Writable c.caller.name ∧
      Writable c.callerAgentId ∧ Writable c.callee.name ∧ Writable c.calleeHost)
    ⟨fun ⟨nonneg, bound, caller, agent, callee, host⟩ => ⟨nonneg, bound, caller, agent, callee, host⟩,
      fun sound => ⟨sound.nonneg, sound.bound, sound.caller, sound.agent, sound.callee, sound.host⟩⟩

namespace Half

theorem row_sound {timestamp : Int} (nonneg : 0 ≤ timestamp) (bound : timestamp ≤ lastMillis)
    {name : String} (valid : Identifier.valid name) (type : Int16) :
    RowKey.Sound ⟨name, type, timeSlot timestamp⟩ :=
  ⟨Identifier.fits_of_valid valid, timeSlot_nonneg nonneg, Int.le_trans (timeSlot_le _) bound⟩

theorem slot_injective {type type' : ServiceType} (types : type = type') {slot slot' : Slot}
    (codes : type.scheme.code slot = type'.scheme.code slot') : slot = slot' := by
  subst types
  have known := type.slotOfCode?_code slot
  rw [codes, type.slotOfCode?_code slot'] at known
  exact (Option.some.inj known).symm

section

variable {calls : List Call} (sound : ∀ c ∈ calls, c.Sound)

include sound

theorem outbound_readable (valid : ∀ c ∈ calls, Identifier.valid c.caller.name) :
    outbound.Readable CalleeColumn.encode CalleeColumn.decode calls where
  row c member := row_sound (sound c member).nonneg (sound c member).bound (valid c member) _
  column c member slot := CalleeColumn.decode_encode
    ⟨(sound c member).callee, (sound c member).host, (sound c member).agent⟩
  slot c member c' member' slot slot' rows columns := by
    obtain ⟨types, -, -, codes, -⟩ := CalleeColumn.mk.inj columns
    exact slot_injective (ServiceType.code_injective _ _ types) codes

theorem inbound_readable (valid : ∀ c ∈ calls, Identifier.valid c.callee.name) :
    inbound.Readable CallerColumn.encode CallerColumn.decode calls where
  row c member := row_sound (sound c member).nonneg (sound c member).bound (valid c member) _
  column c member slot := CallerColumn.decode_encode ⟨(sound c member).caller, (sound c member).host⟩
  slot c member c' member' slot slot' rows columns := by
    obtain ⟨-, types, -⟩ := RowKey.mk.inj rows
    obtain ⟨-, -, -, codes⟩ := CallerColumn.mk.inj columns
    exact slot_injective (ServiceType.code_injective _ _ types) codes

end

end Half

end Statistics

end CallTelemetry
