import CallTelemetry.Proofs.Bytes.Cursor
import CallTelemetry.Statistics.RowKey

/-! Row keys of the statistics tables. A key is read back from its bytes, the keys of one application
stand together, the later minute first, and a range of keys holds those of its minutes and no
others. -/
namespace CallTelemetry

/-- Whether a text fills the field of a key in a way that it can be told from the zeros behind it. -/
def Identifier.Fits (name : String) : Prop :=
  name.utf8ByteSize ≤ maxLength ∧ (Bytes.ofText name).getLast? ≠ some 0

instance (name : String) : Decidable (Identifier.Fits name) := inferInstanceAs (Decidable (_ ∧ _))

theorem Identifier.fits_of_valid {name : String} (valid : Identifier.valid name) :
    Identifier.Fits name := by
  simp only [Identifier.valid, Identifier.validWithin, Bool.and_eq_true, decide_eq_true_eq] at valid
  refine ⟨valid.1.2, fun zero => ?_⟩
  have last := List.mem_of_getLast? (Bytes.getLast?_ofText zero)
  have allowed := List.all_eq_true.1 valid.2 _ last
  simp [Identifier.allowed] at allowed

namespace Statistics

theorem lastMillis_eq : lastMillis = Int64.maxValue.toInt := by decide

theorem timeSlot_le (timestamp : Int) : timeSlot timestamp ≤ timestamp := by
  have := Int.emod_nonneg timestamp (b := slotMillis) (by decide)
  unfold timeSlot
  omega

theorem timeSlot_nonneg {timestamp : Int} (nonneg : 0 ≤ timestamp) : 0 ≤ timeSlot timestamp := by
  unfold timeSlot slotMillis
  omega

theorem timeSlot_mono {first last : Int} (ordered : first ≤ last) :
    timeSlot first ≤ timeSlot last := by
  unfold timeSlot slotMillis
  omega

namespace RowKey

/-- Whether a key can be read back: its name fits, and its time is not before the first minute. -/
structure Sound (k : RowKey) : Prop where
  name : Identifier.Fits k.application
  nonneg : 0 ≤ k.slot
  bound : k.slot ≤ lastMillis

instance (k : RowKey) : Decidable k.Sound :=
  decidable_of_iff (Identifier.Fits k.application ∧ 0 ≤ k.slot ∧ k.slot ≤ lastMillis)
    ⟨fun ⟨name, nonneg, bound⟩ => ⟨name, nonneg, bound⟩,
      fun sound => ⟨sound.name, sound.nonneg, sound.bound⟩⟩

/-- The application in a key. -/
def head (application : String) (type : Int16) : Bytes :=
  Bytes.padded Identifier.maxLength application ++ Bytes.ofInt16 type

def word (slot : Int) : Bytes := Bytes.ofInt64 (Int64.ofInt (lastMillis - slot))

theorem encode_eq (k : RowKey) : k.encode = head k.application k.type ++ word k.slot := rfl

/-- The service type of a key can be told, whatever its name and its time. -/
theorem type_of_encode {k k' : RowKey} (same : k.encode = k'.encode) : k.type = k'.type := by
  have heads := (List.append_inj' same (by simp)).1
  have codes := (List.append_inj' heads (by simp)).2
  rw [← Bytes.toInt16_ofInt16 k.type, codes, Bytes.toInt16_ofInt16]

theorem toInt_ofInt_slot {slot : Int} (nonneg : 0 ≤ slot) (bound : slot ≤ lastMillis) :
    (Int64.ofInt slot).toInt = slot := by
  rw [lastMillis_eq] at bound
  have most : Int64.maxValue.toInt = 2 ^ 63 - 1 := by decide
  exact Int64.toInt_ofInt_of_le (by omega) (by omega)

/-- A stored distance that is not negative is that of a time that is not. -/
theorem toInt_distance {stored : Int64} (nonneg : 0 ≤ stored.toInt) :
    (Int64.maxValue - stored).toInt = lastMillis - stored.toInt := by
  have most : stored.toInt ≤ lastMillis := stored.toInt_le
  have distance : Int64.maxValue - stored = Int64.ofInt (lastMillis - stored.toInt) := by
    rw [Int64.ofInt_sub, lastMillis, Int64.ofInt_toInt, Int64.ofInt_toInt]
  rw [distance, toInt_ofInt_slot (Int.sub_nonneg_of_le most) (Int.sub_le_self _ nonneg)]

theorem toInt_stored {slot : Int} (nonneg : 0 ≤ slot) (bound : slot ≤ lastMillis) :
    (Int64.ofInt (lastMillis - slot)).toInt = lastMillis - slot :=
  toInt_ofInt_slot (by omega) (by omega)

theorem reads_spelled {k : RowKey} {name : String}
    (spelled : (Bytes.dropTrailingZeros
      (Bytes.padded Identifier.maxLength k.application)).toText? = some name)
    (nonneg : 0 ≤ k.slot) (bound : k.slot ≤ lastMillis) :
    reader.Reads k.encode ⟨name, k.type, k.slot⟩ := by
  rw [encode, List.append_assoc]
  have stored := (Reader.reads_int64 (Int64.ofInt (lastMillis - k.slot))).map fun stored =>
    (⟨name, k.type, (Int64.maxValue - stored).toInt⟩ : RowKey)
  have distance := toInt_stored nonneg bound
  rw [toInt_distance (by omega), distance, Int.sub_sub_self] at stored
  exact (Reader.reads_text (Bytes.length_padTo _ _) spelled).bind
    ((Reader.reads_int16 k.type).bind stored)

theorem reads (k : RowKey) (sound : k.Sound) : reader.Reads k.encode k := by
  have short : (Bytes.ofText k.application).length ≤ Identifier.maxLength := sound.name.1
  have spelled : (Bytes.dropTrailingZeros
      (Bytes.padded Identifier.maxLength k.application)).toText? = some k.application := by
    rw [Bytes.padded, Bytes.dropTrailingZeros_padTo short sound.name.2, Bytes.toText?_ofText]
  exact reads_spelled spelled sound.nonneg sound.bound

theorem decode_encode {k : RowKey} (sound : k.Sound) : decode k.encode = .ok k :=
  (k.reads sound).whole

theorem head_injective {name name' : String} {type type' : Int16} (fits : Identifier.Fits name)
    (fits' : Identifier.Fits name') (same : head name type = head name' type') :
    name = name' ∧ type = type' := by
  have zero : (0 : Int) ≤ lastMillis := by decide
  have encoded : encode ⟨name, type, 0⟩ = encode ⟨name', type', 0⟩ := by
    rw [encode_eq, encode_eq, same]
  have decoded := decode_encode (k := ⟨name, type, 0⟩) ⟨fits, Int.le_refl 0, zero⟩
  rw [encoded, decode_encode (k := ⟨name', type', 0⟩) ⟨fits', Int.le_refl 0, zero⟩] at decoded
  obtain ⟨names, types, -⟩ := RowKey.mk.inj (Except.ok.inj decoded)
  exact ⟨names.symm, types.symm⟩

/-- The word of a later minute comes first. -/
theorem compare_word {slot slot' : Int} (nonneg : 0 ≤ slot) (bound : slot ≤ lastMillis)
    (nonneg' : 0 ≤ slot') (bound' : slot' ≤ lastMillis) :
    compare (word slot) (word slot') ≠ .gt ↔ slot' ≤ slot := by
  have number {slot : Int} (nonneg : 0 ≤ slot) (bound : slot ≤ lastMillis) :
      (Int64.ofInt (lastMillis - slot)).toUInt64.toNat = (lastMillis - slot).toNat := by
    have stored := toInt_stored nonneg bound
    rw [Int64.toNat_toUInt64_of_le, Int64.toNatClampNeg, stored]
    rw [Int64.le_iff_toInt_le, stored, Int64.toInt_zero]
    omega
  have small (x : Int64) : x.toUInt64.toNat < Bytes.capacity 8 := x.toUInt64.toNat_lt
  rw [word, word, Bytes.ofInt64, Bytes.ofInt64, Bytes.compare_ofNat (small _) (small _),
    number nonneg bound, number nonneg' bound', Nat.compare_ne_gt]
  omega

theorem compare_encode (k k' : RowKey) : compare k.encode k'.encode =
    (compare (head k.application k.type) (head k'.application k'.type)).then
      (compare (word k.slot) (word k'.slot)) :=
  Bytes.compare_append _ _ (by simp [Bytes.padded])

/-- A key comes before the first key after another if it does not come after that one. -/
theorem encode_lt_successor (k k' : RowKey) :
    compare k.encode (k'.encode ++ [0]) = .lt ↔ compare k.encode k'.encode ≠ .gt := by
  have widths : k.encode.length = k'.encode.length := by
    simp [encode, Bytes.padded]
  have successor := Bytes.compare_append [] [0] widths
  rw [List.append_nil] at successor
  rw [successor, List.compare_nil_cons]
  cases compare k.encode k'.encode <;> simp

/-- Between two keys of one application there are only keys with the same bytes for it. -/
theorem head_of_range {name : String} {type : Int16} {late early : Int} {k : RowKey}
    (after : compare (encode ⟨name, type, late⟩) k.encode ≠ .gt)
    (before : compare k.encode (encode ⟨name, type, early⟩) ≠ .gt) :
    head name type = head k.application k.type := by
  rw [compare_encode] at after before
  have swap : compare (head k.application k.type) (head name type) =
      (compare (head name type) (head k.application k.type)).swap := Std.OrientedOrd.eq_swap
  rw [swap] at before
  cases order : compare (head name type) (head k.application k.type) with
  | lt => simp [order] at before
  | eq => exact Std.LawfulEqOrd.eq_of_compare order
  | gt => simp [order] at after

/-- The time of a key can be told, whatever application it names. -/
theorem slot_of_decode {k k' : RowKey} (nonneg : 0 ≤ k.slot) (bound : k.slot ≤ lastMillis)
    (decoded : decode k.encode = .ok k') : k'.slot = k.slot := by
  cases spelled : (Bytes.dropTrailingZeros
      (Bytes.padded Identifier.maxLength k.application)).toText? with
  | some name =>
    rw [decode, (reads_spelled spelled nonneg bound).whole] at decoded
    obtain rfl := Except.ok.inj decoded
    rfl
  | none =>
    have failed : reader.read k.encode = .error .invalidText := by
      rw [encode, List.append_assoc]
      exact Reader.read_text_misspelt (Bytes.length_padTo _ _) spelled _ _
    rw [decode, RowError.reading, failed] at decoded
    cases decoded

theorem range_of_short {name : String} (short : name.utf8ByteSize ≤ Identifier.maxLength)
    (type : Int16) (first last : Int) :
    range name type first last = .ok (encode ⟨name, type, timeSlot last⟩,
      encode ⟨name, type, timeSlot first⟩ ++ [0]) := by
  simp only [range, RowKey.of, if_neg (Nat.not_lt.2 short)]
  rfl

theorem range_eq {name : String} (fits : Identifier.Fits name) (type : Int16) (first last : Int) :
    range name type first last = .ok (encode ⟨name, type, timeSlot last⟩,
      encode ⟨name, type, timeSlot first⟩ ++ [0]) :=
  range_of_short fits.1 type first last

section

variable {name : String} {type : Int16} {first last : Int}
  (nonneg : 0 ≤ first) (ordered : first ≤ last) (bound : last ≤ lastMillis)

include nonneg ordered bound

/-- The keys of a range have the bytes of one application, and the times of its minutes. -/
theorem between_range {k : RowKey} (nonneg' : 0 ≤ k.slot) (bound' : k.slot ≤ lastMillis) :
    compare (encode ⟨name, type, timeSlot last⟩) k.encode ≠ .gt ∧
        compare k.encode (encode ⟨name, type, timeSlot first⟩ ++ [0]) = .lt ↔
      head name type = head k.application k.type ∧ timeSlot first ≤ k.slot ∧
        k.slot ≤ timeSlot last := by
  have latest := timeSlot_le last
  have earliest := timeSlot_le first
  have late : compare (word (timeSlot last)) (word k.slot) ≠ .gt ↔ k.slot ≤ timeSlot last :=
    compare_word (timeSlot_nonneg (by omega)) (by omega) nonneg' bound'
  have early : compare (word k.slot) (word (timeSlot first)) ≠ .gt ↔ timeSlot first ≤ k.slot :=
    compare_word nonneg' bound' (timeSlot_nonneg nonneg) (by omega)
  rw [encode_lt_successor]
  by_cases same : head name type = head k.application k.type
  · simp [compare_encode, same, ← late, ← early, and_comm]
  · exact iff_of_false (fun inside => same (head_of_range inside.1 inside.2)) fun inside =>
      same inside.1

/-- The keys of a range are those of the minutes of one application. -/
theorem mem_range (fits : Identifier.Fits name) {k : RowKey} (sound : k.Sound) :
    compare (encode ⟨name, type, timeSlot last⟩) k.encode ≠ .gt ∧
        compare k.encode (encode ⟨name, type, timeSlot first⟩ ++ [0]) = .lt ↔
      k.application = name ∧ k.type = type ∧ timeSlot first ≤ k.slot ∧ k.slot ≤ timeSlot last := by
  rw [between_range nonneg ordered bound sound.nonneg sound.bound]
  constructor
  · rintro ⟨same, minutes⟩
    obtain ⟨rfl, rfl⟩ := head_injective fits sound.name same
    exact ⟨rfl, rfl, minutes⟩
  · rintro ⟨rfl, rfl, minutes⟩
    exact ⟨rfl, minutes⟩

theorem range_ordered (name : String) (type : Int16) :
    compare (encode ⟨name, type, timeSlot last⟩) (encode ⟨name, type, timeSlot first⟩ ++ [0]) ≠
      .gt := by
  have latest := timeSlot_le last
  have earliest := timeSlot_le first
  have ordered := timeSlot_mono ordered
  have before := (compare_word (timeSlot_nonneg (by omega)) (by omega) (timeSlot_nonneg nonneg)
    (by omega)).2 ordered
  have inRange := (encode_lt_successor ⟨name, type, timeSlot last⟩ ⟨name, type, timeSlot first⟩).2
    (by simpa [compare_encode] using before)
  rw [inRange]
  decide

end

end RowKey

end Statistics

end CallTelemetry
