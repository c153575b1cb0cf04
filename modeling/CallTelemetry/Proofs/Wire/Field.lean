import CallTelemetry.Proofs.Wire.Varint
import CallTelemetry.Wire.Field

/-! Numbered fields are read back from their bytes, in their order. What a field holds must be of its
kind, and short enough for its length to be written; no group is ever written. -/
namespace CallTelemetry.Wire

/-- Whether a payload is one that a message can write. -/
def Payload.Formed : Payload → Prop
  | varint _ | delimited _ => True
  | fixed64 b => b.length = 8
  | fixed32 b => b.length = 4
  | group => False

/-- The numbers that a field may have. -/
def Numbered (number : Nat) : Prop := 0 < number ∧ number < 0x20000000

instance (number : Nat) : Decidable (Numbered number) := inferInstanceAs (Decidable (_ ∧ _))

theorem Payload.typeCode_lt (p : Payload) : p.typeCode < 8 := by
  cases p <;> simp [typeCode]

theorem Payload.Formed.ungrouped {p : Payload} (formed : p.Formed) : p.typeCode ≠ 3 := by
  cases p <;> simp_all [typeCode, Formed]

theorem key?_encode {number : Nat} (numbered : Numbered number) (p : Payload) (rest : Bytes) :
    key? (Varint.encode (UInt64.ofNat (number * 8 + p.typeCode)) ++ rest) =
      some (number, p.typeCode, rest) := by
  obtain ⟨positive, bound⟩ := numbered
  have type := p.typeCode_lt
  have fits : number * 8 + p.typeCode < 18446744073709551616 := by omega
  have word : (UInt64.ofNat (number * 8 + p.typeCode)).toNat = number * 8 + p.typeCode :=
    UInt64.toNat_ofNat_of_lt' fits
  have inside : ¬(0x100000000 ≤ number * 8 + p.typeCode ∨ number * 8 + p.typeCode < 8) := by omega
  have quotient : (number * 8 + p.typeCode) / 8 = number := by omega
  have remainder : (number * 8 + p.typeCode) % 8 = p.typeCode := by omega
  rw [key?, Varint.decode?_encode]
  simp only [Option.bind_eq_bind, Option.bind_some, word, if_neg inside, quotient, remainder]
  rfl

theorem take?_append {n : Nat} {bytes : Bytes} (width : bytes.length = n) (rest : Bytes) :
    take? n (bytes ++ rest) = some (bytes, rest) := by
  subst width
  simp [take?]

theorem payload?_encode {p : Payload} (formed : p.Formed) (short : p.encode.length < UInt64.size)
    (rest : Bytes) : payload? p.typeCode (p.encode ++ rest) = some (p, rest) := by
  cases p with
  | varint n =>
    simp only [payload?, Payload.typeCode, Payload.encode, Varint.decode?_encode]
    rfl
  | fixed64 b =>
    simp only [payload?, Payload.typeCode, Payload.encode, take?_append (n := 8) formed]
    rfl
  | delimited b =>
    have fits : b.length < UInt64.size := by
      simp only [Payload.encode, List.length_append] at short
      omega
    have word : (UInt64.ofNat b.length).toNat = b.length := UInt64.toNat_ofNat_of_lt' fits
    simp only [payload?, Payload.typeCode, Payload.encode, List.append_assoc,
      Varint.decode?_encode, Option.bind_eq_bind, Option.bind_some, take?_append word.symm]
    rfl
  | group => exact absurd formed id
  | fixed32 b =>
    simp only [payload?, Payload.typeCode, Payload.encode, take?_append (n := 4) formed]
    rfl

/-- Fields one behind the other. -/
def encodeFields (fields : List (Nat × Payload)) : Bytes :=
  fields.flatMap fun f => encodeField f.1 f.2

theorem encodeFields_append (fields fields' : List (Nat × Payload)) :
    encodeFields (fields ++ fields') = encodeFields fields ++ encodeFields fields' :=
  List.flatMap_append

/-- Whether all fields can be told apart from what follows them. -/
def Legible (fields : List (Nat × Payload)) : Prop := ∀ f ∈ fields, Numbered f.1 ∧ f.2.Formed

/-- A field is read off the bytes that it begins. -/
theorem fieldsWithin_field (depth fuel : Nat) {number : Nat} {p : Payload}
    (numbered : Numbered number) (formed : p.Formed) (short : p.encode.length < UInt64.size)
    (rest : Bytes) : fieldsWithin depth (fuel + 1) (encodeField number p ++ rest) =
      (fieldsWithin depth fuel rest).map ((number, p) :: ·) := by
  have first := key?_encode numbered p (p.encode ++ rest)
  have second := payload?_encode formed short rest
  rw [encodeField, List.append_assoc]
  cases bytes : Varint.encode (UInt64.ofNat (number * 8 + p.typeCode)) ++ (p.encode ++ rest) with
  | nil => exact absurd (List.append_eq_nil_iff.1 bytes).1 (Varint.encode_ne_nil _)
  | cons b tail =>
    rw [bytes] at first
    simp only [fieldsWithin, first, second, if_neg formed.ungrouped, Option.bind_eq_bind,
      Option.bind_some]
    cases fieldsWithin depth fuel rest <;> rfl

theorem fieldsWithin_encode (depth : Nat) {fields : List (Nat × Payload)} (legible : Legible fields)
    (short : (encodeFields fields).length < UInt64.size) {fuel : Nat}
    (enough : (encodeFields fields).length ≤ fuel) :
    fieldsWithin depth fuel (encodeFields fields) = some fields := by
  induction fields generalizing fuel with
  | nil =>
    rw [encodeFields, List.flatMap_nil]
    cases fuel <;> rfl
  | cons f fields ih =>
    obtain ⟨numbered, formed⟩ := legible f List.mem_cons_self
    have key := List.length_pos_iff.2 (Varint.encode_ne_nil (UInt64.ofNat (f.1 * 8 + f.2.typeCode)))
    have whole : encodeFields (f :: fields) = encodeField f.1 f.2 ++ encodeFields fields := rfl
    rw [whole] at short enough ⊢
    simp only [encodeField, List.length_append] at short enough
    cases fuel with
    | zero => omega
    | succ fuel =>
      have room : (encodeFields fields).length ≤ fuel := by omega
      have later := ih (fun f member => legible f (List.mem_cons_of_mem _ member)) (by omega) room
      rw [fieldsWithin_field depth fuel numbered formed (by omega), later]
      rfl

/-- Fields are read back in their order. -/
theorem fields?_encode (depth : Nat) {fields : List (Nat × Payload)} (legible : Legible fields)
    (short : (encodeFields fields).length < UInt64.size) :
    fields? depth (encodeFields fields) = some fields :=
  fieldsWithin_encode depth legible short (Nat.le_refl _)

end CallTelemetry.Wire
