import CallTelemetry.Proofs.Bytes.Cursor
import Mathlib.Data.List.DropRight

/-! Values that are written one behind the other. A reader is said to take what has a form if the bytes
that it takes stand in that form to the value that it answers; a layout is read off exactly the bytes
that are written of it, so no bytes but those are read as its values. -/
namespace CallTelemetry

namespace Bytes

/-- Only the low bytes of a number are written. -/
theorem ofNat_add_capacity (width n m : Nat) :
    ofNat width (n * capacity width + m) = ofNat width m := by
  induction width generalizing n with
  | zero => rfl
  | succ width ih =>
    have shifted : n * capacity (width + 1) + m = n * 256 * capacity width + m := by
      rw [capacity, Nat.mul_assoc, Nat.mul_comm 256]
    have quotient : (n * 256 * capacity width + m) / capacity width =
        n * 256 + m / capacity width := by
      rw [Nat.mul_comm, Nat.mul_add_div (capacity_pos width)]
    have byte : UInt8.ofNat (n * 256 + m / capacity width) = UInt8.ofNat (m / capacity width) :=
      UInt8.toNat_inj.1 (by simp [UInt8.toNat_ofNat'])
    rw [shifted, ofNat, ofNat, quotient, byte, ih]

theorem toNat_lt (b : Bytes) : toNat b < capacity b.length := by
  induction b with
  | nil => decide
  | cons byte b ih =>
    rw [toNat_cons, List.length_cons, capacity]
    calc byte.toNat * capacity b.length + toNat b
        < byte.toNat * capacity b.length + capacity b.length := Nat.add_lt_add_left ih _
      _ = (byte.toNat + 1) * capacity b.length := (Nat.succ_mul _ _).symm
      _ ≤ 256 * capacity b.length := Nat.mul_le_mul_right _ byte.toNat_lt
      _ = capacity b.length * 256 := Nat.mul_comm _ _

theorem ofNat_toNat (b : Bytes) : ofNat b.length (toNat b) = b := by
  induction b with
  | nil => rfl
  | cons byte b ih =>
    have quotient : (byte.toNat * capacity b.length + toNat b) / capacity b.length = byte.toNat := by
      rw [Nat.mul_comm, Nat.mul_add_div (capacity_pos _), Nat.div_eq_of_lt (toNat_lt b), Nat.add_zero]
    rw [toNat_cons, List.length_cons, ofNat, quotient, ofNat_add_capacity, ih, UInt8.ofNat_toNat]

theorem ofInt16_toInt16 {b : Bytes} (width : b.length = 2) : ofInt16 (toInt16 b) = b := by
  have bound := toNat_lt b
  rw [width] at bound
  have number : (toInt16 b).toUInt16.toNat = toNat b := UInt16.toNat_ofNat_of_lt' bound
  rw [ofInt16, number, ← width, ofNat_toNat]

theorem ofInt32_toInt32 {b : Bytes} (width : b.length = 4) : ofInt32 (toInt32 b) = b := by
  have bound := toNat_lt b
  rw [width] at bound
  have number : (toInt32 b).toUInt32.toNat = toNat b := UInt32.toNat_ofNat_of_lt' bound
  rw [ofInt32, number, ← width, ofNat_toNat]

theorem ofInt64_toInt64 {b : Bytes} (width : b.length = 8) : ofInt64 (toInt64 b) = b := by
  have bound := toNat_lt b
  rw [width] at bound
  have number : (toInt64 b).toUInt64.toNat = toNat b := UInt64.toNat_ofNat_of_lt' bound
  rw [ofInt64, number, ← width, ofNat_toNat]

/-- A text is spelt in one way only. -/
theorem ofText_of_toText? {b : Bytes} {s : String} (spelled : toText? b = some s) : ofText s = b := by
  unfold toText? String.fromUTF8? at spelled
  split at spelled
  · obtain rfl := Option.some.inj spelled
    rfl
  · cases spelled

theorem dropTrailingZeros_eq (b : Bytes) : dropTrailingZeros b = b.rdropWhile (· == 0) := rfl

theorem length_dropTrailingZeros_le (b : Bytes) : (dropTrailingZeros b).length ≤ b.length :=
  (List.rdropWhile_prefix (· == 0) b).length_le

theorem getLast?_dropTrailingZeros (b : Bytes) : (dropTrailingZeros b).getLast? ≠ some 0 := by
  intro zero
  have nonempty : dropTrailingZeros b ≠ [] := by
    intro none
    rw [none] at zero
    cases zero
  have last := List.rdropWhile_last_not (· == 0) b nonempty
  rw [List.getLast?_eq_some_getLast nonempty] at zero
  exact last (beq_iff_eq.2 (Option.some.inj zero))

/-- The zeros that were dropped from a field fill it up again. -/
theorem padTo_dropTrailingZeros (b : Bytes) : padTo b.length (dropTrailingZeros b) = b := by
  have zeros : b.rtakeWhile (· == 0) = List.replicate (b.rtakeWhile (· == 0)).length 0 :=
    List.eq_replicate_iff.2 ⟨rfl, fun byte member => by
      simpa using List.mem_rtakeWhile_imp member⟩
  have parts := List.rdropWhile_append_rtakeWhile (p := (· == 0)) (l := b)
  have lengths := congrArg List.length parts
  rw [List.length_append, ← dropTrailingZeros_eq] at lengths
  rw [zeros, ← dropTrailingZeros_eq] at parts
  have rest : b.length - (dropTrailingZeros b).length = (b.rtakeWhile (· == 0)).length := by omega
  rw [padTo, List.take_of_length_le (length_dropTrailingZeros_le b), rest, parts]

theorem dropTrailingZeros_append_zeros (b : Bytes) (n : Nat) :
    dropTrailingZeros (b ++ List.replicate n 0) = dropTrailingZeros b := by
  induction n with
  | zero => simp
  | succ n ih =>
    rw [List.replicate_succ', ← List.append_assoc, dropTrailingZeros_eq,
      List.rdropWhile_concat_pos _ _ _ rfl, ← dropTrailingZeros_eq, ih]

/-- The zeros that a text ends in are the characters zero that it ends in. -/
theorem dropTrailingZeros_ofText (s : String) : dropTrailingZeros (ofText s) =
    ofText (String.ofList (s.toList.rdropWhile (· == '\x00'))) := by
  have chars (l : List Char) : dropTrailingZeros (l.flatMap String.utf8EncodeChar) =
      (l.rdropWhile (· == '\x00')).flatMap String.utf8EncodeChar := by
    -- From the end, where both sides drop: a character is zero just when its last byte is.
    induction l using List.reverseRecOn with
    | nil => rfl
    | append_singleton l c ih =>
      rw [List.flatMap_append, List.flatMap_singleton]
      by_cases zero : c = '\x00'
      · subst zero
        have byte : String.utf8EncodeChar '\x00' = List.replicate 1 0 := by decide
        rw [byte, dropTrailingZeros_append_zeros, ih, List.rdropWhile_concat_pos _ _ _ rfl]
      · have last : (String.utf8EncodeChar c).getLast? ≠ some 0 := mt eq_zero_of_last zero
        obtain ⟨front, byte, bytes⟩ :=
          (List.eq_nil_or_concat' (String.utf8EncodeChar c)).resolve_left String.utf8EncodeChar_ne_nil
        have nonzero : ¬(byte == 0) = true := by
          rintro same
          rw [bytes, List.getLast?_concat, beq_iff_eq.1 same] at last
          exact last rfl
        rw [List.rdropWhile_concat_neg _ _ _ (by simpa using zero), List.flatMap_append,
          List.flatMap_singleton, bytes, ← List.append_assoc, dropTrailingZeros_eq,
          List.rdropWhile_concat_neg (· == 0) _ byte nonzero]
  rw [ofText_eq, ofText_eq, chars, String.toList_ofList]

end Bytes

namespace Reader

variable {α β : Type} {r : Reader α} {form : Bytes → α → Prop}

/-- Whether the bytes that a reader takes have the form of the value that it answers. -/
def Takes (r : Reader α) (form : Bytes → α → Prop) : Prop :=
  ∀ before rest a c, r.run ⟨before ++ rest, before.length⟩ = (.ok a, c) →
    ∃ taken after, rest = taken ++ after ∧
      c = ⟨before ++ rest, before.length + taken.length⟩ ∧ form taken a

theorem Takes.imp {form' : Bytes → α → Prop} (takes : r.Takes form)
    (forms : ∀ taken a, form taken a → form' taken a) : r.Takes form' := by
  intro before rest a c ran
  obtain ⟨taken, after, parts, stop, formed⟩ := takes before rest a c ran
  exact ⟨taken, after, parts, stop, forms taken a formed⟩

theorem takes_pure (a : α) : (pure a : Reader α).Takes fun taken a' => taken = [] ∧ a' = a := by
  intro before rest a' c ran
  cases ran
  exact ⟨[], rest, rfl, rfl, rfl, rfl⟩

theorem takes_throw (e : ReadError) : (throw e : Reader α).Takes form := by
  intro before rest a c ran
  cases ran

theorem Takes.bind {f : α → Reader β} {form' : α → Bytes → β → Prop} (first : r.Takes form)
    (second : ∀ a, (f a).Takes (form' a)) : (r >>= f).Takes fun taken b =>
      ∃ a front back, taken = front ++ back ∧ form front a ∧ form' a back b := by
  intro before rest b c ran
  rw [run_bind] at ran
  rcases begun : r.run ⟨before ++ rest, before.length⟩ with ⟨_ | a, c'⟩
  · rw [begun] at ran
    cases ran
  · obtain ⟨front, middle, rfl, rfl, formed⟩ := first before rest a c' begun
    rw [begun] at ran
    -- What the first reader took stands before the second.
    have ran : (f a).run ⟨before ++ front ++ middle, (before ++ front).length⟩ = (.ok b, c) := by
      simpa using ran
    obtain ⟨back, after, rfl, rfl, formed'⟩ := second a (before ++ front) middle b c ran
    exact ⟨front ++ back, after, by simp, by simp [Nat.add_assoc], a, front, back, rfl, formed,
      formed'⟩

/-- A reader that ends by turning what was read into a value. -/
theorem Takes.map (takes : r.Takes form) (f : α → β) :
    Takes (do return f (← r)) fun taken b => ∃ a, form taken a ∧ b = f a :=
  (takes.bind fun a => takes_pure (f a)).imp fun taken b => by
    rintro ⟨a, front, back, rfl, formed, rfl, rfl⟩
    exact ⟨a, by rwa [List.append_nil], rfl⟩

theorem takes_take (n : Nat) : (take n).Takes fun taken b => taken = b ∧ b.length = n := by
  intro before rest b c ran
  have left : (Cursor.mk (before ++ rest) before.length).remaining = rest.length := by
    simp [Cursor.remaining]
  simp only [run, take, left, List.drop_left] at ran
  split at ran
  next bound =>
    cases ran
    have width : (rest.take n).length = n := List.length_take_of_le bound
    exact ⟨rest.take n, rest.drop n, (List.take_append_drop n rest).symm, by rw [width], rfl, width⟩
  next => cases ran

theorem takes_int16 : int16.Takes fun taken x => taken = Bytes.ofInt16 x :=
  ((takes_take 2).map Bytes.toInt16).imp fun taken x => by
    rintro ⟨b, ⟨rfl, width⟩, rfl⟩
    exact (Bytes.ofInt16_toInt16 width).symm

theorem takes_int32 : int32.Takes fun taken x => taken = Bytes.ofInt32 x :=
  ((takes_take 4).map Bytes.toInt32).imp fun taken x => by
    rintro ⟨b, ⟨rfl, width⟩, rfl⟩
    exact (Bytes.ofInt32_toInt32 width).symm

theorem takes_int64 : int64.Takes fun taken x => taken = Bytes.ofInt64 x :=
  ((takes_take 8).map Bytes.toInt64).imp fun taken x => by
    rintro ⟨b, ⟨rfl, width⟩, rfl⟩
    exact (Bytes.ofInt64_toInt64 width).symm

theorem takes_text (n : Nat) (strip : Bytes → Bytes) : (text n strip).Takes fun taken s =>
    taken.length = n ∧ Bytes.ofText s = strip taken := by
  refine ((takes_take n).bind fun b => (?_ : Takes _ fun taken s =>
    taken = [] ∧ Bytes.ofText s = strip b)).imp fun taken s => ?_
  · cases spelled : (strip b).toText? with
    | none => exact takes_throw _
    | some s =>
      refine (takes_pure s).imp fun taken s' => ?_
      rintro ⟨rfl, rfl⟩
      exact ⟨rfl, Bytes.ofText_of_toText? spelled⟩
  · rintro ⟨b, front, back, rfl, ⟨rfl, width⟩, rfl, spelled⟩
    rw [List.append_nil]
    exact ⟨width, spelled⟩

theorem takes_padded (width : Nat) : (padded width).Takes fun taken s =>
    taken = Bytes.padded width s ∧ s.utf8ByteSize ≤ width ∧ (Bytes.ofText s).getLast? ≠ some 0 :=
  (takes_text width Bytes.dropTrailingZeros).imp fun taken s => by
    rintro ⟨rfl, spelled⟩
    rw [Bytes.padded, ← Bytes.length_ofText, spelled, Bytes.padTo_dropTrailingZeros]
    exact ⟨rfl, Bytes.length_dropTrailingZeros_le taken, Bytes.getLast?_dropTrailingZeros taken⟩

/-- An absent text is taken as one, and no length is taken that its text does not have. -/
theorem takes_lengthPrefixed : lengthPrefixed.Takes fun taken s? =>
    taken = Bytes.lengthPrefixed s? ∧ ∀ s ∈ s?, s.utf8ByteSize ≤ 0x7fffffff := by
  refine (takes_int32.bind fun length => (?_ : Takes _ fun taken s? =>
    Bytes.ofInt32 length ++ taken = Bytes.lengthPrefixed s? ∧
      ∀ s ∈ s?, s.utf8ByteSize ≤ 0x7fffffff)).imp fun taken s? => ?_
  · split
    next absent =>
      refine (takes_pure none).imp fun taken s? => ?_
      rintro ⟨rfl, rfl⟩
      exact ⟨by rw [absent, List.append_nil, Bytes.lengthPrefixed], nofun⟩
    next =>
    split
    next => exact takes_throw _
    next nonnegative =>
      refine ((takes_text length.toInt.toNat id).map some).imp fun taken s? => ?_
      rintro ⟨s, ⟨width, rfl⟩, rfl⟩
      have least : 0 ≤ length.toInt := by
        rw [Int32.lt_iff_toInt_lt, Int32.toInt_zero] at nonnegative
        omega
      have most := length.toInt_lt
      have short : (Bytes.ofText s).length ≤ 0x7fffffff := by omega
      have number : Int32.ofNat (Bytes.ofText s).length = length := by
        rw [width]
        refine Int32.toInt_inj.1 ?_
        rw [Int32.toInt_ofNat_of_lt (by omega), Int.toNat_of_nonneg least]
      rw [Bytes.lengthPrefixed, Nat.min_eq_left short, number]
      refine ⟨rfl, fun s' same => ?_⟩
      obtain rfl := Option.some.inj same
      exact short
  · rintro ⟨length, front, back, rfl, rfl, formed⟩
    exact formed

/-- Whether a reader answers with a value and leaves nothing of the bytes. -/
def Spans (r : Reader α) (bytes : Bytes) (a : α) : Prop :=
  r.run (.start bytes) = (.ok a, ⟨bytes, bytes.length⟩)

theorem Takes.spans (takes : r.Takes form) {bytes : Bytes} {a : α} (spans : r.Spans bytes a) :
    form bytes a := by
  obtain ⟨taken, after, rfl, stop, formed⟩ := takes [] bytes a _ spans
  have lengths : (taken ++ after).length = 0 + taken.length := congrArg Cursor.offset stop
  rw [List.length_append] at lengths
  obtain rfl : after = [] := List.length_eq_zero_iff.1 (by omega)
  rwa [List.append_nil]

theorem spans_of_map {f : α → β} {bytes : Bytes} {b : β}
    (spans : Spans (do return f (← r)) bytes b) : ∃ a, r.Spans bytes a ∧ b = f a := by
  rw [Spans, run_bind] at spans
  rcases ran : r.run (.start bytes) with ⟨_ | a, c⟩
  · rw [ran] at spans
    cases spans
  · rw [ran] at spans
    obtain ⟨same, rfl⟩ := Prod.mk.inj spans
    exact ⟨a, ran, (Except.ok.inj same).symm⟩

end Reader

namespace Layout

/-- What is written with one call. -/
inductive Field where
  | int16
  | int32
  | int64
  /-- Text behind its length, which may be absent. -/
  | text
  | padded (width : Nat)

namespace Field

abbrev Value : Field → Type
  | int16 => Int16
  | int32 => Int32
  | int64 => Int64
  | text => Option String
  | padded _ => String

def encode : (f : Field) → f.Value → Bytes
  | int16 => Bytes.ofInt16
  | int32 => Bytes.ofInt32
  | int64 => Bytes.ofInt64
  | text => Bytes.lengthPrefixed
  | padded width => Bytes.padded width

def reader : (f : Field) → Reader f.Value
  | int16 => Reader.int16
  | int32 => Reader.int32
  | int64 => Reader.int64
  | text => Reader.lengthPrefixed
  | padded width => Reader.padded width

/-- Whether a value can be told from its bytes. -/
def Sound : (f : Field) → f.Value → Prop
  | text => fun s? : Option String => ∀ s ∈ s?, s.utf8ByteSize ≤ 0x7fffffff
  | padded width => fun s : String => s.utf8ByteSize ≤ width ∧ (Bytes.ofText s).getLast? ≠ some 0
  | _ => fun _ => True

def Present : (f : Field) → f.Value → Prop
  | text => fun s? : Option String => s? ≠ none
  | _ => fun _ => True

theorem takes_reader (f : Field) : f.reader.Takes fun taken v => taken = f.encode v ∧ f.Sound v := by
  cases f with
  | int16 => exact Reader.takes_int16.imp fun _ _ written => ⟨written, trivial⟩
  | int32 => exact Reader.takes_int32.imp fun _ _ written => ⟨written, trivial⟩
  | int64 => exact Reader.takes_int64.imp fun _ _ written => ⟨written, trivial⟩
  | text => exact Reader.takes_lengthPrefixed
  | padded width => exact Reader.takes_padded width

end Field

end Layout

abbrev Layout := List Layout.Field

namespace Layout

abbrev Values : Layout → Type
  | [] => Unit
  | f :: l => f.Value × Values l

def encode : (l : Layout) → l.Values → Bytes
  | [], _ => []
  | f :: l, v => f.encode v.1 ++ encode l v.2

def reader : (l : Layout) → Reader l.Values
  | [] => return ()
  | f :: l => do
    let first ← f.reader
    let rest ← reader l
    return (first, rest)

def Sound : (l : Layout) → l.Values → Prop
  | [], _ => True
  | f :: l, v => f.Sound v.1 ∧ Sound l v.2

/-- Whether no text is absent. -/
def Present : (l : Layout) → l.Values → Prop
  | [], _ => True
  | f :: l, v => f.Present v.1 ∧ Present l v.2

/-- A layout is read off nothing but what is written of it. -/
theorem takes_reader (l : Layout) :
    l.reader.Takes fun taken v => taken = l.encode v ∧ l.Sound v := by
  induction l with
  | nil =>
    refine (Reader.takes_pure ()).imp fun taken v => ?_
    rintro ⟨rfl, rfl⟩
    exact ⟨rfl, trivial⟩
  | cons f l ih =>
    refine (f.takes_reader.bind fun first => ih.map fun rest => (first, rest)).imp fun taken v => ?_
    rintro ⟨first, front, back, rfl, ⟨rfl, sound⟩, rest, ⟨rfl, sound'⟩, rfl⟩
    exact ⟨rfl, sound, sound'⟩

end Layout

end CallTelemetry
