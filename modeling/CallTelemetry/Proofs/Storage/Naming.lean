import CallTelemetry.Proofs.Bytes.Layout
import CallTelemetry.Proofs.Metadata.Codec

/-! Keys and columns as bytes. What is written of a key or a column tells which it was, with a salt before
it or without, and no bytes but those are read as one, save where a text is absent or a stored time is
negative. -/
namespace CallTelemetry

namespace Storage

variable {α : Type} {Covered : α → Prop} {encode : α → Except RowError Bytes}
  {decode : Bytes → Except RowError α} {reader : Reader α} {l : Layout} {Plain : l.Values → Prop}

/-- Whether values are told from their bytes, wherever those stand behind a salt, and the bytes from the
value, if they are read to their end and the fields in them are plain. -/
structure Faithful (Covered : α → Prop) (encode : α → Except RowError Bytes)
    (decode : Bytes → Except RowError α) (reader : Reader α) (l : Layout) (Plain : l.Values → Prop) :
    Prop where
  read_back : ∀ a, Covered a → ∃ bytes, encode a = .ok bytes ∧ decode bytes = .ok a ∧
    ∀ (s : Salting) (reserved : UInt8) (row : Bytes),
      row = s.salted bytes ∨ s.writeSalt (reserved :: bytes) = .ok row →
        (RowError.unsalting row >>= decode) = .ok a
  apart : ∀ a a', Covered a → Covered a' → encode a = encode a' → a = a'
  apart_salted : ∀ (s s' : Salting) (a a' : α), Covered a → Covered a' →
    (encode a).map s.salted = (encode a').map s'.salted → a = a'
  restored : ∀ bytes a, reader.Spans bytes a → (∀ v, l.reader.Spans bytes v → Plain v) →
    decode bytes = .ok a ∧ Covered a ∧ encode a = .ok bytes

/-- Values that are read field by field. -/
theorem faithful_of_layout (ofValues : l.Values → α) (decoding : decode = RowError.reading reader)
    (read : reader = do return ofValues (← l.reader))
    (written : ∀ a, Covered a → ∃ bytes, encode a = .ok bytes ∧ decode bytes = .ok a)
    (restores : ∀ v, l.Sound v → Plain v →
      Covered (ofValues v) ∧ encode (ofValues v) = .ok (l.encode v)) :
    Faithful Covered encode decode reader l Plain where
  read_back a covered := by
    obtain ⟨bytes, encoded, decoded⟩ := written a covered
    refine ⟨bytes, encoded, decoded, fun s reserved row salted => ?_⟩
    have same : row = s.salted bytes := salted.elim id fun placed => (Except.ok.inj placed).symm
    rw [same]
    exact decoded
  apart a a' covered covered' same := by
    obtain ⟨bytes, encoded, decoded⟩ := written a covered
    obtain ⟨bytes', encoded', decoded'⟩ := written a' covered'
    rw [encoded, encoded'] at same
    obtain rfl := Except.ok.inj same
    exact Except.ok.inj (decoded.symm.trans decoded')
  apart_salted s s' a a' covered covered' same := by
    obtain ⟨bytes, encoded, decoded⟩ := written a covered
    obtain ⟨bytes', encoded', decoded'⟩ := written a' covered'
    rw [encoded, encoded'] at same
    -- A salt is one byte however many there are, so the rows are alike behind it.
    obtain ⟨-, rfl⟩ := List.cons.inj (Except.ok.inj same)
    exact Except.ok.inj (decoded.symm.trans decoded')
  restored bytes a spans plain := by
    have decoded : decode bytes = .ok a := by
      rw [decoding, RowError.reading, Reader.read, spans]
      rfl
    obtain ⟨v, spanned, rfl⟩ := Reader.spans_of_map (read ▸ spans)
    obtain ⟨rfl, sound⟩ := l.takes_reader.spans spanned
    exact ⟨decoded, restores v sound (plain v spanned)⟩

end Storage

namespace Statistics

open Storage

namespace RowKey

def layout : Layout := [.padded Identifier.maxLength, .int16, .int64]

/-- The time that is stored in a key. -/
def storedTime (v : layout.Values) : Int := Int64.toInt v.2.2.1

theorem faithful :
    Faithful Sound (fun k => .ok k.encode) decode reader layout fun v => 0 ≤ storedTime v := by
  refine faithful_of_layout (fun v => ⟨v.1, v.2.1, Int64.toInt (Int64.maxValue - v.2.2.1)⟩) rfl
    (by simp only [reader, layout, Layout.reader, Layout.Field.reader, bind_assoc, pure_bind])
    (fun k sound => ⟨_, rfl, decode_encode sound⟩) ?_
  rintro ⟨name, type, (time : Int64), ⟨⟩⟩ ⟨fits, -⟩ (nonneg : 0 ≤ time.toInt)
  have most : time.toInt ≤ lastMillis := time.toInt_le
  have slot : (Int64.maxValue - time).toInt = lastMillis - time.toInt := toInt_distance nonneg
  have back : Int64.ofInt (lastMillis - (lastMillis - time.toInt)) = time := by
    rw [Int.sub_sub_self, Int64.ofInt_toInt]
  have sound : Sound ⟨name, type, lastMillis - time.toInt⟩ :=
    ⟨fits, Int.sub_nonneg_of_le most, Int.sub_le_self _ nonneg⟩
  dsimp only
  rw [slot]
  refine ⟨sound, congrArg Except.ok ?_⟩
  simp only [encode, back, layout, Layout.encode, Layout.Field.encode, List.append_nil,
    List.append_assoc]

end RowKey

namespace CalleeColumn

def layout : Layout := [.int16, .text, .text, .int16, .text]

theorem faithful : Faithful Sound (fun c => .ok c.encode) decode reader layout layout.Present := by
  refine faithful_of_layout (fun (type, application, host, slot, agentId, ()) =>
      ⟨type, application.getD "", host.getD "", slot, agentId.getD ""⟩) rfl
    (by simp [reader, layout, Layout.reader, Layout.Field.reader, Reader.textOrEmpty])
    (fun c sound => ⟨_, rfl, decode_encode sound⟩) ?_
  rintro ⟨type, application, host, slot, agentId, ⟨⟩⟩ ⟨-, writable, writable', -, writable'', -⟩
    ⟨-, named, hosted, -, known, -⟩
  obtain ⟨application, rfl⟩ := Option.ne_none_iff_exists'.1 named
  obtain ⟨host, rfl⟩ := Option.ne_none_iff_exists'.1 hosted
  obtain ⟨agentId, rfl⟩ := Option.ne_none_iff_exists'.1 known
  refine ⟨⟨writable application rfl, writable' host rfl, writable'' agentId rfl⟩,
    congrArg Except.ok ?_⟩
  simp [encode, layout, Layout.encode, Layout.Field.encode]

end CalleeColumn

namespace CallerColumn

def layout : Layout := [.int16, .text, .text, .int16]

theorem faithful : Faithful Sound (fun c => .ok c.encode) decode reader layout layout.Present := by
  refine faithful_of_layout (fun (type, application, host, slot, ()) =>
      ⟨type, application.getD "", host.getD "", slot⟩) rfl
    (by simp [reader, layout, Layout.reader, Layout.Field.reader, Reader.textOrEmpty])
    (fun c sound => ⟨_, rfl, decode_encode sound⟩) ?_
  rintro ⟨type, application, host, slot, ⟨⟩⟩ ⟨-, writable, writable', -⟩ ⟨-, named, hosted, -⟩
  obtain ⟨application, rfl⟩ := Option.ne_none_iff_exists'.1 named
  obtain ⟨host, rfl⟩ := Option.ne_none_iff_exists'.1 hosted
  refine ⟨⟨writable application rfl, writable' host rfl⟩, congrArg Except.ok ?_⟩
  simp [encode, layout, Layout.encode, Layout.Field.encode]

end CallerColumn

namespace ResponseColumn

def layout : Layout := [.int16, .text]

theorem faithful : Faithful (fun c : ResponseColumn => Writable c.agentId) (fun c => .ok c.encode)
    decode reader layout layout.Present := by
  refine faithful_of_layout (fun (slot, agentId, ()) => ⟨slot, agentId.getD ""⟩) rfl
    (by simp [reader, layout, Layout.reader, Layout.Field.reader, Reader.textOrEmpty])
    (fun c writable => ⟨_, rfl, decode_encode writable⟩) ?_
  rintro ⟨slot, agentId, ⟨⟩⟩ ⟨-, writable, -⟩ ⟨-, known, -⟩
  obtain ⟨agentId, rfl⟩ := Option.ne_none_iff_exists'.1 known
  refine ⟨writable agentId rfl, congrArg Except.ok ?_⟩
  simp [encode, layout, Layout.encode, Layout.Field.encode]

/-- An absent text is read as an empty one, which has other bytes. -/
example : decode [3, 232, 255, 255, 255, 255] = .ok ⟨1000, ""⟩ ∧
    encode ⟨1000, ""⟩ = [3, 232, 0, 0, 0, 0] := by decide

end ResponseColumn

end Statistics

namespace Metadata.Key

open Storage

def layout : Layout := [.padded Identifier.maxLength, .int64, .int32]

theorem faithful : Faithful (fun k : Key => Identifier.Fits k.agentId) encode decode reader
    layout fun _ => True := by
  refine faithful_of_layout (fun (agentId, time, id, ()) => ⟨agentId, time, id⟩) rfl
    (by simp [reader, layout, Layout.reader, Layout.Field.reader])
    (fun k fits => ⟨_, encode_eq fits, decode_encode fits (encode_eq fits)⟩) ?_
  rintro ⟨agentId, time, id, ⟨⟩⟩ ⟨(fits : Identifier.Fits agentId), -⟩ -
  refine ⟨fits, (encode_eq fits).trans (congrArg Except.ok ?_)⟩
  simp [layout, Layout.encode, Layout.Field.encode]

end Metadata.Key

namespace Storage

open Statistics Metadata

/-- Keys and columns are told from their bytes, with a salt or without, and all bytes that are read to
their end as one of them are its own, unless a text in them is absent or a time is negative. -/
theorem names_faithful :
    Faithful RowKey.Sound (fun k => .ok k.encode) RowKey.decode RowKey.reader RowKey.layout
        (fun v => 0 ≤ RowKey.storedTime v) ∧
      Faithful (fun k => Identifier.Fits k.agentId) Key.encode Key.decode Key.reader Key.layout
        (fun _ => True) ∧
      Faithful CalleeColumn.Sound (fun c => .ok c.encode) CalleeColumn.decode
        CalleeColumn.reader CalleeColumn.layout CalleeColumn.layout.Present ∧
      Faithful CallerColumn.Sound (fun c => .ok c.encode) CallerColumn.decode
        CallerColumn.reader CallerColumn.layout CallerColumn.layout.Present ∧
      Faithful (fun c => Writable c.agentId) (fun c => .ok c.encode) ResponseColumn.decode
        ResponseColumn.reader ResponseColumn.layout ResponseColumn.layout.Present :=
  ⟨RowKey.faithful, Key.faithful, CalleeColumn.faithful, CallerColumn.faithful,
    ResponseColumn.faithful⟩

/-- A name that fills its field, two columns whose texts are alike when they are joined, and the bytes of
a key with an empty name and numbers below zero. -/
theorem names_faithful_filled :
    let salting : Salting := ⟨11, by decide, by decide⟩
    let minute : RowKey := ⟨"a-shop-of-a-name-so-long", 1010, 60000⟩
    let column (application host : String) : CalleeColumn := ⟨-1, application, host, 1000, ""⟩
    let key : Key := ⟨"", -1, -2⟩
    let bytes : Bytes := .replicate 24 0 ++ .replicate 11 255 ++ [254]
    (RowError.unsalting (salting.salted minute.encode) >>= RowKey.decode) = .ok minute ∧
      (column "ab" "c").encode ≠ (column "a" "bc").encode ∧
      Key.decode bytes = .ok key ∧ key.encode = .ok bytes := by
  intro salting minute column key bytes
  obtain ⟨minutes, keys, columns, -, -⟩ := names_faithful
  obtain ⟨written, encoded, -, salted⟩ := minutes.read_back minute (by decide)
  obtain rfl := Except.ok.inj encoded
  have apart := columns.apart (column "ab" "c") (column "a" "bc") ⟨by decide, by decide, by decide⟩
    ⟨by decide, by decide, by decide⟩
  obtain ⟨read, -, back⟩ := keys.restored bytes key rfl fun _ _ => trivial
  refine ⟨salted salting 0 _ (.inl rfl), fun same => ?_, read, back⟩
  exact absurd (apart (congrArg Except.ok same)) (by decide)

end Storage

end CallTelemetry
