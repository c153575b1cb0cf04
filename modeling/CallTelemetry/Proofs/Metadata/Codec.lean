import CallTelemetry.Metadata.Signature
import CallTelemetry.Proofs.Statistics.Column
import CallTelemetry.Proofs.Statistics.RowKey

/-! Metadata is read back from its bytes, and two keys do not share a row. A signature ends in parts
that may be missing, so what follows its type is read as its location. -/
namespace CallTelemetry

/-- A cursor at the same place, with bytes before those that it had. -/
def Cursor.behind (c : Cursor) (before : Bytes) : Cursor := ⟨before ++ c.bytes, before.length + c.offset⟩

namespace Reader

variable {α β : Type} {r : Reader α} {bytes bytes' : Bytes} {a : α} {answer : Except ReadError α}

/-- What a reader answers off the last bytes of a string. -/
def Ends (r : Reader α) (bytes : Bytes) (answer : Except ReadError α) : Prop :=
  ∀ before, (r.run ⟨before ++ bytes, before.length⟩).1 = answer

theorem Reads.ends (reads : r.Reads bytes a) : r.Ends bytes (.ok a) := by
  intro before
  have here := reads before []
  rw [List.append_nil] at here
  rw [here]

theorem Reads.bindEnds {f : α → Reader β} {answer : Except ReadError β} (first : r.Reads bytes a)
    (rest : (f a).Ends bytes' answer) : (r >>= f).Ends (bytes ++ bytes') answer := by
  intro before
  have first := first before bytes'
  have rest := rest (before ++ bytes)
  rw [run_bind, first]
  simpa using rest

/-- A reader that ends by turning what was read into a value. -/
theorem Ends.map (ends : r.Ends bytes answer) (f : α → β) :
    Ends (do return f (← r)) bytes (answer.map f) := by
  intro before
  rw [run_bind, ← ends before]
  rcases r.run ⟨before ++ bytes, before.length⟩ with ⟨_ | a, c⟩ <;> rfl

theorem Ends.whole (ends : r.Ends bytes answer) : RowError.reading r bytes = answer.mapError .read := by
  have read : r.read bytes = answer := ends []
  rw [RowError.reading, read]

/-- At the end of a string there is more to read if there are any bytes. -/
theorem ends_hasMore {f : Bool → Reader α} :
    (hasMore >>= f).Ends bytes answer ↔ (f !bytes.isEmpty).Ends bytes answer := by
  have more (before : Bytes) : (Cursor.mk (before ++ bytes) before.length).hasMore =
      !bytes.isEmpty := by
    cases bytes <;> simp [Cursor.hasMore, Cursor.remaining]
  have here (before : Bytes) : (hasMore >>= f).run ⟨before ++ bytes, before.length⟩ =
      (f !bytes.isEmpty).run ⟨before ++ bytes, before.length⟩ := by
    rw [run_bind, ← more before]
    rfl
  simp only [Ends, here]

/-- Whether a reader sees nothing of the bytes before its place. -/
def Local (r : Reader α) : Prop :=
  ∀ before c, r.run (c.behind before) = ((r.run c).1, (r.run c).2.behind before)

namespace Local

theorem ends (r_local : r.Local) : r.Ends bytes (r.read bytes) := by
  intro before
  have here := r_local before (.start bytes)
  rw [Cursor.behind, Cursor.start, Nat.add_zero] at here
  rw [here, read, Cursor.start]

theorem pure (a : α) : Local (Pure.pure a) := fun _ _ => rfl

theorem throw (e : ReadError) : Local (MonadExcept.throw e : Reader α) := fun _ _ => rfl

theorem bind {f : α → Reader β} (first : r.Local) (rest : ∀ a, (f a).Local) : (r >>= f).Local := by
  intro before c
  rw [run_bind, run_bind, first before c]
  rcases r.run c with ⟨_ | a, c'⟩
  · rfl
  · exact rest a before c'

theorem take (n : Nat) : (take n).Local := by
  intro before c
  have remaining : (c.behind before).remaining = c.remaining := by
    simp only [Cursor.remaining, Cursor.behind, List.length_append]
    omega
  simp only [run, Reader.take, remaining]
  split
  · simp [Cursor.behind, List.drop_append, Nat.add_assoc,
      List.drop_eq_nil_of_le (Nat.le_add_right before.length c.offset)]
  · rfl

theorem lengthPrefixed : Reader.lengthPrefixed.Local := by
  refine ((take 4).bind fun b => pure _).bind fun length => ?_
  split
  · exact pure none
  · split
    · exact throw _
    · refine .bind (.bind (take _) fun b => ?_) fun s => pure (some s)
      split
      · exact pure _
      · exact throw _

end Local

end Reader

namespace Metadata

namespace MethodType

theorem ofCode_code (t : MethodType) : ofCode t.code = t := by
  cases t <;> decide

end MethodType

namespace Key

theorem encode_eq {k : Key} (fits : Identifier.Fits k.agentId) :
    k.encode = .ok (Bytes.padded Identifier.maxLength k.agentId ++
      (Bytes.ofInt64 k.agentStartTime ++ Bytes.ofInt32 k.id)) := by
  have short : ¬Identifier.maxLength < k.agentId.utf8ByteSize := Nat.not_lt.2 fits.1
  rw [encode, if_neg short, List.append_assoc]

theorem decode_encode {k : Key} (fits : Identifier.Fits k.agentId) {bytes : Bytes}
    (encoded : k.encode = .ok bytes) : decode bytes = .ok k := by
  rw [encode_eq fits] at encoded
  obtain rfl := Except.ok.inj encoded
  have last := (Reader.reads_int32 k.id).map fun id => (⟨k.agentId, k.agentStartTime, id⟩ : Key)
  have reads : reader.Reads _ k := (Reader.reads_padded fits.1 fits.2).bind
    ((Reader.reads_int64 k.agentStartTime).bind last)
  exact reads.whole

theorem salted_of_short {s : Salting} {k : Key}
    (short : k.agentId.utf8ByteSize ≤ Identifier.maxLength) : ∃ row, k.salted s = .ok row := by
  rw [salted, encode, if_neg (Nat.not_lt.2 short)]
  exact ⟨_, rfl⟩

theorem salted_of_long {s : Salting} {k : Key}
    (long : Identifier.maxLength < k.agentId.utf8ByteSize) :
    k.salted s = .error (.agentIdTooLong k.agentId) := by
  rw [salted, encode, if_pos long]
  rfl

/-- A key is read back from its row. -/
theorem decode_salted {s : Salting} {k : Key} (fits : Identifier.Fits k.agentId) {row : Bytes}
    (written : k.salted s = .ok row) : (RowError.unsalting row >>= decode) = .ok k := by
  rw [salted, encode_eq fits] at written
  obtain rfl := Except.ok.inj written
  exact decode_encode fits (encode_eq fits)

/-- Keys do not share a row. -/
theorem salted_injective {s : Salting} {k k' : Key} (fits : Identifier.Fits k.agentId)
    (fits' : Identifier.Fits k'.agentId) {row : Bytes} (written : k.salted s = .ok row)
    (written' : k'.salted s = .ok row) : k = k' :=
  Except.ok.inj ((decode_salted fits written).symm.trans (decode_salted fits' written'))

end Key

namespace ApiSignature

open Statistics

/-- Whether the lengths of the texts can be written before them. -/
structure Sound (a : ApiSignature) : Prop where
  info : Writable a.info
  location : ∀ location ∈ a.location, Writable location

/-- What is read behind the type of a signature. -/
def ending (info : String) (line : Int32) (methodType : MethodType) : Reader ApiSignature := do
  let location ← if (← Reader.hasMore) then Reader.lengthPrefixed else pure none
  return { info, line, methodType, location }

/-- What is read behind the line of a signature. -/
def typing (info : String) (line : Int32) : Reader ApiSignature := do
  if ← Reader.hasMore then ending info line (← MethodType.ofCode <$> Reader.int32)
  else ending info line .standard

theorem reader_eq : reader = (do typing (← Reader.textOrEmpty) (← Reader.int32)) := rfl

/-- Bytes behind the type are read as a location. -/
theorem ends_ending (info : String) (line : Int32) (methodType : MethodType) (rest : Bytes) :
    (ending info line methodType).Ends rest
      (if rest = [] then .ok ⟨info, line, methodType, none⟩
        else (Reader.lengthPrefixed.read rest).map (⟨info, line, methodType, ·⟩)) := by
  rw [ending, Reader.ends_hasMore]
  cases rest with
  | nil => exact (Reader.reads_pure _).ends
  | cons byte rest =>
    exact Reader.Local.lengthPrefixed.ends.map fun location =>
      (⟨info, line, methodType, location⟩ : ApiSignature)

theorem ends_untyped (info : String) (line : Int32) :
    (typing info line).Ends [] (.ok ⟨info, line, .standard, none⟩) := by
  rw [typing, Reader.ends_hasMore]
  exact ends_ending info line .standard []

theorem ends_typed (info : String) (line code : Int32) (rest : Bytes) :
    (typing info line).Ends (Bytes.ofInt32 code ++ rest)
      (if rest = [] then .ok ⟨info, line, .ofCode code, none⟩
        else (Reader.lengthPrefixed.read rest).map (⟨info, line, .ofCode code, ·⟩)) := by
  have type : (MethodType.ofCode <$> Reader.int32).Reads (Bytes.ofInt32 code) (.ofCode code) :=
    (Reader.reads_int32 code).map MethodType.ofCode
  have more : (Bytes.ofInt32 code ++ rest).isEmpty = false := rfl
  rw [typing, Reader.ends_hasMore, more]
  exact type.bindEnds (ends_ending info line (.ofCode code) rest)

section

variable {info : String} (writable : Writable info) (line : Int32)

include writable

/-- A signature is read part by part. -/
theorem reading_parts {rest : Bytes} {answer : Except ReadError ApiSignature}
    (ends : (typing info line).Ends rest answer) :
    RowError.reading reader (Bytes.lengthPrefixed (some info) ++ (Bytes.ofInt32 line ++ rest)) =
      answer.mapError .read := by
  rw [reader_eq]
  exact ((Reader.reads_textOrEmpty writable).bindEnds
    ((Reader.reads_int32 line).bindEnds ends)).whole

/-- What follows the type of a signature is read as its location. -/
theorem reading_typed (code : Int32) (rest : Bytes) :
    RowError.reading reader (Bytes.lengthPrefixed (some info) ++
        (Bytes.ofInt32 line ++ (Bytes.ofInt32 code ++ rest))) =
      if rest = [] then .ok ⟨info, line, .ofCode code, none⟩
      else (RowError.reading Reader.lengthPrefixed rest).map (⟨info, line, .ofCode code, ·⟩) := by
  rw [reading_parts writable line (ends_typed info line code rest), RowError.reading]
  split
  · rfl
  · cases Reader.lengthPrefixed.read rest <;> rfl

end

/-- Nothing behind a location is looked at. -/
theorem reading_located {a : ApiSignature} (sound : a.Sound) (located : a.location ≠ none)
    (suffix : Bytes) : RowError.reading reader (a.encode ++ suffix) = .ok a := by
  obtain ⟨info, line, type, location⟩ := a
  obtain ⟨text, rfl⟩ := Option.ne_none_iff_exists'.1 located
  have writable : Writable text := sound.location text rfl
  have typed := reading_typed sound.info line type.code (Bytes.lengthPrefixed (some text) ++ suffix)
  have read : RowError.reading Reader.lengthPrefixed (Bytes.lengthPrefixed (some text) ++ suffix) =
      .ok (some text) := by
    rw [RowError.reading, (Reader.reads_lengthPrefixed writable).read suffix]
    rfl
  have nonempty : Bytes.lengthPrefixed (some text) ≠ [] :=
    List.ne_nil_of_length_pos (Nat.lt_of_lt_of_le (by decide) (Bytes.le_length_lengthPrefixed _))
  rw [if_neg (List.append_ne_nil_of_left_ne_nil nonempty suffix), read,
    MethodType.ofCode_code] at typed
  simp only [encode, List.append_assoc]
  exact typed

theorem reading_encode {a : ApiSignature} (sound : a.Sound) :
    RowError.reading reader a.encode = .ok a := by
  by_cases unlocated : a.location = none
  · obtain ⟨info, line, type, location⟩ := a
    obtain rfl : location = none := unlocated
    have typed := reading_typed sound.info line type.code []
    rw [if_pos rfl, MethodType.ofCode_code] at typed
    simp only [encode, List.append_assoc]
    exact typed
  · have read := reading_located sound unlocated []
    rwa [List.append_nil] at read

end ApiSignature

end Metadata

end CallTelemetry
