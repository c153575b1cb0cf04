import CallTelemetry.Proofs.Bytes.Layout
import CallTelemetry.Proofs.Failing
import CallTelemetry.Proofs.Metadata.Registering

/-! Rows of metadata are read cell by cell. A payload is found wherever in its cell it has stood over
time, and a signature from before its last parts came into being has their defaults. -/
namespace CallTelemetry

namespace Metadata

/-- The key of a row. -/
def rowKey (row : Bytes) : Except RowError Key := RowError.unsalting row >>= Key.decode

namespace Key

/-- A key without the zeros at the end of its agent, which are not told from those that fill up the
field. -/
def trimmed (k : Key) : Key :=
  { k with agentId := String.ofList (k.agentId.toList.rdropWhile (· == '\x00')) }

/-- Every row that a key has is read as that key, as far as it can be told. -/
theorem rowKey_salted {s : Salting} {k : Key} {row : Bytes} (written : k.salted s = .ok row) :
    rowKey row = .ok k.trimmed := by
  have short : k.agentId.utf8ByteSize ≤ Identifier.maxLength := by
    refine Nat.le_of_not_lt fun long => ?_
    rw [salted_of_long long] at written
    cases written
  have whole : (Bytes.ofText k.agentId).take Identifier.maxLength = Bytes.ofText k.agentId :=
    List.take_of_length_le short
  have spelled : (Bytes.dropTrailingZeros (Bytes.padded Identifier.maxLength k.agentId)).toText? =
      some k.trimmed.agentId := by
    rw [Bytes.padded, Bytes.padTo, whole, Bytes.dropTrailingZeros_append_zeros,
      Bytes.dropTrailingZeros_ofText, Bytes.toText?_ofText]
    rfl
  have last := (Reader.reads_int32 k.id).map fun id =>
    (⟨k.trimmed.agentId, k.agentStartTime, id⟩ : Key)
  have reads : reader.Reads _ k.trimmed :=
    (Reader.reads_text (Bytes.length_padTo _ _) spelled).bind
      ((Reader.reads_int64 k.agentStartTime).bind last)
  rw [salted, encode, if_neg (Nat.not_lt.2 short), List.append_assoc] at written
  obtain rfl := Except.ok.inj written
  exact reads.whole

theorem trimmed_of_fits {k : Key} (fits : Identifier.Fits k.agentId) : k.trimmed = k := by
  obtain ⟨row, written⟩ := salted_of_short (s := ⟨1, by decide, by decide⟩) fits.1
  exact Except.ok.inj ((rowKey_salted written).symm.trans (decode_salted fits written))

end Key

/-- The entry of a cell of a row. -/
def entry (r : Reader α) (row : Bytes) (cell : CellName × Bytes) : Except RowError (Entry α) := do
  return ⟨← rowKey row, ← RowError.reading r (payload cell)⟩

/-- A row is read cell by cell. -/
theorem entries_eq (r : Reader α) (row : Bytes) (cells : List (CellName × Bytes)) :
    entries r row cells = cells.mapM (entry r row) := by
  cases cells with
  | nil => rfl
  | cons cell cells =>
    have whole : entries r row (cell :: cells) = rowKey row >>= fun key =>
        (cell :: cells).mapM fun cell => do return ⟨key, ← RowError.reading r (payload cell)⟩ := by
      rw [rowKey, bind_assoc]
      rfl
    unfold entry
    rw [whole]
    cases rowKey row <;> rfl

/-- A row of one cell has the entry of that cell. -/
theorem entries_single {row : Bytes} {key : Key} (found : rowKey row = .ok key) (r : Reader α)
    (cell : CellName × Bytes) : entries r row [cell] =
      (RowError.reading r (payload cell)).map fun a => [⟨key, a⟩] := by
  rw [entries_eq, List.mapM_cons, entry, found]
  cases RowError.reading r (payload cell) <;> rfl

theorem entry_of_payload {r : Reader α} {bytes : Bytes} {a : α}
    (read : RowError.reading r bytes = .ok a) (row : Bytes) {cell : CellName × Bytes}
    (holds : payload cell = bytes) : entry r row cell = (rowKey row).map (⟨·, a⟩) := by
  rw [entry, holds, read]
  cases rowKey row <;> rfl

/-- The cells in which a payload has stood over time: as the value of the signature, as that of any
other qualifier, and as a qualifier without a value. -/
def generations (family other payload : Bytes) : List (CellName × Bytes) :=
  [(⟨family, signatureQualifier⟩, payload), (⟨family, other⟩, payload), (⟨family, payload⟩, [])]

/-- The qualifier of the signature is shorter than any payload, so a cell that has it and no value is
not taken for one. -/
theorem payload_of_generations (family other : Bytes) {bytes : Bytes} (long : 4 ≤ bytes.length) :
    ∀ cell ∈ generations family other bytes, payload cell = bytes := by
  have some : bytes ≠ [] := by
    rintro rfl
    cases long
  have other_name : bytes ≠ signatureQualifier := by
    rintro rfl
    exact absurd long (by decide)
  simp [generations, payload, some, other_name]

theorem Kind.le_length_encode (kind : Kind) (v : kind.Value) : 4 ≤ (kind.encode v).length := by
  cases kind with
  | api =>
    have info := Bytes.le_length_lengthPrefixed (some v.info)
    simp only [encode, ApiSignature.encode, List.length_append]
    omega
  | string => exact Bytes.le_length_lengthPrefixed (some v)
  | sql => exact Bytes.le_length_lengthPrefixed (some v)

/-- A row has an entry for each of its cells, in their order, or the error of the first that has one.
All generations of a cell have the same entry, which holds what was written, and a signature that ends
early has the defaults for what is missing. A text has to be shorter than 2^31 bytes to be read back, as
its length is written before it in four bytes. -/
theorem generations_alike :
    (∀ (kind : Kind) (row : Bytes) (cells : List (CellName × Bytes)),
      (∀ es, entries kind.reader row cells = .ok es ↔
        cells.map (entry kind.reader row) = es.map .ok) ∧
      ∀ e, entries kind.reader row cells = .error e ↔
        ∃ (es : List (Entry kind.Value)) (rest : List (Except RowError (Entry kind.Value))),
          cells.map (entry kind.reader row) = es.map .ok ++ .error e :: rest) ∧
    (∀ (kind : Kind) (v : kind.Value) (family other row : Bytes),
      ∀ cell ∈ generations family other (kind.encode v),
        entry kind.reader row cell =
          entry kind.reader row (⟨family, signatureQualifier⟩, kind.encode v) ∧
        (kind.Sound v → entry kind.reader row cell = (rowKey row).map (⟨·, v⟩))) ∧
    (∀ (info : String) (line : Int32), Statistics.Writable info → ∀ family other row : Bytes,
      (∀ cell ∈ generations family other (Bytes.lengthPrefixed (some info) ++ Bytes.ofInt32 line),
        entry ApiSignature.reader row cell =
          (rowKey row).map (⟨·, ⟨info, line, .standard, none⟩⟩)) ∧
      ∀ t : MethodType, ∀ cell ∈ generations family other
          (Bytes.lengthPrefixed (some info) ++ Bytes.ofInt32 line ++ Bytes.ofInt32 t.code),
        entry ApiSignature.reader row cell = (rowKey row).map (⟨·, ⟨info, line, t, none⟩⟩)) ∧
    ∀ (s : Salting) (k : Key) (row : Bytes), k.salted s = .ok row →
      rowKey row = .ok k.trimmed ∧ (Identifier.Fits k.agentId → k.trimmed = k) := by
  refine ⟨fun kind row cells => ?_, fun kind v family other row cell member => ?_,
    fun info line writable family other row => ⟨fun cell member => ?_, fun t cell member => ?_⟩,
    fun s k row written => ⟨Key.rowKey_salted written, Key.trimmed_of_fits⟩⟩
  · rw [entries_eq]
    exact ⟨fun _ => mapM_eq_ok_iff, fun _ => mapM_eq_error_iff⟩
  · have long := kind.le_length_encode v
    have holds := payload_of_generations family other long cell member
    have first := payload_of_generations family other long _ List.mem_cons_self
    exact ⟨by rw [entry, entry, holds, first],
      fun sound => entry_of_payload (Kind.reading_encode sound) row holds⟩
  · have prefixed := Bytes.le_length_lengthPrefixed (some info)
    have read := ApiSignature.reading_parts writable line (ApiSignature.ends_untyped info line)
    rw [List.append_nil] at read
    exact entry_of_payload read row
      (payload_of_generations family other (by rw [List.length_append]; omega) cell member)
  · have prefixed := Bytes.le_length_lengthPrefixed (some info)
    have read := ApiSignature.reading_typed writable line t.code []
    rw [List.append_nil, ← List.append_assoc, if_pos rfl, MethodType.ofCode_code] at read
    exact entry_of_payload read row
      (payload_of_generations family other
        (by rw [List.length_append, List.length_append]; omega) cell member)

/-- A method without a name, in cells that tell of its type and place and in such that do not. -/
theorem generations_alike_nameless :
    let key : Key := ⟨"", 7, -3⟩
    let whole : ApiSignature := ⟨"", 0, .webRequest, some ""⟩
    let early : ApiSignature := ⟨"", 0, .standard, none⟩
    let cells := generations [65] [] whole.encode ++
      generations [65] [0] (Bytes.lengthPrefixed (some "") ++ Bytes.ofInt32 0)
    let es : List (Entry ApiSignature) := .replicate 3 ⟨key, whole⟩ ++ .replicate 3 ⟨key, early⟩
    ∃ row, key.salted ⟨13, by decide, by decide⟩ = .ok row ∧
      entries ApiSignature.reader row cells = .ok es ∧
      entries ApiSignature.reader row (cells ++ [(⟨[65], [0]⟩, [0, 0])]) =
        .error (.read (.underflow 4 2)) := by
  intro key whole early cells es
  have fits : Identifier.Fits key.agentId := ⟨by decide, by decide⟩
  obtain ⟨row, written⟩ := Key.salted_of_short (s := ⟨13, by decide, by decide⟩) fits.1
  obtain ⟨rows, alike, ending, keys⟩ := generations_alike
  have read := keys _ key row written
  have named : rowKey row = .ok key := read.1.trans (congrArg Except.ok (read.2 fits))
  have found : cells.map (entry ApiSignature.reader row) = es.map .ok := by
    rw [List.map_append, List.map_append, List.map_replicate, List.map_replicate]
    congr 1
    · refine List.map_eq_replicate_iff.2 fun cell member => ?_
      have held := (alike .api whole _ _ row cell member).2 ⟨by decide, by rintro _ ⟨⟩; decide⟩
      rwa [named] at held
    · refine List.map_eq_replicate_iff.2 fun cell member => ?_
      have held := (ending "" 0 (by decide) _ _ row).1 cell member
      rwa [named] at held
  have malformed : entry ApiSignature.reader row (⟨[65], [0]⟩, [0, 0]) =
      .error (.read (.underflow 4 2)) := by
    rw [entry, named]
    rfl
  refine ⟨row, written, ((rows .api row cells).1 es).2 found,
    ((rows .api row _).2 _).2 ⟨es, [], ?_⟩⟩
  rw [List.map_append, List.map_singleton]
  exact congrArg₂ (· ++ ·) found (congrArg ([·]) malformed)

end Metadata

end CallTelemetry
