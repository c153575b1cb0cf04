import CallTelemetry.Proofs.Metadata.Cells

/-! Bytes behind a payload. Behind the last part that it can have they are ignored; a signature without
a location ends before that part, so that bytes behind it are read as its location. -/
namespace CallTelemetry

namespace Reader

/-- A text is absent where the bytes begin with the length that stands for that. -/
theorem reading_absent_iff {bytes : Bytes} :
    RowError.reading lengthPrefixed bytes = .ok none ↔ Bytes.ofInt32 (-1) <+: bytes := by
  constructor
  · intro read
    have read : lengthPrefixed.read bytes = .ok none := eq_ok_of_mapError read
    obtain ⟨taken, after, rfl, -, rfl, -⟩ := takes_lengthPrefixed [] bytes none _ (Prod.ext read rfl)
    exact List.prefix_append _ after
  · rintro ⟨after, rfl⟩
    exact congrArg (Except.mapError RowError.read) (reads_absent.read after)

end Reader

namespace Metadata

namespace ApiSignature

/-- Without a location, what follows is read as one. -/
theorem reading_unlocated {a : ApiSignature} (sound : a.Sound) (unlocated : a.location = none)
    {suffix : Bytes} (nonempty : suffix ≠ []) : RowError.reading reader (a.encode ++ suffix) =
      (RowError.reading Reader.lengthPrefixed suffix).map fun location => { a with location } := by
  obtain ⟨info, line, type, location⟩ := a
  obtain rfl : location = none := unlocated
  have typed := reading_typed sound.info line type.code suffix
  rw [if_neg nonempty, MethodType.ofCode_code] at typed
  simp only [encode, List.append_assoc, List.nil_append]
  exact typed

/-- A signature without a location is changed by what follows, unless that is the length of an absent
text. -/
theorem reading_unlocated_iff {a : ApiSignature} (sound : a.Sound) (unlocated : a.location = none)
    {suffix : Bytes} : RowError.reading reader (a.encode ++ suffix) = .ok a ↔
      suffix = [] ∨ Bytes.ofInt32 (-1) <+: suffix := by
  by_cases empty : suffix = []
  · rw [empty, List.append_nil, reading_encode sound]
    exact iff_of_true rfl (.inl rfl)
  · rw [reading_unlocated sound unlocated empty, or_iff_right empty, ← Reader.reading_absent_iff]
    cases RowError.reading Reader.lengthPrefixed suffix with
    | error e => exact ⟨nofun, nofun⟩
    | ok location =>
      refine ⟨fun same => ?_, fun same => ?_⟩
      · have location_eq := congrArg ApiSignature.location (Except.ok.inj same)
        exact congrArg Except.ok (location_eq.trans unlocated)
      · obtain rfl := Except.ok.inj same
        rw [← unlocated]
        rfl

end ApiSignature

/-- Whether the last part that a payload can have stands in it. -/
def Kind.Closed : (kind : Kind) → kind.Value → Prop
  | api => fun a : ApiSignature => a.location ≠ none
  | string => fun _ => True
  | sql => fun _ => True

theorem Kind.reading_closed {kind : Kind} {v : kind.Value} (sound : kind.Sound v)
    (closed : kind.Closed v) (suffix : Bytes) :
    RowError.reading kind.reader (kind.encode v ++ suffix) = .ok v := by
  have text {s : String} (writable : Statistics.Writable s) :
      RowError.reading Reader.textOrEmpty (textPayload s ++ suffix) = .ok s := by
    rw [RowError.reading, textPayload, (Reader.reads_textOrEmpty writable).read suffix]
    rfl
  cases kind with
  | api => exact ApiSignature.reading_located sound closed suffix
  | string => exact text sound
  | sql => exact text sound

/-- Bytes behind a payload that is closed change nothing, in whatever way its cell holds it and
wherever the cell stands. Behind a signature without a location they are its location, and leave it as
it is just where there are none, or where they say that the text is absent. -/
theorem trailing_bytes_read :
    (∀ (kind : Kind) (v : kind.Value), kind.Sound v → kind.Closed v →
      ∀ suffix family other row : Bytes,
        ∀ cell ∈ generations family other (kind.encode v ++ suffix),
          (∀ before after, entries kind.reader row (before ++ cell :: after) =
            entries kind.reader row
              (before ++ (⟨family, signatureQualifier⟩, kind.encode v) :: after)) ∧
          ∀ key, rowKey row = .ok key → entries kind.reader row [cell] = .ok [⟨key, v⟩]) ∧
    ∀ a : ApiSignature, a.Sound → a.location = none → ∀ suffix family other row : Bytes,
      ∀ cell ∈ generations family other (a.encode ++ suffix), ∀ key, rowKey row = .ok key →
        (suffix ≠ [] → entries ApiSignature.reader row [cell] =
          (RowError.reading Reader.lengthPrefixed suffix).map
            fun location => [⟨key, { a with location }⟩]) ∧
        (entries ApiSignature.reader row [cell] = .ok [⟨key, a⟩] ↔
          suffix = [] ∨ Bytes.ofInt32 (-1) <+: suffix) := by
  refine ⟨?_, ?_⟩
  · intro kind v sound closed suffix family other row cell member
    have long := kind.le_length_encode v
    have holds := payload_of_generations family other (by rw [List.length_append]; omega) cell member
    have alone := payload_of_generations family other long _ List.mem_cons_self
    have here := entry_of_payload (Kind.reading_closed sound closed suffix) row holds
    have there := entry_of_payload (Kind.reading_encode sound) row alone
    refine ⟨fun before after => ?_, fun key found => ?_⟩
    · simp only [entries_eq, List.mapM_append, List.mapM_cons, here, there]
    · rw [entries_single found, holds, Kind.reading_closed sound closed suffix]
      rfl
  · intro a sound unlocated suffix family other row cell member key found
    have long : 4 ≤ (a.encode ++ suffix).length := by
      rw [List.length_append]
      exact Nat.le_add_right_of_le (Kind.api.le_length_encode a)
    have holds := payload_of_generations family other long cell member
    rw [entries_single found, holds]
    refine ⟨fun nonempty => ?_, ?_⟩
    · rw [ApiSignature.reading_unlocated sound unlocated nonempty]
      cases RowError.reading Reader.lengthPrefixed suffix <;> rfl
    · rw [← ApiSignature.reading_unlocated_iff sound unlocated]
      cases RowError.reading ApiSignature.reader (a.encode ++ suffix) <;> simp [Except.map]

/-- A signature that was written without a location. -/
def unlocatedEntry : Entry ApiSignature :=
  ⟨⟨"agent", 1409814914298, 7⟩, ⟨"Future.call()", 3, .exception, none⟩⟩

/-- The row of that signature, with bytes behind its payload. -/
def unlocatedAnswer (suffix : Bytes) : Except RowError (List (Entry ApiSignature)) := do
  let row ← unlocatedEntry.key.salted ⟨14, by decide, by decide⟩
  apiEntries row [(⟨ColumnFamily.apiMetadata.family, signatureQualifier⟩,
    unlocatedEntry.value.encode ++ suffix)]

/-- Bytes behind a signature without a location make it unreadable, or give it a location. -/
theorem unlocated_suffix_read : unlocatedAnswer [] = .ok [unlocatedEntry] ∧
    unlocatedAnswer [9, 9, 9] = .error (.read (.underflow 4 3)) ∧
    unlocatedAnswer [0, 0, 0, 1, 65] = .ok [{ unlocatedEntry with
      value := { unlocatedEntry.value with location := some "A" } }] := by
  decide +kernel

end Metadata

end CallTelemetry
