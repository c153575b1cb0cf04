import CallTelemetry.Proofs.Bytes.Layout

/-! Reads one after another. However they succeed or fail, the cursor stays within the bytes. A read that
fails leaves it where it was if too few bytes remain for the first that it takes. A text may fail behind
those, and then they are gone. -/
namespace CallTelemetry

namespace Cursor

/-- The bytes that are not read yet. -/
def ahead (c : Cursor) : Bytes := c.bytes.drop c.offset

def skip (c : Cursor) (n : Nat) : Cursor := { c with offset := c.offset + n }

theorem length_ahead (c : Cursor) : c.ahead.length = c.remaining := List.length_drop

theorem ahead_skip (c : Cursor) (n : Nat) : (c.skip n).ahead = c.ahead.drop n :=
  List.drop_drop.symm

theorem remaining_skip (c : Cursor) (n : Nat) : (c.skip n).remaining = c.remaining - n :=
  Nat.sub_add_eq _ _ _

theorem skip_skip (c : Cursor) (n m : Nat) : (c.skip n).skip m = c.skip (n + m) := by
  simp [skip, Nat.add_assoc]

end Cursor

/-- The length that stands before a text. -/
def Bytes.leading (b : Bytes) : Int32 := toInt32 (b.take 4)

namespace Reader

theorem run_take (n : Nat) (c : Cursor) : (take n).run c =
    if n ≤ c.remaining then (.ok (c.ahead.take n), c.skip n)
    else (.error (.underflow n c.remaining), c) := rfl

theorem run_take_bind (n : Nat) (f : Bytes → Reader α) (c : Cursor) : (take n >>= f).run c =
    if n ≤ c.remaining then (f (c.ahead.take n)).run (c.skip n)
    else (.error (.underflow n c.remaining), c) := by
  rw [run_bind, run_take]
  by_cases enough : n ≤ c.remaining
  · rw [if_pos enough, if_pos enough]
  · rw [if_neg enough, if_neg enough]

theorem run_map (r : Reader α) (f : α → β) (c : Cursor) :
    Reader.run (do return f (← r)) c = ((r.run c).1.map f, (r.run c).2) := by
  rw [run_bind]
  rcases r.run c with ⟨_ | a, c'⟩ <;> rfl

theorem run_text (n : Nat) (strip : Bytes → Bytes) (c : Cursor) : (text n strip).run c =
    if n ≤ c.remaining then
      ((strip (c.ahead.take n)).toText?.elim (.error .invalidText) .ok, c.skip n)
    else (.error (.underflow n c.remaining), c) := by
  rw [text, run_take_bind]
  cases (strip (c.ahead.take n)).toText? <;> rfl

theorem run_lengthPrefixed (c : Cursor) : lengthPrefixed.run c =
    if 4 ≤ c.remaining then
      if c.ahead.leading.toInt = -1 then (.ok none, c.skip 4)
      else if c.ahead.leading.toInt < 0 then (.error (.invalidLength c.ahead.leading), c.skip 4)
      else (do return some (← text c.ahead.leading.toInt.toNat id) : Reader _).run (c.skip 4)
    else (.error (.underflow 4 c.remaining), c) := by
  have told : Bytes.toInt32 (c.ahead.take 4) = c.ahead.leading := rfl
  have minus : (-1 : Int32).toInt = -1 := rfl
  simp only [lengthPrefixed, int32, bind_assoc, pure_bind, run_take_bind, told,
    ← Int32.toInt_inj, Int32.lt_iff_toInt_lt, minus, Int32.toInt_zero]
  split
  · split
    · rfl
    · split <;> rfl
  · rfl

/-- A text that has a length is read behind it. -/
theorem run_present {c : Cursor} (enough : 4 ≤ c.remaining) {length : Nat}
    (told : c.ahead.leading.toInt = length) : lengthPrefixed.run c =
      if 4 + length ≤ c.remaining then
        ((Bytes.toText? ((c.ahead.drop 4).take length)).elim (.error .invalidText) (.ok ∘ some),
          c.skip (4 + length))
      else (.error (.underflow length (c.remaining - 4)), c.skip 4) := by
  have rest : length ≤ c.remaining - 4 ↔ 4 + length ≤ c.remaining := by omega
  rw [run_lengthPrefixed, if_pos enough, told, if_neg (by omega), if_neg (by omega),
    Int.toNat_natCast, run_map, run_text, Cursor.remaining_skip, Cursor.ahead_skip,
    Cursor.skip_skip, if_congr rest rfl rfl]
  split
  · cases spelt : Bytes.toText? ((c.ahead.drop 4).take length) <;> simp [spelt, Except.map]
  · rfl

/-- Whether a reader leaves the bytes as they are and stops within them. -/
def Advances (r : Reader α) : Prop := ∀ c, ∃ n ≤ c.remaining, (r.run c).2 = c.skip n

theorem advances_pure (a : α) : (pure a : Reader α).Advances := fun _ => ⟨0, Nat.zero_le _, rfl⟩

theorem advances_throw (e : ReadError) : (throw e : Reader α).Advances :=
  fun _ => ⟨0, Nat.zero_le _, rfl⟩

theorem advances_take (n : Nat) : (take n).Advances := by
  intro c
  rw [run_take]
  split
  next enough => exact ⟨n, enough, rfl⟩
  next => exact ⟨0, Nat.zero_le _, rfl⟩

theorem Advances.bind {r : Reader α} {f : α → Reader β} (first : r.Advances)
    (second : ∀ a, (f a).Advances) : (r >>= f).Advances := by
  intro c
  obtain ⟨n, bound, stop⟩ := first c
  rw [run_bind]
  rcases ran : r.run c with ⟨answer, c'⟩
  rw [ran] at stop
  obtain rfl : c' = c.skip n := stop
  cases answer with
  | error e => exact ⟨n, bound, rfl⟩
  | ok a =>
    obtain ⟨m, bound', stop'⟩ := second a (c.skip n)
    rw [Cursor.remaining_skip] at bound'
    exact ⟨n + m, by omega, stop'.trans (c.skip_skip n m)⟩

theorem advances_text (n : Nat) (strip : Bytes → Bytes) : (text n strip).Advances := by
  refine (advances_take n).bind fun b => ?_
  split
  · exact advances_pure _
  · exact advances_throw _

theorem advances_lengthPrefixed : lengthPrefixed.Advances := by
  refine ((advances_take 4).bind fun b => advances_pure _).bind fun length => ?_
  split
  · exact advances_pure _
  · split
    · exact advances_throw _
    · exact (advances_text _ _).bind fun s => advances_pure _

end Reader

/-- What is read with one call. -/
inductive Read where
  | byte
  | bytes (count : Nat)
  | field (f : Layout.Field)

namespace Read

abbrev Value : Read → Type
  | byte => UInt8
  | bytes _ => Bytes
  | field f => f.Value

def reader : (r : Read) → Reader r.Value
  | byte => Reader.byte
  | bytes count => Reader.take count
  | field f => f.reader

theorem advances_reader (r : Read) : r.reader.Advances := by
  have map {α : Type} (n : Nat) (f : Bytes → α) :
      Reader.Advances (do return f (← Reader.take n)) :=
    (Reader.advances_take n).bind fun b => Reader.advances_pure (f b)
  cases r with
  | byte => exact map 1 _
  | bytes count => exact Reader.advances_take count
  | field f =>
    cases f with
    | int16 => exact map 2 _
    | int32 => exact map 4 _
    | int64 => exact map 8 _
    | text => exact Reader.advances_lengthPrefixed
    | padded width => exact Reader.advances_text width _

/-- How many bytes a read takes first. -/
def head : Read → Nat
  | byte => 1
  | bytes count => count
  | field .int16 => 2
  | field .int32 => 4
  | field .int64 => 8
  | field .text => 4
  | field (.padded width) => width

/-- The bytes that a read takes first are taken all or none. -/
theorem run_short {r : Read} {c : Cursor} (few : c.remaining < r.head) :
    r.reader.run c = (.error (.underflow r.head c.remaining), c) := by
  have taken {α : Type} {n : Nat} (f : Bytes → Reader α) (few : c.remaining < n) :
      (Reader.take n >>= f).run c = (.error (.underflow n c.remaining), c) := by
    rw [Reader.run_take_bind, if_neg (Nat.not_le.2 few)]
  cases r with
  | byte => exact taken _ few
  | bytes count => exact if_neg (Nat.not_le.2 few)
  | field f =>
    cases f with
    | int16 => exact taken _ few
    | int32 => exact taken _ few
    | int64 => exact taken _ few
    | text => exact (Reader.run_lengthPrefixed c).trans (if_neg (Nat.not_le.2 few))
    | padded width => exact taken _ few

/-- How a text fails behind the bytes that it takes first: with which error, and how many of the bytes
ahead it has taken then. -/
inductive Spoils (ahead : Bytes) : Read → ReadError → Nat → Prop
  | padding {width : Nat}
    (unspelt : (Bytes.dropTrailingZeros (ahead.take width)).toText? = none) :
    Spoils ahead (field (.padded width)) .invalidText width
  | length (below : ahead.leading.toInt < -1) :
    Spoils ahead (field .text) (.invalidLength ahead.leading) 4
  | cut {length : Nat} (told : ahead.leading.toInt = length) (few : ahead.length < 4 + length) :
    Spoils ahead (field .text) (.underflow length (ahead.length - 4)) 4
  | spelling {length : Nat} (told : ahead.leading.toInt = length)
    (whole : 4 + length ≤ ahead.length)
    (unspelt : Bytes.toText? ((ahead.drop 4).take length) = none) :
    Spoils ahead (field .text) .invalidText (4 + length)

theorem Spoils.run {r : Read} {c : Cursor} (enough : r.head ≤ c.remaining) {e : ReadError}
    {taken : Nat} (spoils : Spoils c.ahead r e taken) :
    r.reader.run c = (.error e, c.skip taken) := by
  have ahead := c.length_ahead
  cases spoils with
  | padding unspelt =>
    have enough : taken ≤ c.remaining := enough
    refine (Reader.run_text taken Bytes.dropTrailingZeros c).trans ?_
    rw [if_pos enough, unspelt]
    rfl
  | length below =>
    have enough : 4 ≤ c.remaining := enough
    refine (Reader.run_lengthPrefixed c).trans ?_
    rw [if_pos enough, if_neg (by omega), if_pos (by omega)]
  | cut told few =>
    refine (Reader.run_present enough told).trans ?_
    rw [if_neg (by omega), ahead]
  | spelling told whole unspelt =>
    refine (Reader.run_present enough told).trans ?_
    rw [if_pos (by omega), unspelt]
    rfl

theorem Spoils.advanced {ahead : Bytes} {r : Read} {e : ReadError} {taken : Nat}
    (spoils : Spoils ahead r e taken) : 0 < taken := by
  cases spoils with
  | padding unspelt =>
    refine Nat.pos_of_ne_zero ?_
    rintro rfl
    have empty : (Bytes.dropTrailingZeros []).toText? = some "" := by decide +kernel
    cases empty.symm.trans unspelt
  | length => decide
  | cut => decide
  | spelling => omega

theorem spoils_of_padded {width : Nat} {c : Cursor} (enough : width ≤ c.remaining) {e : ReadError}
    {c' : Cursor} (ran : (Reader.padded width).run c = (.error e, c')) :
    ∃ taken, Spoils c.ahead (field (.padded width)) e taken ∧ c' = c.skip taken := by
  rw [Reader.padded, Reader.run_text, if_pos enough] at ran
  cases unspelt : (Bytes.dropTrailingZeros (c.ahead.take width)).toText? with
  | none =>
    rw [unspelt] at ran
    cases ran
    exact ⟨width, .padding unspelt, rfl⟩
  | some s =>
    rw [unspelt] at ran
    cases ran

theorem spoils_of_text {c : Cursor} (enough : 4 ≤ c.remaining) {e : ReadError} {c' : Cursor}
    (ran : Reader.lengthPrefixed.run c = (.error e, c')) :
    ∃ taken, Spoils c.ahead (field .text) e taken ∧ c' = c.skip taken := by
  have ahead := c.length_ahead
  by_cases told : 0 ≤ c.ahead.leading.toInt
  · obtain ⟨length, told⟩ := Int.eq_ofNat_of_zero_le told
    rw [Reader.run_present enough told] at ran
    split at ran
    next whole =>
      cases unspelt : Bytes.toText? ((c.ahead.drop 4).take length) with
      | none =>
        rw [unspelt] at ran
        cases ran
        exact ⟨_, .spelling told (by omega) unspelt, rfl⟩
      | some s =>
        rw [unspelt] at ran
        cases ran
    next few =>
      cases ran
      rw [← ahead]
      exact ⟨4, .cut told (by omega), rfl⟩
  · rw [Reader.run_lengthPrefixed, if_pos enough] at ran
    split at ran
    next absent => cases ran
    next present =>
      rw [if_pos (by omega)] at ran
      cases ran
      exact ⟨4, .length (by omega), rfl⟩

theorem spoils_of_error {r : Read} {c : Cursor} (enough : r.head ≤ c.remaining) {e : ReadError}
    {c' : Cursor} (ran : r.reader.run c = (.error e, c')) :
    ∃ taken, Spoils c.ahead r e taken ∧ c' = c.skip taken := by
  -- What is not a text has all that it needs in the bytes that it takes first.
  have plain {α : Type} {n : Nat} (f : Bytes → α) (enough : n ≤ c.remaining) :
      Reader.run (do return f (← Reader.take n)) c ≠ (.error e, c') := by
    rw [Reader.run_take_bind, if_pos enough]
    nofun
  cases r with
  | byte => exact (plain _ enough ran).elim
  | bytes count =>
    have enough : count ≤ c.remaining := enough
    rw [reader, Reader.run_take, if_pos enough] at ran
    cases ran
  | field f =>
    cases f with
    | int16 => exact (plain _ enough ran).elim
    | int32 => exact (plain _ enough ran).elim
    | int64 => exact (plain _ enough ran).elim
    | text => exact spoils_of_text enough ran
    | padded width => exact spoils_of_padded enough ran

/-- A read finds too few bytes and stays where it is, or it is of a text and fails behind what it takes
first. -/
theorem run_error_iff {r : Read} {c : Cursor} {e : ReadError} {c' : Cursor} :
    r.reader.run c = (.error e, c') ↔
      c.remaining < r.head ∧ e = .underflow r.head c.remaining ∧ c' = c ∨
      r.head ≤ c.remaining ∧ ∃ taken, 0 < taken ∧ Spoils c.ahead r e taken ∧ c' = c.skip taken := by
  constructor
  · intro ran
    rcases Nat.lt_or_ge c.remaining r.head with few | enough
    · cases (run_short few).symm.trans ran
      exact .inl ⟨few, rfl, rfl⟩
    · obtain ⟨taken, spoils, stop⟩ := spoils_of_error enough ran
      exact .inr ⟨enough, taken, spoils.advanced, spoils, stop⟩
  · rintro (⟨few, rfl, rfl⟩ | ⟨enough, taken, -, spoils, rfl⟩)
    · exact run_short few
    · exact spoils.run enough

/-- A read and what it answered. -/
structure Answer where
  read : Read
  result : Except ReadError read.Value

/-- Reads one after another, each from where the one before it stopped, also behind one that failed. -/
def readAll : List Read → Cursor → List Answer × Cursor
  | [], c => ([], c)
  | r :: rs, c =>
    let (result, c) := r.reader.run c
    let (answers, c) := readAll rs c
    (⟨r, result⟩ :: answers, c)

theorem readAll_append (rs rs' : List Read) (c : Cursor) : readAll (rs ++ rs') c =
    ((readAll rs c).1 ++ (readAll rs' (readAll rs c).2).1, (readAll rs' (readAll rs c).2).2) := by
  induction rs generalizing c with
  | nil => rfl
  | cons r rs ih => simp [readAll, ih]

theorem run_within (r : Read) {c : Cursor} (inside : c.offset ≤ c.bytes.length) :
    (r.reader.run c).2.bytes = c.bytes ∧ (r.reader.run c).2.offset ≤ c.bytes.length := by
  obtain ⟨n, bound, stop⟩ := r.advances_reader c
  have bound : n ≤ c.bytes.length - c.offset := bound
  have moved : (c.skip n).offset = c.offset + n := rfl
  rw [stop, moved]
  exact ⟨rfl, by omega⟩

theorem readAll_within (rs : List Read) {c : Cursor} (inside : c.offset ≤ c.bytes.length) :
    (readAll rs c).2.bytes = c.bytes ∧ (readAll rs c).2.offset ≤ c.bytes.length := by
  induction rs generalizing c with
  | nil => exact ⟨rfl, inside⟩
  | cons r rs ih =>
    obtain ⟨same, inside'⟩ := r.run_within inside
    rw [← same] at inside' ⊢
    exact ih inside'

/-- However the reads before it went, a read starts within the bytes; and just where too few of them are
left for what it takes first, it fails and stays where it is. Behind that only texts fail, and the
cursor has moved past what they took. -/
theorem failed_reads_placed (bytes : Bytes) (offset : Nat) (done : List Read) (r : Read) :
    let c := (readAll done (.startAt bytes offset)).2
    c.bytes = bytes ∧ c.offset ≤ bytes.length ∧ c.offset + c.remaining = bytes.length ∧
      ∀ e c', r.reader.run c = (.error e, c') ↔
        c.remaining < r.head ∧ e = .underflow r.head c.remaining ∧ c' = c ∨
        r.head ≤ c.remaining ∧
          ∃ taken, 0 < taken ∧ Spoils c.ahead r e taken ∧ c' = c.skip taken := by
  intro c
  have start : (Cursor.startAt bytes offset).offset ≤ bytes.length := Nat.min_le_right _ _
  obtain ⟨same, inside⟩ := readAll_within done start
  have same : c.bytes = bytes := same
  have inside : c.offset ≤ bytes.length := inside
  refine ⟨same, inside, ?_, fun e c' => run_error_iff⟩
  rw [Cursor.remaining, same]
  omega

/-- Texts that fail behind what they take first: the length is refused, the text is cut off, or its
bytes spell none. -/
theorem failed_texts_advance :
    Reader.lengthPrefixed.run (.start [255, 255, 255, 249]) =
      (.error (.invalidLength (-7)), ⟨[255, 255, 255, 249], 4⟩) ∧
    Reader.lengthPrefixed.run (.start [0, 0, 0, 10, 115]) =
      (.error (.underflow 10 1), ⟨[0, 0, 0, 10, 115], 4⟩) ∧
    Reader.lengthPrefixed.run (.start [0, 0, 0, 1, 255]) =
      (.error .invalidText, ⟨[0, 0, 0, 1, 255], 5⟩) ∧
    (Reader.padded 2).run (.start [255, 0]) = (.error .invalidText, ⟨[255, 0], 2⟩) := by
  decide +kernel

end Read

end CallTelemetry
