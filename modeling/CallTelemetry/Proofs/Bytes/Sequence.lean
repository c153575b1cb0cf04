import CallTelemetry.Proofs.Bytes.Reading

/-! Fields written one behind the other. They are read back in their order wherever they stand, and the
reads stop where the writing did. Of a part of the bytes, the fields that lie in it as a whole are read
back, and the next read runs short. -/
namespace CallTelemetry

namespace Bytes

/-- The length of a text stands in whatever part of its bytes has room for it. -/
theorem leading_of_part {s : String} (bound : s.utf8ByteSize ≤ 0x7fffffff) {part : Bytes}
    (begins : part <+: lengthPrefixed (some s)) (enough : 4 ≤ part.length) :
    part.leading.toInt = s.utf8ByteSize := by
  have short : min (ofText s).length 0x7fffffff = s.utf8ByteSize := Nat.min_eq_left bound
  rw [lengthPrefixed, short] at begins
  have first : part.take 4 = ofInt32 (Int32.ofNat s.utf8ByteSize) := by
    rw [List.prefix_iff_eq_take.1 begins, List.take_take, Nat.min_eq_left enough]
    exact List.take_left' (length_ofInt32 _)
  rw [leading, first, toInt32_ofInt32]
  exact Int32.toInt_ofNat_of_lt (Nat.lt_succ_of_le bound)

end Bytes

namespace Layout.Field

theorem reads_reader {f : Layout.Field} {v : f.Value} (sound : f.Sound v) :
    f.reader.Reads (f.encode v) v := by
  cases f with
  | int16 => exact Reader.reads_int16 v
  | int32 => exact Reader.reads_int32 v
  | int64 => exact Reader.reads_int64 v
  | text =>
    cases v with
    | none => exact Reader.reads_absent
    | some s => exact Reader.reads_lengthPrefixed (sound s rfl)
  | padded width => exact Reader.reads_padded sound.1 sound.2

/-- Of a field that is not there as a whole, too few bytes are left for a read of it. -/
theorem run_part {f : Layout.Field} {v : f.Value} (sound : f.Sound v) {c : Cursor}
    (begins : c.ahead <+: f.encode v) (less : c.remaining < (f.encode v).length) :
    ∃ needed left c', left < needed ∧ f.reader.run c = (.error (.underflow needed left), c') := by
  rcases Nat.lt_or_ge c.remaining (Read.field f).head with few | enough
  · exact ⟨_, _, c, few, Read.run_short few⟩
  have fixed (width : (f.encode v).length = (Read.field f).head) : False := by omega
  cases f with
  | int16 => exact (fixed (Bytes.length_ofInt16 v)).elim
  | int32 => exact (fixed (Bytes.length_ofInt32 v)).elim
  | int64 => exact (fixed (Bytes.length_ofInt64 v)).elim
  | padded width => exact (fixed (Bytes.length_padTo width _)).elim
  | text =>
    cases v with
    | none => exact (fixed (Bytes.length_ofInt32 _)).elim
    | some s =>
      have enough : 4 ≤ c.remaining := enough
      have length : (Bytes.lengthPrefixed (some s)).length = 4 + s.utf8ByteSize := by
        simp [Bytes.lengthPrefixed]
      have less : c.remaining < (Bytes.lengthPrefixed (some s)).length := less
      have told := Bytes.leading_of_part (sound s rfl) begins (by rwa [c.length_ahead])
      refine ⟨s.utf8ByteSize, c.remaining - 4, c.skip 4, by omega, ?_⟩
      refine (Reader.run_present enough told).trans ?_
      rw [if_neg (by omega)]

end Layout.Field

/-- A field with the value that is written in it. -/
structure Written where
  field : Layout.Field
  value : field.Value
  sound : field.Sound value

namespace Written

def bytes (w : Written) : Bytes := w.field.encode w.value

def read (w : Written) : Read := .field w.field

/-- The answer that has what was written. -/
def answer (w : Written) : Read.Answer := ⟨w.read, .ok w.value⟩

def all (ws : List Written) : Bytes := ws.flatMap bytes

@[simp] theorem all_nil : all [] = [] := rfl

@[simp] theorem all_cons (w : Written) (ws : List Written) : all (w :: ws) = w.bytes ++ all ws :=
  List.flatMap_cons

@[simp] theorem all_append (ws ws' : List Written) : all (ws ++ ws') = all ws ++ all ws' :=
  List.flatMap_append

theorem readAll_whole (ws : List Written) (before after : Bytes) :
    Read.readAll (ws.map read) ⟨before ++ (all ws ++ after), before.length⟩ =
      (ws.map answer, ⟨before ++ (all ws ++ after), before.length + (all ws).length⟩) := by
  induction ws generalizing before with
  | nil => rfl
  | cons w ws ih =>
    have first : w.read.reader.run ⟨before ++ (w.bytes ++ (all ws ++ after)), before.length⟩ =
        (.ok w.value, ⟨before ++ (w.bytes ++ (all ws ++ after)), before.length + w.bytes.length⟩) :=
      Layout.Field.reads_reader w.sound before (all ws ++ after)
    -- What was read of the first field stands before the others.
    have rest := ih (before ++ w.bytes)
    rw [List.append_assoc, List.length_append] at rest
    rw [all_cons, List.append_assoc, List.map_cons, Read.readAll, first]
    simp only [rest, List.length_append, Nat.add_assoc, List.map_cons]
    rfl

theorem readAll_part (w : Written) {c : Cursor} (begins : c.ahead <+: w.bytes)
    (less : c.remaining < w.bytes.length) (reads : List Read) :
    ∃ needed left later, left < needed ∧ (Read.readAll (w.read :: reads) c).1 =
      ⟨w.read, .error (.underflow needed left)⟩ :: later := by
  obtain ⟨needed, left, c', short, ran⟩ := Layout.Field.run_part w.sound begins less
  have ran : w.read.reader.run c = (.error (.underflow needed left), c') := ran
  exact ⟨needed, left, (Read.readAll reads c').1, short, by rw [Read.readAll, ran]⟩

/-- Where a part of what was written ends: within some field, behind all of those before it. -/
theorem part_ends {ws : List Written} {part : Bytes} (begins : part <+: all ws)
    (less : part ≠ all ws) : ∃ done w rest cut, ws = done ++ w :: rest ∧ part = all done ++ cut ∧
      cut <+: w.bytes ∧ cut.length < w.bytes.length := by
  induction ws generalizing part with
  | nil => exact absurd (List.prefix_nil.1 begins) less
  | cons w ws ih =>
    by_cases whole : w.bytes <+: part
    · obtain ⟨part, rfl⟩ := whole
      have begins : part <+: all ws := (List.prefix_append_right_inj w.bytes).1 begins
      have less : part ≠ all ws := fun same => less (congrArg (w.bytes ++ ·) same)
      obtain ⟨done, w', rest, cut, rfl, rfl, inside⟩ := ih begins less
      exact ⟨w :: done, w', rest, cut, rfl, by simp, inside⟩
    · have inside := (List.prefix_or_prefix_of_prefix begins
        (List.prefix_append w.bytes (all ws))).resolve_right whole
      have shorter : part.length < w.bytes.length := by
        refine Nat.lt_of_le_of_ne inside.length_le fun same => whole ?_
        exact (inside.eq_of_length same).symm ▸ List.prefix_refl w.bytes
      exact ⟨[], w, ws, part, rfl, rfl, inside, shorter⟩

/-- Fields are read back wherever they were written, and no further. Of a part of them, what lies in it
as a whole is read back, and the next read finds too few bytes. -/
theorem sequence_read_back (ws : List Written) (before : Bytes) :
    (∀ after : Bytes,
      let bytes := before ++ (all ws ++ after)
      Read.readAll (ws.map read) (.startAt bytes before.length) =
        (ws.map answer, ⟨bytes, before.length + (all ws).length⟩)) ∧
    ∀ part : Bytes, part <+: all ws → part ≠ all ws →
      ∃ done w rest, ws = done ++ w :: rest ∧
        (all done).length ≤ part.length ∧ part.length < (all (done ++ [w])).length ∧
        ∃ needed left later, left < needed ∧
          (Read.readAll (ws.map read) (.startAt (before ++ part) before.length)).1 =
            done.map answer ++ ⟨w.read, .error (.underflow needed left)⟩ :: later := by
  have start (rest : Bytes) : Cursor.startAt (before ++ rest) before.length =
      ⟨before ++ rest, before.length⟩ := by
    simp [Cursor.startAt]
  refine ⟨fun after => ?_, fun part begins less => ?_⟩
  · intro bytes
    rw [start]
    exact readAll_whole ws before after
  · obtain ⟨done, w, rest, cut, rfl, rfl, inside, shorter⟩ := part_ends begins less
    let here : Cursor := ⟨before ++ (all done ++ cut), before.length + (all done).length⟩
    have ahead : here.ahead = cut := by
      have behind : (before ++ all done ++ cut).drop (before ++ all done).length = cut :=
        List.drop_left
      rwa [List.append_assoc, List.length_append] at behind
    have left : here.remaining = cut.length := by rw [← here.length_ahead, ahead]
    obtain ⟨needed, left, later, short, failed⟩ :=
      w.readAll_part (c := here) (ahead ▸ inside) (left ▸ shorter) (rest.map read)
    refine ⟨done, w, rest, rfl, by simp, by simpa using shorter, needed, left, later, short, ?_⟩
    rw [start, List.map_append, Read.readAll_append, readAll_whole, List.map_cons, failed]

/-- Of four fields, the second cut off within a character. -/
theorem sequence_read_back_cut :
    let ws : List Written := [
      ⟨.int16, (-3 : Int16), trivial⟩,
      ⟨.text, some "\u00e9", by rintro _ ⟨⟩; decide⟩,
      ⟨.text, (none : Option String), nofun⟩,
      ⟨.padded 8, "agent", by decide, by decide⟩]
    let part : Bytes := [255, 253, 0, 0, 0, 2, 195]
    part <+: all ws ∧ part ≠ all ws ∧
      ∃ done w rest, ws = done ++ w :: rest ∧
        (all done).length ≤ part.length ∧ part.length < (all (done ++ [w])).length ∧
        ∃ needed left later, left < needed ∧
          (Read.readAll (ws.map read) (.startAt ([7] ++ part) 1)).1 =
            done.map answer ++ ⟨w.read, .error (.underflow needed left)⟩ :: later := by
  intro ws part
  have begins : part <+: all ws := by decide +kernel
  have less : part ≠ all ws := by decide +kernel
  exact ⟨begins, less, (sequence_read_back ws [7]).2 part begins less⟩

end Written

end CallTelemetry
