import CallTelemetry.Proofs.Bytes
import CallTelemetry.Storage.RowError

/-! Reading back what was written. A reader is said to read a value off some bytes if it does so
wherever they stand, and stops behind them; readers in sequence read bytes in sequence. -/
namespace CallTelemetry.Reader

def Reads (r : Reader α) (bytes : Bytes) (a : α) : Prop :=
  ∀ before after, r.run ⟨before ++ (bytes ++ after), before.length⟩ =
    (.ok a, ⟨before ++ (bytes ++ after), before.length + bytes.length⟩)

theorem run_bind (r : Reader α) (f : α → Reader β) (c : Cursor) :
    (r >>= f).run c = match r.run c with
      | (.ok a, c) => (f a).run c
      | (.error e, c) => (.error e, c) := by
  simp only [run, bind, ExceptT.bind, ExceptT.mk, StateT.bind]
  rcases r c with ⟨_ | a, c⟩ <;> rfl

theorem reads_pure (a : α) : Reads (pure a) [] a := fun _ _ => rfl

theorem Reads.bind {r : Reader α} {f : α → Reader β} {bytes bytes' : Bytes} {a : α} {b : β}
    (first : r.Reads bytes a) (second : (f a).Reads bytes' b) :
    (r >>= f).Reads (bytes ++ bytes') b := by
  intro before after
  have first := first before (bytes' ++ after)
  have second := second (before ++ bytes) after
  rw [run_bind, List.append_assoc, first]
  simpa [Nat.add_assoc] using second

/-- A reader that ends by turning what was read into a value. -/
theorem Reads.map {r : Reader α} {bytes : Bytes} {a : α} (reads : r.Reads bytes a) (f : α → β) :
    Reads (do return f (← r)) bytes (f a) := by
  have ended := reads.bind (f := fun a => pure (f a)) (reads_pure (f a))
  rwa [List.append_nil] at ended

theorem Reads.read {r : Reader α} {bytes : Bytes} {a : α} (reads : r.Reads bytes a)
    (after : Bytes) : r.read (bytes ++ after) = .ok a := by
  have here := reads [] after
  rw [List.nil_append, List.length_nil] at here
  rw [Reader.read, Cursor.start, here]

/-- The bytes of a key or of a column, with nothing behind them. -/
theorem Reads.whole {r : Reader α} {bytes : Bytes} {a : α} (reads : r.Reads bytes a) :
    RowError.reading r bytes = .ok a := by
  have read := reads.read []
  rw [List.append_nil] at read
  rw [RowError.reading, read]
  rfl

theorem reads_take {n : Nat} {bytes : Bytes} (width : bytes.length = n) :
    (take n).Reads bytes bytes := by
  subst width
  intro before after
  simp [run, take, Cursor.remaining]

theorem reads_int16 (x : Int16) : int16.Reads (Bytes.ofInt16 x) x := by
  have reads := (reads_take (Bytes.length_ofInt16 x)).map Bytes.toInt16
  rwa [Bytes.toInt16_ofInt16] at reads

theorem reads_int32 (x : Int32) : int32.Reads (Bytes.ofInt32 x) x := by
  have reads := (reads_take (Bytes.length_ofInt32 x)).map Bytes.toInt32
  rwa [Bytes.toInt32_ofInt32] at reads

theorem reads_int64 (x : Int64) : int64.Reads (Bytes.ofInt64 x) x := by
  have reads := (reads_take (Bytes.length_ofInt64 x)).map Bytes.toInt64
  rwa [Bytes.toInt64_ofInt64] at reads

theorem reads_text {n : Nat} {strip : Bytes → Bytes} {bytes : Bytes} {s : String}
    (width : bytes.length = n) (spells : (strip bytes).toText? = some s) :
    (text n strip).Reads bytes s := by
  rw [← List.append_nil bytes]
  refine (reads_take width).bind ?_
  rw [spells]
  exact reads_pure s

/-- A field that spells no text fails whatever would be read behind it. -/
theorem read_text_misspelt {n : Nat} {strip : Bytes → Bytes} {bytes : Bytes}
    (width : bytes.length = n) (misspelt : (strip bytes).toText? = none) (f : String → Reader α)
    (after : Bytes) : (text n strip >>= f).read (bytes ++ after) = .error .invalidText := by
  have taken := reads_take width [] after
  rw [List.nil_append] at taken
  rw [read, run_bind, text, run_bind, Cursor.start, ← List.length_nil, taken]
  simp only [misspelt]
  rfl

theorem reads_padded {width : Nat} {s : String} (bound : s.utf8ByteSize ≤ width)
    (last : (Bytes.ofText s).getLast? ≠ some 0) :
    (padded width).Reads (Bytes.padded width s) s := by
  have bound : (Bytes.ofText s).length ≤ width := bound
  refine reads_text (Bytes.length_padTo width _) ?_
  rw [Bytes.padded, Bytes.dropTrailingZeros_padTo bound last, Bytes.toText?_ofText]

/-- Text that is not too long for its length to be written. -/
theorem reads_lengthPrefixed {s : String} (bound : s.utf8ByteSize ≤ 0x7fffffff) :
    lengthPrefixed.Reads (Bytes.lengthPrefixed (some s)) (some s) := by
  have short : min (Bytes.ofText s).length 0x7fffffff = s.utf8ByteSize := by
    rw [Bytes.length_ofText]
    omega
  have number : (Int32.ofNat s.utf8ByteSize).toInt = s.utf8ByteSize :=
    Int32.toInt_ofNat_of_lt (Nat.lt_succ_of_le bound)
  have known : Int32.ofNat s.utf8ByteSize ≠ -1 := by
    intro same
    have := congrArg Int32.toInt same
    rw [number] at this
    simp at this
  have nonnegative : ¬Int32.ofNat s.utf8ByteSize < 0 := by
    rw [Int32.lt_iff_toInt_lt, number]
    simp
  rw [Bytes.lengthPrefixed, short]
  refine (reads_int32 _).bind ?_
  rw [if_neg known, if_neg nonnegative, number]
  exact (reads_text rfl (Bytes.toText?_ofText s)).map some

theorem reads_absent : lengthPrefixed.Reads (Bytes.lengthPrefixed none) none := by
  have absent := (reads_int32 (-1)).bind (f := fun length => do
    if length = -1 then return none
    else if length < 0 then throw (.invalidLength length)
    else return some (← text length.toInt.toNat id)) (reads_pure none)
  rwa [List.append_nil] at absent

theorem reads_textOrEmpty {s : String} (bound : s.utf8ByteSize ≤ 0x7fffffff) :
    textOrEmpty.Reads (Bytes.lengthPrefixed (some s)) s :=
  (reads_lengthPrefixed bound).map (·.getD "")

end CallTelemetry.Reader
