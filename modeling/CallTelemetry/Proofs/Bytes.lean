import CallTelemetry.Bytes

/-! Laws of the fixed layouts. A word of known width and text are read back as they were written, and
words of one width stand in the order of their numbers. -/
namespace CallTelemetry.Bytes

theorem capacity_pos (width : Nat) : 0 < capacity width := by
  induction width with
  | zero => decide
  | succ width ih => exact Nat.mul_pos ih (by decide)

/-- The low bytes of a number and the byte before them. -/
theorem mod_capacity_succ (width n : Nat) : n % capacity (width + 1) =
    n % capacity width + capacity width * (n / capacity width % 256) :=
  Nat.mod_mul

@[simp] theorem length_ofNat (width n : Nat) : (ofNat width n).length = width := by
  induction width with
  | zero => rfl
  | succ width ih => simp [ofNat, ih]

theorem toNat_cons (byte : UInt8) (b : Bytes) :
    toNat (byte :: b) = byte.toNat * capacity b.length + toNat b := by
  have shift (start : Nat) : b.foldl (fun n byte => n * 256 + byte.toNat) start =
      start * capacity b.length + toNat b := by
    induction b generalizing start with
    | nil => simp [toNat, capacity]
    | cons hd tl ih =>
      rw [toNat, List.foldl_cons, List.foldl_cons, ih, ih, List.length_cons, capacity]
      simp only [Nat.add_mul, Nat.zero_mul, Nat.zero_add]
      rw [Nat.mul_assoc, Nat.mul_comm 256]
      omega
  rw [toNat, List.foldl_cons, shift]
  simp

theorem toNat_ofNat (width n : Nat) : toNat (ofNat width n) = n % capacity width := by
  induction width with
  | zero => simp [ofNat, toNat, capacity, Nat.mod_one]
  | succ width ih =>
    rw [ofNat, toNat_cons, ih, length_ofNat, UInt8.toNat_ofNat', mod_capacity_succ, Nat.mul_comm,
      Nat.add_comm]

@[simp] theorem toInt64_ofInt64 (x : Int64) : toInt64 (ofInt64 x) = x := by
  rw [toInt64, ofInt64, toNat_ofNat]
  have bound : x.toUInt64.toNat < capacity 8 := x.toUInt64.toNat_lt
  rw [Nat.mod_eq_of_lt bound]
  simp

@[simp] theorem length_ofInt64 (x : Int64) : (ofInt64 x).length = 8 := length_ofNat 8 _

@[simp] theorem toCounter?_ofInt64 (x : Int64) : toCounter? (ofInt64 x) = some x := by
  simp [toCounter?]

@[simp] theorem toInt16_ofInt16 (x : Int16) : toInt16 (ofInt16 x) = x := by
  have bound : x.toUInt16.toNat < capacity 2 := x.toUInt16.toNat_lt
  rw [toInt16, ofInt16, toNat_ofNat, Nat.mod_eq_of_lt bound]
  simp

@[simp] theorem length_ofInt16 (x : Int16) : (ofInt16 x).length = 2 := length_ofNat 2 _

@[simp] theorem toInt32_ofInt32 (x : Int32) : toInt32 (ofInt32 x) = x := by
  have bound : x.toUInt32.toNat < capacity 4 := x.toUInt32.toNat_lt
  rw [toInt32, ofInt32, toNat_ofNat, Nat.mod_eq_of_lt bound]
  simp

@[simp] theorem length_ofInt32 (x : Int32) : (ofInt32 x).length = 4 := length_ofNat 4 _

@[simp] theorem length_ofText (s : String) : (ofText s).length = s.utf8ByteSize := rfl

theorem le_length_lengthPrefixed (s? : Option String) : 4 ≤ (lengthPrefixed s?).length := by
  cases s? <;> simp [lengthPrefixed]

@[simp] theorem toText?_ofText (s : String) : toText? (ofText s) = some s := by
  have bytes : (⟨⟨ofText s⟩⟩ : ByteArray) = s.toByteArray := rfl
  rw [toText?, bytes, String.fromUTF8?, dif_pos s.isValidUTF8]
  rfl

theorem ofText_eq (s : String) : ofText s = s.toList.flatMap String.utf8EncodeChar := by
  have bytes : s.toByteArray = s.toList.utf8Encode := by
    conv => lhs; rw [← String.ofList_toList (s := s)]
    exact String.toByteArray_ofList
  have whole : ofText s = s.toByteArray.data.toList := rfl
  rw [whole, bytes]
  simp [List.utf8Encode]

theorem eq_zero_of_last {c : Char} (zero : (String.utf8EncodeChar c).getLast? = some 0) :
    c = '\x00' := by
  have continued (x : UInt8) : x ||| 0x80 ≠ 0 := by simp [UInt8.or_eq_zero_iff]
  rcases c.utf8Size_eq with size | size | size | size
  · rw [String.utf8EncodeChar_eq_singleton size] at zero
    have low := UInt32.le_iff_toNat_le.1 (Char.utf8Size_eq_one_iff.1 size)
    have byte : c.val.toUInt8.toNat = 0 := congrArg UInt8.toNat (Option.some.inj zero)
    rw [UInt32.toNat_toUInt8, Nat.mod_eq_of_lt (Nat.lt_of_le_of_lt low (by decide))] at byte
    exact Char.ext (UInt32.toNat_inj.1 byte)
  · rw [String.utf8EncodeChar_eq_cons_cons size] at zero
    exact absurd (Option.some.inj zero) (continued _)
  · rw [String.utf8EncodeChar_eq_cons_cons_cons size] at zero
    exact absurd (Option.some.inj zero) (continued _)
  · rw [String.utf8EncodeChar_eq_cons_cons_cons_cons size] at zero
    exact absurd (Option.some.inj zero) (continued _)

/-- A text ends in the byte zero only if it ends in the character zero. -/
theorem getLast?_ofText {s : String} (zero : (ofText s).getLast? = some 0) :
    s.toList.getLast? = some '\x00' := by
  rw [ofText_eq] at zero
  rcases List.eq_nil_or_concat s.toList with none | ⟨init, c, parts⟩
  · simp [none] at zero
  · rw [List.concat_eq_append] at parts
    rw [parts, List.flatMap_append, List.flatMap_singleton, List.getLast?_append,
      List.getLast?_eq_some_getLast String.utf8EncodeChar_ne_nil] at zero
    have last := List.getLast?_eq_some_getLast (String.utf8EncodeChar_ne_nil (c := c))
    rw [parts, List.getLast?_concat, eq_zero_of_last (last.trans zero)]

@[simp] theorem length_padTo (width : Nat) (b : Bytes) : (padTo width b).length = width := by
  simp only [padTo, List.length_append, List.length_take, List.length_replicate]
  omega

/-- The zeros that fill a field are told from text that does not end in one. -/
theorem dropTrailingZeros_padTo {width : Nat} {b : Bytes} (bound : b.length ≤ width)
    (last : b.getLast? ≠ some 0) : dropTrailingZeros (padTo width b) = b := by
  have zeros (n : Nat) (l : Bytes) :
      (List.replicate n (0 : UInt8) ++ l).dropWhile (· == 0) = l.dropWhile (· == 0) := by
    induction n with
    | zero => rfl
    | succ n ih => simp [List.replicate_succ, ih]
  rw [dropTrailingZeros, padTo, List.take_of_length_le bound, List.reverse_append,
    List.reverse_replicate, zeros]
  cases reversed : b.reverse with
  | nil => simpa using reversed.symm
  | cons byte rest =>
    have nonzero : byte ≠ 0 := by
      rintro rfl
      exact last (by rw [← List.head?_reverse, reversed]; rfl)
    rw [List.dropWhile_cons_of_neg (by simpa using nonzero), ← reversed, List.reverse_reverse]

theorem compare_byte (a b : UInt8) : compare a b = compare a.toNat b.toNat := by
  simp only [compare, compareOfLessAndEq, UInt8.lt_iff_toNat_lt, ← UInt8.toNat_inj]

/-- Strings of one length come first where their heads do. -/
theorem compare_append {a a' : Bytes} (b b' : Bytes) (same : a.length = a'.length) :
    compare (a ++ b) (a' ++ b') = (compare a a').then (compare b b') := by
  induction a generalizing a' with
  | nil =>
    obtain rfl : a' = [] := List.length_eq_zero_iff.1 same.symm
    rfl
  | cons x a ih =>
    cases a' with
    | nil => simp at same
    | cons y a' =>
      simp only [List.cons_append, List.compare_cons_cons, ih (Nat.succ.inj same)]
      cases compare x y <;> rfl

/-- Numbers are compared by their quotients, and where those agree by their remainders. -/
theorem compare_divided {base q q' r r' : Nat} (bound : r < base) (bound' : r' < base) :
    compare (r + base * q) (r' + base * q') = (compare q q').then (compare r r') := by
  have less {q q' : Nat} (before : q < q') : base * q + base ≤ base * q' := by
    rw [← Nat.mul_succ]
    exact Nat.mul_le_mul_left base before
  rcases Nat.lt_trichotomy q q' with before | rfl | after
  · have := less before
    rw [Nat.compare_eq_lt.2 before, Nat.compare_eq_lt.2 (by omega)]
    rfl
  · have swap : compare q q = .eq := Nat.compare_eq_eq.2 rfl
    rw [swap, Ordering.eq_then]
    rcases Nat.lt_trichotomy r r' with before | rfl | after
    · rw [Nat.compare_eq_lt.2 before, Nat.compare_eq_lt.2 (by omega)]
    · rw [Nat.compare_eq_eq.2 rfl, Nat.compare_eq_eq.2 rfl]
    · rw [Nat.compare_eq_gt.2 after, Nat.compare_eq_gt.2 (by omega)]
  · have := less after
    rw [Nat.compare_eq_gt.2 after, Nat.compare_eq_gt.2 (by omega)]
    rfl

theorem compare_ofNat_mod (width n m : Nat) : compare (ofNat width n) (ofNat width m) =
    compare (n % capacity width) (m % capacity width) := by
  induction width with
  | zero => simp [ofNat, capacity, Nat.mod_one]
  | succ width ih =>
    have bound (n : Nat) : n % capacity width < capacity width := Nat.mod_lt n (capacity_pos width)
    rw [mod_capacity_succ, mod_capacity_succ, compare_divided (bound n) (bound m), ofNat, ofNat,
      List.compare_cons_cons, ih, compare_byte, UInt8.toNat_ofNat', UInt8.toNat_ofNat']

theorem compare_ofNat {width n m : Nat} (bound : n < capacity width)
    (bound' : m < capacity width) : compare (ofNat width n) (ofNat width m) = compare n m := by
  rw [compare_ofNat_mod, Nat.mod_eq_of_lt bound, Nat.mod_eq_of_lt bound']

end CallTelemetry.Bytes
