import CallTelemetry.Text.Integer

/-! Numerals. A text is read as the number that its digits write, if it is one in range; the
decimal text of a number is a numeral of it. -/
namespace CallTelemetry.Text

structure Digits (cs : List Char) : Prop where
  nonempty : cs ≠ []
  each : ∀ c ∈ cs, c.isDigit

/-- Whether a text writes a number: in decimal digits, behind a sign or without one. Zeros may stand
before the others. -/
inductive Numeral : List Char → Int → Prop where
  | unsigned {ds : List Char} : Digits ds → Numeral ds (Nat.ofDigitChars 10 ds 0)
  | positive {ds : List Char} : Digits ds → Numeral ('+' :: ds) (Nat.ofDigitChars 10 ds 0)
  | negative {ds : List Char} : Digits ds → Numeral ('-' :: ds) (-(Nat.ofDigitChars 10 ds 0))

theorem Digits.head_ne {c : Char} {cs : List Char} (digits : Digits (c :: cs)) (c' : Char)
    (other : c'.isDigit = false) : c ≠ c' := by
  rintro rfl
  rw [digits.each c List.mem_cons_self] at other
  cases other

theorem digits_toDigits (n : Nat) : Digits (Nat.toDigits 10 n) :=
  ⟨Nat.toDigits_ne_nil, fun _ => Nat.isDigit_of_mem_toDigits (by decide) (by decide)⟩

/-- The value is found digit by digit, and is lost at the first character that is none. -/
theorem foldl_digits (cs : List Char) (m : Option Nat) :
    cs.foldl (fun n c => n.bind fun n =>
        if c.isDigit then some (n * 10 + (c.toNat - '0'.toNat)) else none) m =
      if cs.all Char.isDigit then m.map (Nat.ofDigitChars 10 cs) else none := by
  induction cs generalizing m with
  | nil => cases m <;> simp
  | cons c cs ih =>
    rw [List.foldl_cons, ih]
    by_cases digit : c.isDigit
    · cases m <;> simp [digit, Nat.ofDigitChars_cons, Nat.mul_comm]
    · cases m <;> simp [digit]

theorem digitsValue?_eq_some_iff {cs : List Char} {n : Nat} :
    digitsValue? cs = some n ↔ Digits cs ∧ Nat.ofDigitChars 10 cs 0 = n := by
  have digits : Digits cs ↔ ¬ cs.isEmpty ∧ cs.all Char.isDigit := by
    rw [List.isEmpty_iff, List.all_eq_true]
    exact ⟨fun ⟨nonempty, each⟩ => ⟨nonempty, each⟩, fun ⟨nonempty, each⟩ => ⟨nonempty, each⟩⟩
  rw [digitsValue?, foldl_digits, digits]
  split <;> simp [*]

theorem numeral_plus_iff {ds : List Char} {n : Int} :
    Numeral ('+' :: ds) n ↔ Digits ds ∧ (Nat.ofDigitChars 10 ds 0 : Int) = n := by
  constructor
  · intro numeral
    cases numeral with
    | unsigned digits => exact absurd rfl (digits.head_ne '+' rfl)
    | positive digits => exact ⟨digits, rfl⟩
  · rintro ⟨digits, rfl⟩
    exact .positive digits

theorem numeral_minus_iff {ds : List Char} {n : Int} :
    Numeral ('-' :: ds) n ↔ Digits ds ∧ -(Nat.ofDigitChars 10 ds 0 : Int) = n := by
  constructor
  · intro numeral
    cases numeral with
    | unsigned digits => exact absurd rfl (digits.head_ne '-' rfl)
    | negative digits => exact ⟨digits, rfl⟩
  · rintro ⟨digits, rfl⟩
    exact .negative digits

theorem numeral_unsigned_iff {cs : List Char} {n : Int} (plus : ∀ ds, cs ≠ '+' :: ds)
    (minus : ∀ ds, cs ≠ '-' :: ds) :
    Numeral cs n ↔ Digits cs ∧ (Nat.ofDigitChars 10 cs 0 : Int) = n := by
  constructor
  · rintro (digits | digits | digits)
    · exact ⟨digits, rfl⟩
    · exact absurd rfl (plus _)
    · exact absurd rfl (minus _)
  · rintro ⟨digits, rfl⟩
    exact .unsigned digits

/-- A text writes one number at most. -/
theorem Numeral.unique {cs : List Char} {n n' : Int} (numeral : Numeral cs n)
    (numeral' : Numeral cs n') : n = n' := by
  cases numeral with
  | unsigned digits =>
    rw [numeral_unsigned_iff (fun ds same => (same ▸ digits).head_ne '+' rfl rfl)
      fun ds same => (same ▸ digits).head_ne '-' rfl rfl] at numeral'
    exact numeral'.2
  | positive digits => exact (numeral_plus_iff.1 numeral').2
  | negative digits => exact (numeral_minus_iff.1 numeral').2

theorem Numeral.chars {cs : List Char} {n : Int} (numeral : Numeral cs n) :
    ∀ c ∈ cs, c.isDigit ∨ c = '+' ∨ c = '-' := by
  intro c member
  cases numeral with
  | unsigned digits => exact .inl (digits.each c member)
  | positive digits =>
    rcases List.mem_cons.1 member with rfl | member
    · exact .inr (.inl rfl)
    · exact .inl (digits.each c member)
  | negative digits =>
    rcases List.mem_cons.1 member with rfl | member
    · exact .inr (.inr rfl)
    · exact .inl (digits.each c member)

/-- A text is read as a number if it writes one in range, without a minus sign where no number in
range is negative. -/
theorem integerIn?_eq_some_iff {low high : Int} {cs : List Char} {n : Int} :
    integerIn? low high cs = some n ↔
      (Numeral cs n ∧ (cs.head? = some '-' → low < 0)) ∧ low ≤ n ∧ n ≤ high := by
  have ranged (x : Option Int) :
      (x.bind fun n => if low ≤ n ∧ n ≤ high then some n else none) = some n ↔
        x = some n ∧ low ≤ n ∧ n ≤ high := by
    cases x <;> grind
  have valued (f : Nat → Int) (ds : List Char) :
      (digitsValue? ds).map f = some n ↔ Digits ds ∧ f (Nat.ofDigitChars 10 ds 0) = n := by
    simp only [Option.map_eq_some_iff, digitsValue?_eq_some_iff]
    grind
  unfold integerIn?
  dsimp only
  split
  next ds =>
    refine (ranged _).trans (and_congr_left' ?_)
    rw [numeral_plus_iff, valued]
    simp
  next ds =>
    by_cases negative : low < 0
    · rw [if_pos negative]
      refine (ranged _).trans (and_congr_left' ?_)
      have negated := valued (fun n => -(n : Int)) ds
      rw [numeral_minus_iff, ← negated]
      cases digitsValue? ds <;> simp [negative]
    · simp [negative]
  next plus minus =>
    have unsigned : cs.head? ≠ some '-' := by
      rw [ne_eq, List.head?_eq_some_iff]
      exact fun ⟨ds, same⟩ => minus ds same
    refine (ranged _).trans (and_congr_left' ?_)
    rw [numeral_unsigned_iff plus minus, valued]
    simp [unsigned]

theorem toList_toString (n : Int) : (toString n).toList =
    if n < 0 then '-' :: Nat.toDigits 10 n.natAbs else Nat.toDigits 10 n.natAbs := by
  cases n with
  | ofNat n => simp [Int.toString_eq_repr, Int.repr]
  | negSucc n => simp [Int.toString_eq_repr, Int.repr]

/-- The decimal text of a number writes it. -/
theorem numeral_toString (n : Int) : Numeral (toString n).toList n := by
  rw [toList_toString]
  split
  next negative =>
    refine numeral_minus_iff.2 ⟨digits_toDigits n.natAbs, ?_⟩
    rw [Nat.ofDigitChars_ten_toDigits]
    omega
  next =>
    have digits := Numeral.unsigned (digits_toDigits n.natAbs)
    rwa [Nat.ofDigitChars_ten_toDigits, Int.natAbs_of_nonneg (by omega)] at digits

end CallTelemetry.Text
