import CallTelemetry.Proofs.Wire.RoundTrip

/-! Lengths at their true value. Up to ten bytes are read as they stand and longer ones are refused,
but ten groups of seven bits hold more than a word: what the tenth byte has beyond its lowest bit is
lost, and such a length is taken for a smaller one. -/
namespace CallTelemetry.Wire.Frame

/-- Bytes that end with the first one below 128. -/
def IsLength : Bytes → Prop
  | [] => False
  | b :: p => if b < 128 then p = [] else IsLength p

/-- The number that groups of seven bits stand for, whatever its size. -/
def groups : Bytes → Nat
  | [] => 0
  | b :: p => b.toNat % 128 + 128 * groups p

/-- What is found when a body has been taken and decoded. -/
def Step.taken (rest : Bytes) : Except FrameError Frame → Step
  | .ok f => .frame f rest
  | .error e => .error e rest

/-- What is left behind the body of a frame, if one has been taken. -/
def Step.behindBody? : Step → Option Bytes
  | .frame _ rest => some rest
  | .error .malformedBody rest => some rest
  | .error (.unknownKind _) rest => some rest
  | _ => none

variable {limit position group : Nat} {value : UInt64} {kind b : UInt8} {p q rest tail : Bytes}

theorem isLength_last (last : b < 128) : IsLength (b :: p) ↔ p = [] := by simp [IsLength, last]

theorem isLength_continued (continued : ¬b < 128) : IsLength (b :: p) ↔ IsLength p := by
  simp [IsLength, continued]

instance isLengthDecidable : (p : Bytes) → Decidable (IsLength p)
  | [] => .isFalse id
  | b :: p =>
    if last : b < 128 then decidable_of_iff (p = []) (isLength_last last).symm
    else
      have := isLengthDecidable p
      decidable_of_iff (IsLength p) (isLength_continued last).symm

theorem IsLength.pos (length : IsLength p) : 0 < p.length := by
  cases p with
  | nil => cases length
  | cons b p => simp

/-- Bytes begin with a length unless each of them asks for another. -/
theorem length_or_open (tail : Bytes) :
    (∃ p rest, IsLength p ∧ tail = p ++ rest) ∨ ∀ b ∈ tail, ¬b < 128 := by
  induction tail with
  | nil => exact .inr (by simp)
  | cons b tail ih =>
    by_cases last : b < 128
    · exact .inl ⟨[b], tail, (isLength_last last).2 rfl, rfl⟩
    · rcases ih with ⟨p, rest, length, rfl⟩ | none
      · exact .inl ⟨b :: p, rest, (isLength_continued last).2 length, rfl⟩
      · exact .inr (List.forall_mem_cons.2 ⟨last, none⟩)

theorem unit_le {places : Nat} (before : position ≤ places) : unit position ≤ unit places := by
  induction before with
  | refl => exact Nat.le_refl _
  | step _ ih =>
    rw [unit]
    omega

theorem groups_append (p : Bytes) (b : UInt8) :
    groups (p ++ [b]) = groups p + unit p.length * (b.toNat % 128) := by
  induction p with
  | nil => simp [groups, unit]
  | cons first p ih =>
    rw [List.cons_append, groups, groups, ih, List.length_cons, unit, Nat.mul_add, Nat.add_assoc,
      Nat.mul_comm (unit _) 128, Nat.mul_assoc]

theorem groups_lt (p : Bytes) : groups p < unit p.length := by
  induction p with
  | nil => decide
  | cons b p ih =>
    have low := Nat.mod_lt b.toNat (by decide : 0 < 128)
    rw [groups, List.length_cons, unit]
    omega

/-- A group is put above those that have been read, as far as there is room in the word. -/
theorem or_group_wrapped (small : group < 128) (place : position ≤ 9)
    (below : value.toNat < unit position) :
    (value ||| (UInt64.ofNat group <<< UInt64.ofNat (7 * position))) =
      UInt64.ofNat (value.toNat + unit position * group) := by
  rw [← UInt64.toNat_inj, UInt64.toNat_ofNat']
  by_cases inside : position ≤ 8
  · have above := unit_le (show position + 1 ≤ 9 by omega)
    have sum := add_group_lt below small
    have word : unit 9 < UInt64.size := by decide
    rw [or_group group place below (by omega)]
    exact (Nat.mod_eq_of_lt (Nat.lt_trans (Nat.lt_of_lt_of_le sum above) word)).symm
  · obtain rfl : position = 9 := by omega
    -- Of the tenth group only the lowest bit is within the word.
    have bits : ∀ n : Fin 128, UInt64.ofNat n <<< UInt64.ofNat (7 * 9) =
        UInt64.ofNat (n % 2) <<< UInt64.ofNat (7 * 9) := by decide +kernel
    have top : unit 9 = 9223372036854775808 := by decide
    have word : UInt64.size = 18446744073709551616 := rfl
    rw [bits ⟨group, small⟩, or_group (group % 2) place below (by rw [top, word]; omega), top]
    rw [top] at below
    omega

/-- The bytes of a length are read as they stand, modulo the size of a word. -/
theorem readLength_groups (length : IsLength p) (place : position + p.length ≤ 10)
    (below : value.toNat < unit position) (rest : Bytes) :
    readLength value position (p ++ rest) =
      .known (UInt64.ofNat (value.toNat + unit position * groups p)) (position + p.length) := by
  induction p generalizing value position with
  | nil => cases length
  | cons b p ih =>
    rw [List.length_cons] at place ⊢
    have room : position < Varint.maxLength := by
      unfold Varint.maxLength
      omega
    have small := Nat.mod_lt b.toNat (by decide : 0 < 128)
    have put := or_group_wrapped small (by omega) below
    rw [List.cons_append, readLength, if_pos room]
    simp only [and_group, ends_iff, put]
    by_cases last : b < 128
    · obtain rfl := (isLength_last last).1 length
      simp [last, groups]
    · have shorter := (isLength_continued last).1 length
      have nonempty := shorter.pos
      have sum := add_group_lt below small
      have above := unit_le (show position + 1 ≤ 9 by omega)
      have word : unit 9 < UInt64.size := by decide
      have whole : (UInt64.ofNat (value.toNat + unit position * (b.toNat % 128))).toNat =
          value.toNat + unit position * (b.toNat % 128) :=
        UInt64.toNat_ofNat_of_lt' (Nat.lt_trans (Nat.lt_of_lt_of_le sum above) word)
      rw [if_neg last, ih shorter (by omega) (by rw [whole]; exact sum), whole, groups, unit,
        Nat.mul_add, Nat.add_assoc, Nat.mul_assoc, Nat.add_assoc, Nat.add_comm 1]

/-- More than ten bytes are no length. -/
theorem readLength_long (length : IsLength p) (long : 10 < position + p.length)
    (rest : Bytes) : readLength value position (p ++ rest) = .malformed := by
  induction p generalizing value position with
  | nil => cases length
  | cons b p ih =>
    rw [List.length_cons] at long
    rw [List.cons_append, readLength]
    split
    next room =>
      unfold Varint.maxLength at room
      by_cases last : b < 128
      · obtain rfl := (isLength_last last).1 length
        simp at long
        omega
      · simp only [ends_iff, last, if_false]
        exact ih ((isLength_continued last).1 length) (by omega)
    next => rfl

theorem readLength_open (none : ∀ b ∈ tail, ¬b < 128) :
    readLength value position tail =
      if position + tail.length < 10 then .incomplete else .malformed := by
  induction tail generalizing value position with
  | nil => rfl
  | cons b tail ih =>
    obtain ⟨continued, none⟩ := List.forall_mem_cons.1 none
    rw [readLength, List.length_cons]
    split
    next room =>
      simp only [ends_iff, continued, if_false]
      rw [ih none]
      congr 2
      omega
    next full =>
      unfold Varint.maxLength at full
      rw [if_neg (by omega)]

/-- One call on bytes that begin with a length. -/
theorem step_of_length (length : IsLength p) (kind : UInt8) (rest : Bytes) :
    step limit (kind :: (p ++ rest)) =
      if 10 < p.length then .error .malformedLength (kind :: (p ++ rest))
      else if limit < groups p % UInt64.size then
        .error (.tooLarge (UInt64.ofNat (groups p)) limit) (kind :: (p ++ rest))
      else if rest.length < groups p % UInt64.size then .needsMore
      else
        .taken (rest.drop (groups p % UInt64.size))
          (ofBody kind (rest.take (groups p % UInt64.size))) := by
  rw [step]
  by_cases long : 10 < p.length
  · rw [if_pos long, readLength_long length (by omega)]
  · have read : readLength 0 0 (p ++ rest) = _ :=
      readLength_groups length (by omega) (by decide) rest
    have number : (UInt64.ofNat (groups p)).toNat = groups p % UInt64.size := UInt64.toNat_ofNat'
    simp only [UInt64.toNat_zero, unit, Nat.zero_add, Nat.one_mul] at read
    simp only [if_neg long, read, number, List.drop_left]
    rfl

theorem step_open (none : ∀ b ∈ tail, ¬b < 128) (kind : UInt8) :
    step limit (kind :: tail) =
      if tail.length < 10 then .needsMore else .error .malformedLength (kind :: tail) := by
  rw [step, readLength_open none, Nat.zero_add]
  by_cases short : tail.length < 10
  · simp [short]
  · simp [short]

/-- A body is as long as the length before it says, but for what is beyond a word. -/
theorem body_of_behindBody? {bytes : Bytes} (taken : (step limit bytes).behindBody? = some rest) :
    ∃ kind p body, bytes = kind :: (p ++ (body ++ rest)) ∧ IsLength p ∧ p.length ≤ 10 ∧
      body.length = groups p % UInt64.size ∧ body.length ≤ limit := by
  cases bytes with
  | nil => cases taken
  | cons kind tail =>
    rcases length_or_open tail with ⟨p, after, length, rfl⟩ | none
    · rw [step_of_length length] at taken
      split at taken
      · cases taken
      split at taken
      · cases taken
      split at taken
      · cases taken
      next short fits whole =>
        have behind : after.drop (groups p % UInt64.size) = rest := by
          revert taken
          cases ofBody kind (after.take (groups p % UInt64.size)) with
          | ok f => simp [Step.taken, Step.behindBody?]
          | error e => cases e <;> simp [Step.taken, Step.behindBody?]
        have size : (after.take (groups p % UInt64.size)).length = groups p % UInt64.size := by
          rw [List.length_take]
          omega
        refine ⟨kind, p, after.take (groups p % UInt64.size), ?_, length, by omega, size, by omega⟩
        rw [← behind, List.take_append_drop]
    · rw [step_open none] at taken
      split at taken <;> cases taken

theorem IsLength.last (length : IsLength (q ++ [b])) : b < 128 := by
  induction q with
  | nil =>
    by_cases last : b < 128
    · exact last
    · exact ((isLength_continued last).1 length).elim
  | cons first q ih =>
    by_cases last : first < 128
    · simpa using (isLength_last last).1 length
    · exact ih ((isLength_continued last).1 length)

/-- Only a tenth byte goes beyond a word. -/
theorem size_le_groups_iff (length : IsLength p) (short : p.length ≤ 10) :
    UInt64.size ≤ groups p ↔ ∃ q b, p = q ++ [b] ∧ q.length = 9 ∧ 1 < b := by
  have top : unit 9 = 9223372036854775808 := by decide
  have word : UInt64.size = 18446744073709551616 := rfl
  have above (q : Bytes) (b : UInt8) (last : b < 128) (nine : q.length = 9) :
      groups (q ++ [b]) = groups q + 9223372036854775808 * b.toNat := by
    have small : b.toNat < 128 := UInt8.lt_iff_toNat_lt.1 last
    rw [groups_append, nine, top, Nat.mod_eq_of_lt small]
  constructor
  · intro large
    have ten : 9 < p.length := by
      apply Nat.lt_of_not_le
      intro few
      have below := groups_lt p
      have most := unit_le few
      omega
    obtain rfl | ⟨q, b, ends⟩ := List.eq_nil_or_concat p
    · cases length
    · rw [List.concat_eq_append] at ends
      subst ends
      have nine : q.length = 9 := by
        rw [List.length_append, List.length_singleton] at short ten
        omega
      have low := groups_lt q
      rw [above q b length.last nine] at large
      rw [nine] at low
      refine ⟨q, b, rfl, nine, UInt8.lt_iff_toNat_lt.2 ?_⟩
      have one : (1 : UInt8).toNat = 1 := rfl
      omega
  · rintro ⟨q, b, rfl, nine, high⟩
    have two : 1 < b.toNat := UInt8.lt_iff_toNat_lt.1 high
    rw [above q b length.last nine]
    omega

/-- The length of a frame at its true value. A body that has been taken is as long as its length
says, modulo the size of a word, and is within the limit; a length over the limit is refused, if it
fits a word or is longer than ten bytes. A length of ten bytes fits unless the last is above one. -/
theorem length_prefix_read (limit : Nat) (bytes : Bytes) :
    (∀ rest, (step limit bytes).behindBody? = some rest →
      ∃ kind p body, bytes = kind :: (p ++ (body ++ rest)) ∧ IsLength p ∧ p.length ≤ 10 ∧
        body.length = groups p % UInt64.size ∧ body.length ≤ limit) ∧
    (∀ kind p rest, bytes = kind :: (p ++ rest) → IsLength p → limit < groups p →
      (10 < p.length → step limit bytes = .error .malformedLength bytes) ∧
      (p.length ≤ 10 → groups p < UInt64.size →
        step limit bytes = .error (.tooLarge (UInt64.ofNat (groups p)) limit) bytes)) ∧
    ∀ p, IsLength p → p.length ≤ 10 →
      (UInt64.size ≤ groups p ↔ ∃ q b, p = q ++ [b] ∧ q.length = 9 ∧ 1 < b) := by
  refine ⟨fun rest => body_of_behindBody?, ?_, fun p => size_le_groups_iff⟩
  rintro kind p rest rfl length large
  rw [step_of_length length]
  constructor
  · intro long
    rw [if_pos long]
  · intro short fits
    rw [if_neg (by omega), if_pos (by rw [Nat.mod_eq_of_lt fits]; exact large)]

/-- Ten bytes that say `2 ^ 64` are taken for the length of an empty body. As a number within a
message they are refused. -/
theorem tenth_byte_lost :
    let p : Bytes := List.replicate 9 0x80 ++ [2]
    IsLength p ∧ groups p = UInt64.size ∧ standardLimit < groups p ∧
      step standardLimit (1 :: p) = .frame (.span {}) [] ∧ Varint.decode? p = none := by
  refine ⟨by decide, by decide, by decide, rfl, by decide⟩

end CallTelemetry.Wire.Frame
