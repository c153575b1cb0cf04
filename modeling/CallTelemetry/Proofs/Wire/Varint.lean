import CallTelemetry.Wire.Varint

/-! Numbers in groups of seven bits are read back wherever they stand, and zigzag numbers are read
back as the signed numbers that they were. -/
namespace CallTelemetry.Wire

namespace Varint

/-- How many numbers fit in `room` bytes with one more bit in a byte behind them. -/
def capacity : Nat → Nat
  | 0 => 2
  | room + 1 => capacity room * 128

theorem toNat_lt_capacity (n : UInt64) : n.toNat < capacity 9 := n.toNat_lt

/-- A byte that ends a number holds a whole group. -/
theorem toNat_last {n : Nat} (small : n < 128) :
    (UInt8.ofNat n).toNat = n ∧ UInt8.ofNat n < 128 := by
  have value : (UInt8.ofNat n).toNat = n := UInt8.toNat_ofNat_of_lt' (Nat.lt_trans small (by decide))
  refine ⟨value, UInt8.lt_iff_toNat_lt.2 ?_⟩
  rw [value]
  exact small

/-- A byte with others behind it has its high bit beside its group. -/
theorem toNat_continued (n : Nat) :
    (UInt8.ofNat (n % 128 + 128)).toNat = n % 128 + 128 ∧ ¬UInt8.ofNat (n % 128 + 128) < 128 := by
  have fits : n % 128 + 128 < 256 := by omega
  have value : (UInt8.ofNat (n % 128 + 128)).toNat = n % 128 + 128 := UInt8.toNat_ofNat_of_lt' fits
  refine ⟨value, fun small => ?_⟩
  rw [UInt8.lt_iff_toNat_lt, value] at small
  exact absurd small (by simp)

theorem encodeWithin_small {room n : Nat} (small : n < 128) :
    encodeWithin (room + 1) n = [UInt8.ofNat n] := by
  rw [encodeWithin, if_pos small]

theorem encodeWithin_large {room n : Nat} (large : ¬n < 128) :
    encodeWithin (room + 1) n = UInt8.ofNat (n % 128 + 128) :: encodeWithin room (n / 128) := by
  rw [encodeWithin, if_neg large]

theorem div_lt_capacity {room n : Nat} (fits : n < capacity (room + 1)) :
    n / 128 < capacity room := by
  rw [capacity] at fits
  omega

theorem decodeWithin_encodeWithin {room n : Nat} (fits : n < capacity room) (rest : Bytes) :
    decodeWithin (room + 1) (encodeWithin (room + 1) n ++ rest) = some (n, rest) := by
  induction room generalizing n with
  | zero =>
    have bit : n < 2 := fits
    obtain ⟨value, last⟩ := toNat_last (n := n) (by omega)
    have one : ¬1 < UInt8.ofNat n := by
      rw [UInt8.lt_iff_toNat_lt, value]
      exact Nat.not_lt.2 (Nat.le_of_lt_succ bit)
    rw [encodeWithin_small (by omega), List.singleton_append, decodeWithin]
    simp [last, one, value]
  | succ room ih =>
    by_cases small : n < 128
    · obtain ⟨value, last⟩ := toNat_last small
      rw [encodeWithin_small small, List.singleton_append, decodeWithin]
      simp [last, value]
    · obtain ⟨value, continued⟩ := toNat_continued n
      have high := ih (div_lt_capacity fits)
      rw [encodeWithin_large small, List.cons_append, decodeWithin, if_neg continued, high, value]
      have parts : n % 128 + n / 128 * 128 = n := by omega
      simp [parts]

theorem decode?_encode (n : UInt64) (rest : Bytes) : decode? (encode n ++ rest) = some (n, rest) := by
  rw [decode?, encode, maxLength, decodeWithin_encodeWithin (toNat_lt_capacity n)]
  simp

theorem encode_ne_nil (n : UInt64) : encode n ≠ [] := by
  rw [encode, maxLength]
  by_cases small : n.toNat < 128
  · simp [encodeWithin_small small]
  · simp [encodeWithin_large small]

end Varint

theorem toNat_zigzag (x : Int32) :
    (zigzag x).toNat = (if x.toInt < 0 then -2 * x.toInt - 1 else 2 * x.toInt).toNat := by
  have least : -2147483648 ≤ x.toInt := x.minValue_le_toInt
  have most : x.toInt ≤ 2147483647 := x.toInt_le
  have sign : x < 0 ↔ x.toInt < 0 := Int32.lt_iff_toInt_lt
  simp only [zigzag, sign]
  refine UInt32.toNat_ofNat_of_lt' (Nat.lt_of_lt_of_eq ?_ (rfl : 4294967296 = UInt32.size))
  split <;> omega

theorem even_iff (n : UInt32) : n % 2 = 0 ↔ n.toNat % 2 = 0 := by
  rw [← UInt32.toNat_inj, UInt32.toNat_mod]
  rfl

@[simp] theorem unzigzag_zigzag (x : Int32) : unzigzag (zigzag x) = x := by
  have number (n : Nat) : Int32.ofNat n = Int32.ofInt n := rfl
  have one : (1 : Int32) = Int32.ofInt 1 := rfl
  simp only [unzigzag, even_iff, toNat_zigzag]
  by_cases negative : x.toInt < 0
  · have odd : ¬(-2 * x.toInt - 1).toNat % 2 = 0 := by omega
    have half : -(((-2 * x.toInt - 1).toNat / 2 : Nat) : Int) - 1 = x.toInt := by omega
    rw [if_pos negative, if_neg odd, number, one, ← Int32.ofInt_neg, ← Int32.ofInt_sub, half,
      Int32.ofInt_toInt]
  · have even : (2 * x.toInt).toNat % 2 = 0 := by omega
    have half : (((2 * x.toInt).toNat / 2 : Nat) : Int) = x.toInt := by omega
    rw [if_neg negative, if_pos even, number, half, Int32.ofInt_toInt]

end CallTelemetry.Wire
