import Mathlib.Algebra.BigOperators.Group.List.Basic
import Mathlib.Algebra.Ring.Int.Defs
import Mathlib.Order.MinMax

/-! Words as numbers. They are a commutative monoid under addition that wraps around, and are linearly
ordered; a wrapped sum is the sum of the numbers where that is the number of a word. -/
namespace CallTelemetry

instance linearOrderInt64 : LinearOrder Int64 where
  le_refl := Int64.le_refl
  le_trans _ _ _ := Int64.le_trans
  le_antisymm _ _ := Int64.le_antisymm
  le_total := Int64.le_total
  lt_iff_le_not_ge _ _ := Std.LawfulOrderLT.lt_iff _ _
  toDecidableLE := inferInstance
  toDecidableEq := inferInstance
  toDecidableLT := inferInstance

instance addCommMonoidInt64 : AddCommMonoid Int64 where
  add_assoc := Int64.add_assoc
  add_comm := Int64.add_comm
  zero_add := Int64.zero_add
  add_zero := Int64.add_zero
  nsmul := nsmulRec

theorem toInt_max (a b : Int64) : (max a b).toInt = max a.toInt b.toInt := by
  rcases le_total a b with le | le
  · rw [max_eq_right le, Int.max_eq_right (Int64.le_iff_toInt_le.1 le)]
  · rw [max_eq_left le, Int.max_eq_left (Int64.le_iff_toInt_le.1 le)]

theorem merge_max_eq_or {a b : Option Int64} {v : Int64} (merged : Option.merge max a b = some v) :
    a = some v ∨ b = some v := by
  cases a with
  | none => exact .inr (Option.merge_none_left.symm.trans merged)
  | some x =>
    cases b with
    | none => exact .inl merged
    | some y =>
      obtain rfl := Option.some.inj merged
      exact (max_choice x y).imp (congrArg some ·.symm) (congrArg some ·.symm)

theorem le_merge_max {v : Int64} (b : Option Int64) :
    ∃ v', Option.merge max (some v) b = some v' ∧ v ≤ v' := by
  cases b with
  | none => exact ⟨v, rfl, le_refl v⟩
  | some y => exact ⟨max v y, rfl, le_max_left v y⟩

/-- Whether a number is that of a word. -/
def Representable (x : Int) : Prop := Int64.minValue.toInt ≤ x ∧ x ≤ Int64.maxValue.toInt

instance (x : Int) : Decidable (Representable x) := inferInstanceAs (Decidable (_ ∧ _))

theorem Representable.toInt_ofInt {x : Int} (fits : Representable x) :
    (Int64.ofInt x).toInt = x := by
  have most : Int64.maxValue.toInt + 1 = 2 ^ 63 := by decide
  exact Int64.toInt_ofInt_of_le fits.1 (most ▸ Int.lt_add_one_of_le fits.2)

/-- A sum wraps around as its parts do. -/
theorem ofInt_sum (l : List Int) : Int64.ofInt l.sum = (l.map Int64.ofInt).sum := by
  induction l with
  | nil => rfl
  | cons x l ih => rw [List.sum_cons, Int64.ofInt_add, ih, List.map_cons, List.sum_cons]

theorem toInt_sum {l : List Int64} (fits : Representable (l.map Int64.toInt).sum) :
    l.sum.toInt = (l.map Int64.toInt).sum := by
  have words : (l.map Int64.toInt).map Int64.ofInt = l := by simp [Function.comp_def]
  rw [← fits.toInt_ofInt, ofInt_sum, words]

end CallTelemetry
