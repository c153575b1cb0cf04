import CallTelemetry.Proofs.Latency.Amounts
import Mathlib.Algebra.BigOperators.Group.List.Basic
import Mathlib.Data.List.Induction

/-! Histograms as sums. Those of one scheme that counting can reach are a commutative monoid, and a
histogram is the sum of what its operations count alone, so that they may be cut into parts and put in
any order. What calls are counted to is their number, as far as a word holds it. -/
namespace CallTelemetry.Latency

namespace Scheme

/-- Whether no bound is below the one before it. -/
def Ascending (s : Scheme) : Prop := s.fast ≤ s.normal ∧ s.normal ≤ s.slow

instance (s : Scheme) : Decidable s.Ascending := inferInstanceAs (Decidable (_ ∧ _))

theorem classify_eq_error_iff (s : Scheme) (elapsed : Int32) (failed : Bool) :
    s.classify elapsed failed = .error ↔ failed = true := by
  unfold classify
  split
  next failure => exact iff_of_true rfl failure
  next answered =>
    refine iff_of_false ?_ answered
    (repeat' split) <;> nofun

/-- The slow classes are those behind the second bound. -/
theorem classify_slow_iff {s : Scheme} (ordered : s.fast ≤ s.normal) (elapsed : Int32)
    (failed : Bool) :
    (s.classify elapsed failed = .slow ∨ s.classify elapsed failed = .verySlow) ↔
      failed = false ∧ s.normal < elapsed := by
  rw [Int32.le_iff_toInt_le] at ordered
  simp only [classify, Int32.le_iff_toInt_le, Int32.lt_iff_toInt_lt]
  split
  next failure => simp [failure]
  next answered =>
    rw [Bool.not_eq_true] at answered
    split
    next fast => exact iff_of_false nofun fun slow => by omega
    next =>
    split
    next normal => exact iff_of_false nofun fun slow => by omega
    next beyond =>
      refine iff_of_true ?_ ⟨answered, Int.lt_of_not_ge beyond⟩
      split
      next => exact .inl rfl
      next => exact .inr rfl

end Scheme

/-- What is done to a histogram to count in it. A code that the scheme does not have counts nothing. -/
inductive Operation where
  | call (elapsed : Int32) (failed : Bool)
  | add (slot : Slot) (value : Int64)
  | addCode (code : Int16) (value : Int64)

/-- The slot in which an operation counts, and what it counts there. -/
def Operation.counted? (s : Scheme) : Operation → Option (Slot × Int64)
  | .call elapsed failed => some (s.classify elapsed failed, 1)
  | .add slot value => some (slot, value)
  | .addCode code value => (s.slotOfCode? code).map (·, value)

namespace Histogram

variable {scheme : Scheme} {h : Histogram}

def apply (h : Histogram) : Operation → Histogram
  | .call elapsed failed => h.addCall elapsed failed
  | .add slot value => h.add slot value
  | .addCode code value => (h.addCode? code value).getD h

/-- What operations make of an empty histogram. -/
def count (scheme : Scheme) (ops : List Operation) : Histogram := ops.foldl apply (.empty scheme)

theorem count_concat (scheme : Scheme) (ops : List Operation) (op : Operation) :
    count scheme (ops ++ [op]) = (count scheme ops).apply op :=
  List.foldl_concat ..

theorem apply_eq (h : Histogram) (op : Operation) :
    h.apply op = (op.counted? h.scheme).elim h fun c => h.add c.1 c.2 := by
  cases op with
  | call => rfl
  | add => rfl
  | addCode code value =>
    simp only [apply, addCode?, Operation.counted?]
    cases h.scheme.slotOfCode? code <;> rfl

theorem fits_apply (fits : h.Fits scheme) (op : Operation) : (h.apply op).Fits scheme := by
  rw [apply_eq]
  cases op.counted? h.scheme with
  | none => exact fits
  | some c => exact fits_add fits c.1 c.2

theorem merge_assoc (a b c : Histogram) : (a.merge b).merge c = a.merge (b.merge c) := by
  refine ext_get rfl fun slot => ?_
  simp only [get_merge, slot.join_assoc]

theorem merge_comm {a b : Histogram} (fits : a.Fits scheme) (fits' : b.Fits scheme) :
    a.merge b = b.merge a := by
  refine ext_get (fits.1.trans fits'.1.symm) fun slot => ?_
  rw [get_merge, get_merge, slot.join_comm]

theorem merge_empty (fits : h.Fits scheme) : h.merge (empty scheme) = h :=
  (merge_comm fits (fits_empty scheme)).trans (empty_merge fits)

/-- An operation adds what it counts in an empty histogram. -/
theorem apply_eq_merge (fits : h.Fits scheme) (op : Operation) :
    h.apply op = h.merge ((empty scheme).apply op) := by
  have same : (empty scheme).scheme = h.scheme := fits.1.symm
  rw [apply_eq, apply_eq (empty scheme), same]
  cases op.counted? h.scheme with
  | none => exact (merge_empty fits).symm
  | some c => exact (merge_add fits c.1 c.2).symm

/-- A histogram of a scheme that counting can reach. -/
@[ext] structure Counted (scheme : Scheme) where
  histogram : Histogram
  fits : histogram.Fits scheme

instance : Zero (Counted scheme) := ⟨⟨empty scheme, fits_empty scheme⟩⟩

instance : Add (Counted scheme) :=
  ⟨fun a b => ⟨a.histogram.merge b.histogram, fits_merge a.fits b.histogram⟩⟩

instance : AddCommMonoid (Counted scheme) where
  add_assoc a b c := Counted.ext (merge_assoc a.histogram b.histogram c.histogram)
  add_comm a b := Counted.ext (merge_comm a.fits b.fits)
  zero_add a := Counted.ext (empty_merge a.fits)
  add_zero a := Counted.ext (merge_empty a.fits)
  nsmul := nsmulRec

/-- What an operation counts alone. -/
def single (scheme : Scheme) (op : Operation) : Counted scheme :=
  ⟨(empty scheme).apply op, fits_apply (fits_empty scheme) op⟩

theorem count_eq_sum (scheme : Scheme) (ops : List Operation) :
    count scheme ops = (ops.map (single scheme)).sum.histogram := by
  induction ops using List.reverseRecOn with
  | nil => rfl
  | append_singleton ops op ih =>
    rw [count_concat, ih, apply_eq_merge (Counted.fits _), List.map_append, List.sum_append,
      List.map_singleton, List.sum_singleton]
    rfl

theorem fits_count (scheme : Scheme) (ops : List Operation) : (count scheme ops).Fits scheme := by
  rw [count_eq_sum]
  exact Counted.fits _

theorem count_append (scheme : Scheme) (ops ops' : List Operation) :
    count scheme (ops ++ ops') = (count scheme ops).merge (count scheme ops') := by
  simp only [count_eq_sum, List.map_append, List.sum_append]
  rfl

theorem count_perm (scheme : Scheme) {ops ops' : List Operation} (perm : ops.Perm ops') :
    count scheme ops = count scheme ops' := by
  rw [count_eq_sum, count_eq_sum, (perm.map _).sum_eq]

/-- What the slots of a histogram hold, counted slot by slot. -/
theorem count_slots (fits : h.Fits scheme) :
    count scheme (Slot.all.map fun slot => .add slot (h.get slot)) = h := by
  obtain ⟨rfl, bound⟩ := fits
  refine ext_get (fits_count _ _).1 fun slot => ?_
  cases slot
  case max => exact max_eq_right bound
  all_goals exact zero_add _

theorem fits_iff_counted : h.Fits scheme ↔ ∃ ops, count scheme ops = h := by
  constructor
  · exact fun fits => ⟨_, count_slots fits⟩
  · rintro ⟨ops, rfl⟩
    exact fits_count scheme ops

theorem totalCount_add (h : Histogram) {slot : Slot} (counted : slot ∈ Slot.counted) (value : Int64) :
    (h.add slot value).totalCount = h.totalCount + value := by
  cases slot
  case sum => exact absurd counted (by decide)
  case max => exact absurd counted (by decide)
  all_goals
    simp only [add, totalCount, add_left_comm, add_comm]

theorem error_add (h : Histogram) (slot : Slot) (value : Int64) :
    (h.add slot value).error = h.error + if slot = .error then value else 0 := by
  cases slot <;> simp [add]

theorem slowCount_add (h : Histogram) (slot : Slot) (value : Int64) :
    (h.add slot value).slowCount =
      h.slowCount + if slot = .slow ∨ slot = .verySlow then value else 0 := by
  cases slot <;> simp [add, slowCount, add_assoc, add_comm value]

/-- A word that every call raises by one, or leaves, is the number of the calls that raise it. -/
theorem measure_calls (measure : Histogram → Int64) {p : Int32 × Bool → Bool}
    (nothing : measure (empty scheme) = 0)
    (step : ∀ h : Histogram, h.scheme = scheme → ∀ c : Int32 × Bool,
      measure (h.addCall c.1 c.2) = measure h + if p c then 1 else 0)
    (calls : List (Int32 × Bool)) :
    measure (count scheme (calls.map fun c => .call c.1 c.2)) = .ofNat (calls.countP p) := by
  induction calls using List.reverseRecOn with
  | nil => exact nothing
  | append_singleton calls c ih =>
    have last := step _ (fits_count scheme (calls.map fun c => .call c.1 c.2)).1 c
    rw [List.map_append, List.map_singleton, count_concat, apply, last, ih, List.countP_append,
      List.countP_singleton, Int64.ofNat_add]
    split <;> rfl

/-- Operations one behind the other come to what they come to apart, merged, and in any order. What they
can come to are the histograms that merging makes a commutative monoid, with the empty one as its
identity. Of calls alone, a histogram tells how many there were, how many of them failed, and how many
were answered behind the second bound: in words, which are these numbers unless they are too large. -/
theorem counting_is_summing {s : Scheme} (ascending : s.Ascending) :
    (∀ ops ops', count s (ops ++ ops') = (count s ops).merge (count s ops')) ∧
    (∀ ops ops', ops.Perm ops' → count s ops = count s ops') ∧
    (∀ h : Histogram, h.Fits s ↔ ∃ ops, count s ops = h) ∧
    (∀ a b : Histogram, a.Fits s → b.Fits s → (a.merge b).Fits s ∧ a.merge b = b.merge a) ∧
    (∀ a b c : Histogram, (a.merge b).merge c = a.merge (b.merge c)) ∧
    (∀ h : Histogram, h.Fits s → (empty s).merge h = h ∧ h.merge (empty s) = h) ∧
    ∀ calls : List (Int32 × Bool),
      let h := count s (calls.map fun (elapsed, failed) => .call elapsed failed)
      let failed := calls.countP fun (_, failed) => failed
      let slow := calls.countP fun (elapsed, failed) => !failed && s.normal < elapsed
      (h.totalCount = .ofNat calls.length ∧ h.error = .ofNat failed ∧ h.slowCount = .ofNat slow) ∧
      (calls.length < 2 ^ 63 → h.totalCount.toInt = calls.length ∧ h.error.toInt = failed ∧
        h.slowCount.toInt = slow) := by
  refine ⟨count_append s, fun _ _ => count_perm s, fun _ => fits_iff_counted,
    fun a b fits fits' => ⟨fits_merge fits b, merge_comm fits fits'⟩, merge_assoc,
    fun h fits => ⟨empty_merge fits, merge_empty fits⟩, ?_⟩
  intro calls h failed slow
  have total : h.totalCount = .ofNat calls.length := by
    rw [← List.countP_true]
    refine measure_calls totalCount rfl (fun h same c => ?_) calls
    exact h.totalCount_add (Scheme.classify_counted _ _ _) 1
  have errors : h.error = .ofNat failed := by
    refine measure_calls error rfl (fun h same c => ?_) calls
    rw [addCall, error_add]
    simp only [Scheme.classify_eq_error_iff]
  have slows : h.slowCount = .ofNat slow := by
    refine measure_calls slowCount rfl (fun h same c => ?_) calls
    rw [addCall, slowCount_add, same]
    simp only [Scheme.classify_slow_iff ascending.1, Bool.and_eq_true, Bool.not_eq_true',
      decide_eq_true_eq]
  refine ⟨⟨total, errors, slows⟩, fun few => ?_⟩
  rw [total, errors, slows]
  exact ⟨Int64.toInt_ofNat_of_lt few,
    Int64.toInt_ofNat_of_lt (Nat.lt_of_le_of_lt List.countP_le_length few),
    Int64.toInt_ofNat_of_lt (Nat.lt_of_le_of_lt List.countP_le_length few)⟩

theorem counting_is_summing_standard :
    let early : List Operation := [.call (-5) false, .addCode 3000 2, .addCode 77 9, .add .max 90]
    let late : List Operation := [.call 7000 false, .add .sum (-4), .add .max 40, .call 80 true]
    let calls : List (Int32 × Bool) := [(-5, false), (3001, false), (7000, true), (7000, false)]
    let whole := count .standard (calls.map fun (elapsed, failed) => .call elapsed failed)
    Scheme.standard.Ascending ∧ (early ++ late).Perm (late ++ early) ∧
      (count .standard early).Fits .standard ∧ (count .standard late).Fits .standard ∧
      count .standard (early ++ late) = (count .standard early).merge (count .standard late) ∧
      count .standard (early ++ late) = count .standard (late ++ early) ∧
      count .standard (early ++ late) = ⟨.standard, 1, 2, 0, 1, 1, -4, 90⟩ ∧
      (count .standard early).merge (count .standard late) =
        (count .standard late).merge (count .standard early) ∧
      (empty .standard).merge (count .standard early) = count .standard early ∧
      calls.length < 2 ^ 63 ∧ whole.totalCount.toInt = 4 ∧ whole.error.toInt = 1 ∧
      whole.slowCount.toInt = 2 := by
  intro early late calls whole
  have ascending : Scheme.standard.Ascending := by decide
  obtain ⟨append, perm, reached, commutes, -, identity, counts⟩ := counting_is_summing ascending
  have swapped : (early ++ late).Perm (late ++ early) := List.perm_append_comm
  have fits := (reached (count .standard early)).2 ⟨early, rfl⟩
  have fits' := (reached (count .standard late)).2 ⟨late, rfl⟩
  have few : calls.length < 2 ^ 63 := by decide
  obtain ⟨total, failed, slow⟩ := (counts calls).2 few
  exact ⟨ascending, swapped, fits, fits', append early late, perm _ _ swapped, by decide,
    (commutes _ _ fits fits').2, (identity _ fits).1, few, total.trans (by decide),
    failed.trans (by decide), slow.trans (by decide)⟩

end Histogram

end CallTelemetry.Latency
