import CallTelemetry.Alarm.Check
import CallTelemetry.Proofs.Topology.Breakdowns

/-! The calls that alarms are judged by. A rule counts those of all agents, or those of all links to
the callee that its notes name, and is raised by their number, or by how many in a hundred of them are
slow or failed. They are counted in words, which are their numbers unless these are too large. -/
namespace CallTelemetry

open Latency CallTelemetry.Topology

/-- Whether a histogram has no negative counts. -/
def Latency.Histogram.Counts (h : Histogram) : Prop := ∀ slot ∈ Slot.counted, 0 ≤ h.get slot

instance (h : Histogram) : Decidable h.Counts :=
  inferInstanceAs (Decidable (∀ slot ∈ Slot.counted, 0 ≤ h.get slot))

namespace Alarm

namespace Measure

/-- What a measure counts of the calls of a histogram. -/
def part : Measure → Histogram → Int64
  | slowCount | slowRate => Histogram.slowCount
  | errorCount | errorRate => Histogram.error
  | totalCount => Histogram.totalCount

/-- The slots whose calls a measure counts. -/
def slots : Measure → List Slot
  | slowCount | slowRate => [.slow, .verySlow]
  | errorCount | errorRate => [.error]
  | totalCount => Slot.counted

/-- The number of calls that a measure counts, which does not wrap around. -/
def number (m : Measure) (h : Histogram) : Int := (m.slots.map fun slot => (h.get slot).toInt).sum

theorem ofInt_number (m : Measure) (h : Histogram) : Int64.ofInt (m.number h) = m.part h := by
  rw [number, ofInt_sum, List.map_map]
  simp only [Function.comp_def, Int64.ofInt_toInt]
  cases m <;> simp [slots, part, Slot.counted, Histogram.get, Histogram.slowCount,
    Histogram.totalCount, add_assoc]

theorem number_bounds {h : Histogram} (counts : h.Counts) (m : Measure) :
    0 ≤ m.number h ∧ m.number h ≤ totalCount.number h := by
  have nonneg (slot : Slot) (counted : slot ∈ Slot.counted) : 0 ≤ (h.get slot).toInt :=
    Int64.le_iff_toInt_le.1 (counts slot counted)
  have fast := nonneg .fast (by decide)
  have normal := nonneg .normal (by decide)
  have slow := nonneg .slow (by decide)
  have verySlow := nonneg .verySlow (by decide)
  have error := nonneg .error (by decide)
  cases m <;> simp only [number, slots, Slot.counted, List.map_cons, List.map_nil, List.sum_cons,
    List.sum_nil] <;> omega

/-- What a measure counts of the calls of all histograms, which does not wrap around. -/
def numberOf (m : Measure) (hs : List Histogram) : Int := (hs.map m.number).sum

theorem ofInt_numberOf (m : Measure) (hs : List Histogram) :
    Int64.ofInt (m.numberOf hs) = (hs.map m.part).sum := by
  rw [numberOf, ofInt_sum, List.map_map]
  exact congrArg _ (List.map_congr_left fun h _ => m.ofInt_number h)

theorem numberOf_bounds {hs : List Histogram} (counts : ∀ h ∈ hs, h.Counts) (m : Measure) :
    0 ≤ m.numberOf hs ∧ m.numberOf hs ≤ totalCount.numberOf hs := by
  induction hs with
  | nil => exact ⟨le_refl 0, le_refl 0⟩
  | cons h hs ih =>
    have first := number_bounds (counts h List.mem_cons_self) m
    have rest := ih fun h' member => counts h' (List.mem_cons_of_mem h member)
    simp only [numberOf, List.map_cons, List.sum_cons] at rest ⊢
    omega

end Measure

namespace CallCount

theorem foldl_add (hs : List Histogram) (c : CallCount) : hs.foldl add c =
    ⟨c.total + (hs.map Histogram.totalCount).sum, c.slow + (hs.map Histogram.slowCount).sum,
      c.error + (hs.map Histogram.error).sum⟩ := by
  induction hs generalizing c with
  | nil => simp
  | cons h hs ih =>
    rw [List.foldl_cons, ih]
    simp only [add, List.map_cons, List.sum_cons, add_assoc]

/-- The calls of a link are those of its agents and hosts at all times. -/
theorem add_histogram (c : CallCount) (k : Link) : c.add k.histogram = k.parts.foldl add c := by
  rw [foldl_add, add, k.additive_histogram Histogram.additive_totalCount,
    k.additive_histogram Histogram.additive_slowCount,
    k.additive_histogram Histogram.additive_error]

/-- Histograms are counted to the words of their numbers. -/
theorem value_of_count {m : Measure} (count : m.isRate = false) (hs : List Histogram) :
    (hs.foldl add .zero).value m = Int64.ofInt (m.numberOf hs) := by
  rw [foldl_add, m.ofInt_numberOf]
  cases m with
  | slowRate => cases count
  | errorRate => cases count
  | slowCount => exact zero_add _
  | errorCount => exact zero_add _
  | totalCount => exact zero_add _

theorem value_of_rate {m : Measure} (rate : m.isRate = true) (hs : List Histogram) :
    (hs.foldl add .zero).value m =
      if Int64.ofInt (Measure.totalCount.numberOf hs) = 0 then 0
      else Int64.ofInt (m.numberOf hs) * 100 / Int64.ofInt (Measure.totalCount.numberOf hs) := by
  rw [foldl_add, Measure.ofInt_numberOf, m.ofInt_numberOf]
  simp only [zero, zero_add]
  cases m with
  | slowRate => rfl
  | errorRate => rfl
  | slowCount => cases rate
  | errorCount => cases rate
  | totalCount => cases rate

end CallCount

/-- A part of a whole lies between none and all of it, in percent, and reaches a percentage when it
does so before rounding. -/
theorem percent_bounds {part total : Int} (nonneg : 0 ≤ part) (within : part ≤ total)
    (some : total ≠ 0) (threshold : Int) :
    0 ≤ (part * 100).tdiv total ∧ (part * 100).tdiv total ≤ 100 ∧
      (threshold ≤ (part * 100).tdiv total ↔ threshold * total ≤ 100 * part) := by
  have positive : 0 < total := by omega
  rw [Int.tdiv_eq_ediv_of_nonneg (by omega), Int.mul_comm part]
  exact ⟨Int.ediv_nonneg (by omega) (by omega), Int.ediv_le_of_le_mul positive (by omega),
    Int.le_ediv_iff_mul_le positive⟩

/-- A percentage in words is that of the numbers. -/
theorem toInt_percent {part total : Int} (nonneg : 0 ≤ total) (fits : Representable total)
    (fits' : Representable (100 * part)) :
    (Int64.ofInt part * 100 / Int64.ofInt total).toInt = (part * 100).tdiv total := by
  have whole : Int64.ofInt total ≠ -1 := by
    intro minus
    have number := congrArg Int64.toInt minus
    rw [fits.toInt_ofInt, show Int64.toInt (-1) = -1 from rfl] at number
    omega
  rw [Int64.toInt_div_of_ne_right _ _ whole, ← show Int64.ofInt 100 = 100 from rfl,
    ← Int64.ofInt_mul, fits.toInt_ofInt, Int.mul_comm part, fits'.toInt_ofInt]

/-- The histograms of the calls that a checker counts, for a rule with these notes. -/
def Checker.counted (c : Checker) (notes : String) (rs : List ResponseTime) (l : Links) :
    List Histogram :=
  if c.toCallee then (l.links.filter fun k => notes = k.edge.target.name).flatMap Link.parts
  else rs.flatMap fun r => r.agents.values

/-- What there is to know of each kind. -/
def Evidence.of (rs : List ResponseTime) (l : Links) : DataKind → Evidence
  | .responseTime => ofResponses rs
  | .callerStatistics => ofLinks l

theorem watched_of (a : Alarm) (rs : List ResponseTime) (l : Links) :
    a.watched (.of rs l a.checker.kind) =
      .ok ((a.checker.counted a.rule.notes rs l).foldl CallCount.add .zero) := by
  cases callee : a.checker.toCallee with
  | false => simp [watched, Checker.kind, Checker.counted, Evidence.of, Evidence.ofResponses, callee]
  | true =>
    have grouped := SortedMap.get?_ofUpdates (fun k : Link => k.edge.target.name)
      (fun _ => CallCount.zero) (fun k c => c.add k.histogram) l.links a.rule.notes
    simp only [watched, Checker.kind, Checker.counted, Evidence.of, Evidence.ofLinks, callee,
      if_true, SortedMap.getD, grouped, List.foldl_flatMap, ← CallCount.add_histogram]
    split
    next none => rw [none]; rfl
    next => rfl

/-- An alarm that was raised, or not, by the calls of these histograms, if their numbers are those of
words. -/
structure Judged (a : Alarm) (hs : List Histogram) : Prop where
  count : a.checker.measure.isRate = false → Representable (a.checker.measure.numberOf hs) →
    ∃ value, a.value = some value ∧ value.toInt = a.checker.measure.numberOf hs ∧
      (a.detected = true ↔ a.rule.threshold.toInt ≤ a.checker.measure.numberOf hs)
  rate : a.checker.measure.isRate = true → Representable (Measure.totalCount.numberOf hs) →
    Representable (100 * a.checker.measure.numberOf hs) →
    ∃ value, a.value = some value ∧ 0 ≤ value.toInt ∧ value.toInt ≤ 100 ∧ (a.detected = true ↔
      0 < Measure.totalCount.numberOf hs ∧
        a.rule.threshold.toInt * Measure.totalCount.numberOf hs ≤
          100 * a.checker.measure.numberOf hs ∨
      Measure.totalCount.numberOf hs = 0 ∧ a.rule.threshold.toInt ≤ 0)

/-- A check keeps the rule and judges it by its calls alone. -/
theorem judged_of_check (a : Alarm) (rs : List ResponseTime) (l : Links)
    (counts : ∀ h ∈ a.checker.counted a.rule.notes rs l, h.Counts) :
    ∃ a', a.check (.of rs l a.checker.kind) = .ok a' ∧ a'.checker = a.checker ∧ a'.rule = a.rule ∧
      a'.Judged (a.checker.counted a.rule.notes rs l) := by
  unfold check
  rw [watched_of]
  refine ⟨_, rfl, rfl, rfl, fun count fits => ?_, fun rate fits fits' => ?_⟩
  · dsimp only at count fits ⊢
    rw [CallCount.value_of_count count, decide_eq_true_iff, Int64.le_iff_toInt_le]
    exact ⟨_, rfl, fits.toInt_ofInt, by rw [fits.toInt_ofInt]⟩
  · dsimp only at rate fits fits' ⊢
    obtain ⟨nonneg, within⟩ := Measure.numberOf_bounds counts a.checker.measure
    have empty : Int64.ofInt (Measure.totalCount.numberOf (a.checker.counted a.rule.notes rs l)) = 0 ↔
        Measure.totalCount.numberOf (a.checker.counted a.rule.notes rs l) = 0 := by
      rw [← Int64.toInt_inj, fits.toInt_ofInt, Int64.toInt_zero]
    rw [CallCount.value_of_rate rate, decide_eq_true_iff, Int64.le_iff_toInt_le]
    simp only [empty]
    split
    next none => exact ⟨0, rfl, le_refl 0, by decide, by simp [none]⟩
    next some =>
      obtain ⟨low, high, reached⟩ := percent_bounds nonneg within some a.rule.threshold.toInt
      rw [← toInt_percent (nonneg.trans within) fits fits'] at low high reached
      exact ⟨_, rfl, low, high, by omega⟩

end Alarm

end CallTelemetry
