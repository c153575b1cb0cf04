import CallTelemetry.Latency.Series
import CallTelemetry.Proofs.Int64
import CallTelemetry.Proofs.SortedMap

/-! Merging of histograms and of series. Merged into one histogram, others may come in any order;
an empty histogram takes over what is merged into it, its scheme apart. -/
namespace CallTelemetry.Latency

theorem Scheme.classify_counted (s : Scheme) (elapsed : Int32) (failed : Bool) :
    s.classify elapsed failed ∈ Slot.counted := by
  unfold classify
  repeat' split
  all_goals decide

namespace Histogram

/-- Of one scheme, and with a maximum that counting can reach. -/
def Fits (scheme : Scheme) (h : Histogram) : Prop := h.scheme = scheme ∧ 0 ≤ h.max

theorem fits_empty (scheme : Scheme) : (empty scheme).Fits scheme := ⟨rfl, le_refl 0⟩

theorem scheme_add (h : Histogram) (slot : Slot) (value : Int64) :
    (h.add slot value).scheme = h.scheme := by
  cases slot <;> rfl

theorem fits_add {scheme : Scheme} {h : Histogram} (fits : h.Fits scheme) (slot : Slot)
    (value : Int64) : (h.add slot value).Fits scheme := by
  obtain ⟨same, bound⟩ := fits
  cases slot
  case max => exact ⟨same, le_max_of_le_left bound⟩
  all_goals exact ⟨same, bound⟩

theorem fits_merge {scheme : Scheme} {h : Histogram} (fits : h.Fits scheme) (other : Histogram) :
    (h.merge other).Fits scheme :=
  ⟨fits.1, le_max_of_le_left fits.2⟩

theorem merge_right_comm (h a b : Histogram) : (h.merge a).merge b = (h.merge b).merge a := by
  simp only [merge, add_right_comm, max_right_comm]

theorem empty_merge {scheme : Scheme} {h : Histogram} (fits : h.Fits scheme) :
    (empty scheme).merge h = h := by
  obtain ⟨rfl, bound⟩ := fits
  simp [merge, empty, max_eq_right bound]

/-- Merging what counts in one slot is counting it. -/
theorem merge_add {scheme : Scheme} {h : Histogram} (fits : h.Fits scheme) (slot : Slot)
    (value : Int64) : h.merge ((empty scheme).add slot value) = h.add slot value := by
  have bound := fits.2
  cases slot
  case max => simp [merge, add, empty, ← max_assoc, bound]
  all_goals simp [merge, add, empty, bound]

end Histogram

namespace Series

/-- Of one scheme, as are all of its histograms. -/
structure Fits (scheme : Scheme) (s : Series) : Prop where
  same : s.scheme = scheme
  slots (time : Int) (h : Histogram) : s.slots.get? time = some h → h.Fits scheme

theorem fits_empty (scheme : Scheme) : (empty scheme).Fits scheme :=
  ⟨rfl, fun _ _ found => by simp [empty] at found⟩

theorem fits_getD {scheme : Scheme} {s : Series} (fits : s.Fits scheme) (time : Int) :
    (s.slots.getD time (.empty s.scheme)).Fits scheme := by
  cases held : s.slots.get? time with
  | none => simpa [SortedMap.getD, held, fits.same] using Histogram.fits_empty scheme
  | some h => simpa [SortedMap.getD, held] using fits.slots time h held

theorem fits_update {scheme : Scheme} {s : Series} (fits : s.Fits scheme) (time : Int)
    {f : Histogram → Histogram} (keeps : ∀ h, h.Fits scheme → (f h).Fits scheme) :
    Fits scheme { s with slots := s.slots.update time (.empty s.scheme) f } where
  same := fits.same
  slots time' h found := by
    simp only [SortedMap.get?_update] at found
    split at found
    · obtain rfl := Option.some.inj found
      exact keeps _ (fits_getD fits time)
    · exact fits.slots time' h found

theorem fits_add {scheme : Scheme} {s : Series} (fits : s.Fits scheme) (time : Int) (slot : Slot)
    (value : Int64) : (s.add time slot value).Fits scheme :=
  fits_update fits time fun _ held => Histogram.fits_add held slot value

theorem fits_mergeAll {scheme : Scheme} {s : Series} (fits : s.Fits scheme)
    (times : List (Int × Histogram)) : (s.mergeAll times).Fits scheme := by
  induction times generalizing s with
  | nil => exact fits
  | cons e times ih => exact ih (fits_update fits e.1 fun _ held => Histogram.fits_merge held e.2)

/-- Merging what counts once is counting it. -/
theorem mergeAt_add {scheme : Scheme} {s : Series} (fits : s.Fits scheme) (time : Int) (slot : Slot)
    (value : Int64) :
    s.mergeAt time ((Histogram.empty scheme).add slot value) = s.add time slot value := by
  simp only [add, mergeAt, mk.injEq, true_and]
  apply SortedMap.update_congr
  exact Histogram.merge_add (fits_getD fits time) slot value

theorem mergeAt_comm (s : Series) (e e' : Int × Histogram) :
    (s.mergeAt e.1 e.2).mergeAt e'.1 e'.2 = (s.mergeAt e'.1 e'.2).mergeAt e.1 e.2 := by
  simp only [mergeAt, mk.injEq, true_and]
  exact SortedMap.update_comm s.slots (fun _ => rfl) fun _ h => h.merge_right_comm e.2 e'.2

/-- Histograms may be merged into a series in any order. -/
theorem mergeAll_perm (s : Series) {times times' : List (Int × Histogram)}
    (perm : times.Perm times') : s.mergeAll times = s.mergeAll times' :=
  perm.foldl_eq' (fun e _ e' _ s => mergeAt_comm s e e') s

theorem mergeAll_append (s : Series) (times times' : List (Int × Histogram)) :
    s.mergeAll (times ++ times') = (s.mergeAll times).mergeAll times' :=
  List.foldl_append

theorem scheme_mergeAll (s : Series) (times : List (Int × Histogram)) :
    (s.mergeAll times).scheme = s.scheme := by
  induction times generalizing s with
  | nil => rfl
  | cons e times ih => exact ih _

theorem slots_mergeAll (s : Series) (times : List (Int × Histogram)) :
    (s.mergeAll times).slots = times.foldl
      (fun slots e => slots.update e.1 (.empty s.scheme) (·.merge e.2)) s.slots := by
  induction times generalizing s with
  | nil => rfl
  | cons e times ih => exact ih _

theorem empty_mergeAll {scheme : Scheme} {s : Series} (fits : s.Fits scheme) :
    (empty scheme).mergeAll s.slots.entries = s := by
  have slots : ((empty scheme).mergeAll s.slots.entries).slots = s.slots := by
    refine SortedMap.ext_get? fun time => ?_
    rw [slots_mergeAll, SortedMap.get?_foldl_update Prod.fst
      (fun _ => Histogram.empty (empty scheme).scheme) (fun e h => h.merge e.2),
      SortedMap.entries_filter_key]
    cases found : s.slots.get? time with
    | none => simp [empty]
    | some h => simp [empty, Histogram.empty_merge (fits.slots time h found)]
  have same : ((empty scheme).mergeAll s.slots.entries).scheme = s.scheme := by
    rw [scheme_mergeAll, fits.same]
    rfl
  generalize (empty scheme).mergeAll s.slots.entries = merged at slots same
  cases merged
  cases s
  cases slots
  cases same
  rfl

end Series

end CallTelemetry.Latency
