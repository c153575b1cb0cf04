import Mathlib.Data.List.Fold
import CallTelemetry.Proofs.Topology.Counting

/-! What merged histograms hold, slot by slot. However histograms are grouped before they are merged,
by time or by whatever else, the groups come together to what the histograms come to. -/
namespace CallTelemetry.Latency

namespace Slot

variable {ν : Type} [AddCommMonoid ν] [LinearOrder ν]

theorem amount_single (slot : Slot) (values : List ν) :
    slot.amount [slot.amount values] = slot.amount values := by
  rw [amount_cons, amount_nil, join_comm, join_amount]

/-- Values may be taken together list by list first. -/
theorem amount_flatMap (slot : Slot) (f : α → List ν) (l : List α) :
    slot.amount (l.flatMap f) = slot.amount (l.map fun a => slot.amount (f a)) := by
  induction l with
  | nil => rfl
  | cons a l ih => rw [List.flatMap_cons, amount_append, ih, List.map_cons, amount_cons]

end Slot

namespace Histogram

@[simp] theorem get_empty (scheme : Scheme) (slot : Slot) : (empty scheme).get slot = 0 := by
  cases slot <;> rfl

theorem get_merge (h other : Histogram) (slot : Slot) :
    (h.merge other).get slot = slot.join (h.get slot) (other.get slot) := by
  cases slot <;> rfl

/-- A histogram as one of another scheme. -/
def classed (scheme : Scheme) (h : Histogram) : Histogram := { h with scheme }

@[simp] theorem get_classed (scheme : Scheme) (h : Histogram) (slot : Slot) :
    (h.classed scheme).get slot = h.get slot := by
  cases slot <;> rfl

/-- Histograms merged into one. -/
def merged (scheme : Scheme) (hs : List Histogram) : Histogram := hs.foldl merge (.empty scheme)

theorem get_merged (scheme : Scheme) (hs : List Histogram) (slot : Slot) :
    (merged scheme hs).get slot = slot.amount (hs.map (·.get slot)) := by
  have slots (h : Histogram) :
      (hs.foldl merge h).get slot = (hs.map (·.get slot)).foldl slot.join (h.get slot) := by
    induction hs generalizing h with
    | nil => rfl
    | cons other hs ih => rw [List.foldl_cons, ih, get_merge, List.map_cons, List.foldl_cons]
  have associative : Std.Associative (slot.join : Int64 → Int64 → Int64) := ⟨slot.join_assoc⟩
  have commutative : Std.Commutative (slot.join : Int64 → Int64 → Int64) := ⟨slot.join_comm⟩
  rw [merged, slots, get_empty, List.foldl_eq_foldr, Slot.amount]

theorem fits_merged (scheme : Scheme) (hs : List Histogram) : (merged scheme hs).Fits scheme := by
  have general (h : Histogram) (fits : h.Fits scheme) : (hs.foldl merge h).Fits scheme := by
    induction hs generalizing h with
    | nil => exact fits
    | cons other hs ih => exact ih _ (fits_merge fits other)
  exact general _ (fits_empty scheme)

theorem scheme_merged (scheme : Scheme) (hs : List Histogram) :
    (merged scheme hs).scheme = scheme :=
  (fits_merged scheme hs).1

/-- A measure that merging adds up. -/
structure Additive (f : Histogram → Int64) : Prop where
  empty (scheme : Scheme) : f (.empty scheme) = 0
  merge (h other : Histogram) : f (h.merge other) = f h + f other

theorem additive_totalCount : Additive totalCount where
  empty _ := rfl
  merge h other := by simp only [totalCount, Histogram.merge, add_assoc, add_left_comm]

theorem additive_slowCount : Additive slowCount where
  empty _ := rfl
  merge h other := by simp only [slowCount, Histogram.merge, add_assoc, add_left_comm]

theorem additive_error : Additive error := ⟨fun _ => rfl, fun _ _ => rfl⟩

theorem Additive.merged {f : Histogram → Int64} (additive : Additive f) (scheme : Scheme)
    (hs : List Histogram) : f (merged scheme hs) = (hs.map f).sum := by
  have general (h : Histogram) : f (hs.foldl Histogram.merge h) = f h + (hs.map f).sum := by
    induction hs generalizing h with
    | nil => exact (add_zero _).symm
    | cons other hs ih =>
      rw [List.foldl_cons, ih, additive.merge, List.map_cons, List.sum_cons, add_assoc]
  rw [Histogram.merged, general, additive.empty, zero_add]

section

variable {κ γ : Type} [DecidableEq κ] [Ord κ] [Std.TransOrd κ] [Std.LawfulEqOrd κ] (scheme : Scheme)
  (key : γ → κ) (part : γ → Histogram) (l : List γ)

/-- The histograms of elements, merged key by key. -/
def grouped : SortedMap κ Histogram :=
  l.foldl (fun m e => m.update (key e) (.empty scheme) fun h => h.merge (part e)) .empty

theorem get?_grouped (k : κ) : (grouped scheme key part l).get? k =
    if (l.filter fun e => k = key e) = [] then none
    else some (merged scheme ((l.filter fun e => k = key e).map part)) := by
  rw [merged, List.foldl_map]
  exact SortedMap.get?_ofUpdates key (fun _ => empty scheme) (fun e h => h.merge (part e)) l k

theorem mem_keys_grouped {k : κ} : k ∈ (grouped scheme key part l).keys ↔ ∃ e ∈ l, key e = k := by
  rw [SortedMap.mem_keys_iff, get?_grouped]
  constructor
  · intro present
    obtain ⟨e, member⟩ := List.exists_mem_of_ne_nil _ fun none => present (if_pos none)
    obtain ⟨inside, same⟩ := List.mem_filter.1 member
    exact ⟨e, inside, (of_decide_eq_true same).symm⟩
  · rintro ⟨e, member, rfl⟩
    rw [if_neg (List.ne_nil_of_mem (List.mem_filter.2 ⟨member, decide_eq_true rfl⟩))]
    exact Option.some_ne_none _

/-- The groups come together to what the elements come to. -/
theorem amount_grouped (slot : Slot) :
    slot.amount ((grouped scheme key part l).values.map (·.get slot)) =
      slot.amount (l.map fun e => (part e).get slot) := by
  let group (k : κ) : List γ := l.filter fun e => k = key e
  have own (k : κ) : (((l.map fun e => (key e, (part e).get slot)).filter fun e => e.1 = k).map
      (·.2)) = (group k).map fun e => (part e).get slot := by
    rw [List.filter_map, List.map_map]
    refine congrArg _ (List.filter_congr fun e _ => ?_)
    simp [eq_comm]
  have told (k : κ) : (merged scheme ((group k).map part)).get slot =
      slot.amount ((group k).map fun e => (part e).get slot) := by
    rw [get_merged, List.map_map]
    rfl
  have groups : slot.amount (((grouped scheme key part l).entries.map
      fun e => (e.1, e.2.get slot)).map (·.2)) =
        slot.amount ((l.map fun e => (key e, (part e).get slot)).map (·.2)) := by
    refine slot.amount_of_groups ?_ _ (fun e member => ?_) fun e member absent => ?_
    · exact List.pairwise_map.2 ((grouped scheme key part l).ascending.imp SortedMap.key_ne_of_lt)
    · obtain ⟨⟨k, h⟩, inside, rfl⟩ := List.mem_map.1 member
      have found := SortedMap.mem_entries_iff.1 inside
      rw [get?_grouped] at found
      split at found
      · cases found
      · obtain rfl := Option.some.inj found
        rw [own, told, slot.amount_single]
    · obtain ⟨e, inside, rfl⟩ := List.mem_map.1 member
      have some_ : group (key e) ≠ [] :=
        List.ne_nil_of_mem (List.mem_filter.2 ⟨inside, decide_eq_true rfl⟩)
      have found := get?_grouped scheme key part l (key e)
      rw [if_neg some_] at found
      have entry := List.mem_map_of_mem (f := fun e => (e.1, e.2.get slot))
        (SortedMap.mem_entries_iff.2 found)
      exact (absent _ entry rfl).elim
  simpa only [SortedMap.values, List.map_map, Function.comp_def] using groups

end

end Histogram

namespace Series

/-- What a series holds at a time; a time that is not there holds nothing. -/
def get (s : Series) (time : Int) (slot : Slot) : Int64 :=
  ((s.slots.get? time).map (·.get slot)).getD 0

theorem slots_mergeAll_empty (scheme : Scheme) (times : List (Int × Histogram)) :
    ((empty scheme).mergeAll times).slots = Histogram.grouped scheme (·.1) (·.2) times :=
  slots_mergeAll _ _

theorem get_mergeAll (scheme : Scheme) (times : List (Int × Histogram)) (time : Int) (slot : Slot) :
    ((empty scheme).mergeAll times).get time slot =
      slot.amount ((times.filter fun e => time = e.1).map (·.2.get slot)) := by
  rw [get, slots_mergeAll_empty, Histogram.get?_grouped]
  split
  next none =>
    rw [none]
    rfl
  next =>
    rw [Option.map_some, Option.getD_some, Histogram.get_merged, List.map_map]
    rfl

theorem times_ascending (s : Series) : s.slots.keys.Pairwise (· < ·) :=
  List.pairwise_map.2 (s.slots.ascending.imp fun before => Int.compare_eq_lt.1 before)

theorem get_total (s : Series) (slot : Slot) :
    s.total.get slot = slot.amount (s.slots.values.map (·.get slot)) :=
  Histogram.get_merged _ _ slot

theorem get_total_entries (s : Series) (slot : Slot) :
    slot.amount (s.slots.entries.map (·.2.get slot)) = s.total.get slot := by
  rw [get_total, SortedMap.values, List.map_map]
  rfl

theorem fits_total (s : Series) : s.total.Fits s.scheme := Histogram.fits_merged _ _

theorem scheme_total (s : Series) : s.total.scheme = s.scheme := s.fits_total.1

theorem additive_total {f : Histogram → Int64} (additive : Histogram.Additive f) (s : Series) :
    f s.total = (s.slots.values.map f).sum :=
  additive.merged s.scheme s.slots.values

theorem totalCount_eq (s : Series) : s.totalCount = s.total.totalCount := by
  rw [additive_total Histogram.additive_totalCount, List.sum, List.foldr_map]
  rfl

/-- All times of a merged series come together to what the histograms come to. -/
theorem get_total_mergeAll (scheme : Scheme) (times : List (Int × Histogram)) (slot : Slot) :
    ((empty scheme).mergeAll times).total.get slot = slot.amount (times.map (·.2.get slot)) := by
  rw [get_total, slots_mergeAll_empty, Histogram.amount_grouped]

theorem total_mergeAt {scheme : Scheme} {s : Series} (fits : s.Fits scheme) (time : Int)
    (h : Histogram) : (s.mergeAt time h).total = s.total.merge h := by
  have whole : s.mergeAt time h = (empty scheme).mergeAll ((time, h) :: s.slots.entries) := by
    rw [(empty scheme).mergeAll_perm (List.perm_append_singleton _ _).symm, mergeAll_append,
      empty_mergeAll fits]
    rfl
  refine Histogram.ext_get ?_ fun slot => ?_
  · rw [scheme_total]
    exact s.scheme_total.symm
  · rw [whole, get_total_mergeAll, List.map_cons, Slot.amount_cons, get_total_entries,
      Histogram.get_merge, Slot.join_comm]

theorem foldl_mergeAt (s : Series) (time : γ → Int) (part : γ → Histogram) (l : List γ) :
    l.foldl (fun s e => s.mergeAt (time e) (part e)) s =
      s.mergeAll (l.map fun e => (time e, part e)) := by
  rw [mergeAll, List.foldl_map]

/-- Series that are merged one after another are merged time by time. -/
theorem foldl_merge (s : Series) (l : List Series) :
    l.foldl merge s = s.mergeAll (l.flatMap (·.slots.entries)) := by
  rw [mergeAll, List.foldl_flatMap]
  rfl

end Series

end CallTelemetry.Latency
