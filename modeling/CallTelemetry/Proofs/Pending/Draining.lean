import CallTelemetry.Pending.Counters
import CallTelemetry.Pending.Maxima
import CallTelemetry.Proofs.SortedMap

/-! Filling and draining the pending cells. A drain that nothing interrupts empties the container and
answers what it held; for counters that leaves out the cells that hold zero. -/
namespace CallTelemetry.Pending

namespace Counters

/-- What waits to be added to a cell. -/
def held (c : Counters) (cell : Cell) : Int64 := c.cells.getD cell 0

theorem add_accepted {limit : Option Nat} {c c' : Counters} {cell : Cell} {delta : Int64}
    (accepted : c.add limit cell delta = (true, c')) (x : Cell) :
    c'.cells.get? x = if x = cell then some (c.held cell + delta) else c.cells.get? x := by
  unfold add at accepted
  split at accepted
  next value found =>
    cases accepted
    simp [SortedMap.get?_insert, held, SortedMap.getD, found]
  next absent =>
    split at accepted
    next =>
      cases accepted
      simp [SortedMap.get?_insert, held, SortedMap.getD, absent]
    next => cases accepted

theorem held_of_accepted {limit : Option Nat} {c c' : Counters} {cell : Cell} {delta : Int64}
    (accepted : c.add limit cell delta = (true, c')) (x : Cell) :
    c'.held x = c.held x + if x = cell then delta else 0 := by
  rw [held, SortedMap.getD, add_accepted accepted]
  by_cases same : x = cell
  · simp [same]
  · simp [same, held, SortedMap.getD]

theorem add_refused {limit : Option Nat} {c c' : Counters} {cell : Cell} {delta : Int64}
    (refused : c.add limit cell delta = (false, c')) : c' = c := by
  unfold add at refused
  split at refused
  next => cases refused
  next =>
    split at refused
    next => cases refused
    next =>
      cases refused
      rfl

theorem get?_add_of_ne (limit : Option Nat) (c : Counters) {cell x : Cell} (delta : Int64)
    (apart : x ≠ cell) : (c.add limit cell delta).2.cells.get? x = c.cells.get? x := by
  cases result : c.add limit cell delta with
  | mk accepted after =>
    cases accepted with
    | true => simp [add_accepted result, apart]
    | false => rw [add_refused result]

theorem take_snd (c : Counters) (cell x : Cell) :
    (c.take cell).2.cells.get? x =
      if x = cell then (c.cells.get? x).map fun _ => 0 else c.cells.get? x := by
  unfold take
  split
  next value found =>
    simp only [SortedMap.get?_insert]
    split <;> simp_all
  next absent => split <;> simp_all

theorem take_fst (c : Counters) (cell : Cell) : (c.take cell).1 = c.held cell := by
  unfold take held SortedMap.getD
  split <;> simp_all

theorem get?_takeAll (l : List Cell) (c : Counters) (x : Cell) :
    (takeAll l c).2.cells.get? x =
      if x ∈ l then (c.cells.get? x).map fun _ => 0 else c.cells.get? x := by
  induction l generalizing c with
  | nil => simp [takeAll]
  | cons cell l ih =>
    simp only [takeAll, ih, take_snd, List.mem_cons]
    by_cases same : x = cell
    · cases found : c.cells.get? x <;> simp_all
    · simp [same]

theorem takeAll_taken {l : List (Cell × Int64)} (nodup : (l.map (·.1)).Nodup) (c : Counters)
    (holds : ∀ e ∈ l, c.cells.get? e.1 = some e.2) :
    (takeAll (l.map (·.1)) c).1 = l.filter (·.2 ≠ 0) := by
  induction l generalizing c with
  | nil => rfl
  | cons e l ih =>
    obtain ⟨new, rest⟩ := List.nodup_cons.1 nodup
    have later : ∀ e' ∈ l, (c.take e.1).2.cells.get? e'.1 = some e'.2 := by
      intro e' member
      have apart : e'.1 ≠ e.1 := fun h => new (List.mem_map.2 ⟨e', member, h⟩)
      rw [take_snd, if_neg apart, holds e' (List.mem_cons_of_mem _ member)]
    have value : c.held e.1 = e.2 := by simp [held, SortedMap.getD, holds e List.mem_cons_self]
    simp only [List.map_cons, takeAll, take_fst, ih rest _ later, value, List.filter_cons]
    by_cases zero : e.2 = 0 <;> simp only [zero, ↓reduceIte, ne_eq, not_true_eq_false,
      not_false_eq_true, decide_true, decide_false, Bool.false_eq_true]

theorem get?_sweep (c : Counters) (cell x : Cell) :
    (c.sweep cell).cells.get? x =
      if x = cell ∧ c.cells.get? x = some 0 then none else c.cells.get? x := by
  unfold sweep
  by_cases same : x = cell
  · subst same
    split <;> simp_all [SortedMap.get?_erase]
  · split <;> simp_all [SortedMap.get?_erase]

theorem get?_sweepAll (l : List Cell) (c : Counters) (x : Cell) :
    (l.foldl sweep c).cells.get? x =
      if x ∈ l ∧ c.cells.get? x = some 0 then none else c.cells.get? x := by
  induction l generalizing c with
  | nil => simp
  | cons cell l ih =>
    rw [List.foldl_cons, ih, get?_sweep]
    by_cases same : x = cell
    · by_cases zero : c.cells.get? x = some 0 <;> simp_all
    · simp [same]

theorem drain_taken (c : Counters) : c.drain.1 = c.cells.entries.filter (·.2 ≠ 0) :=
  takeAll_taken c.cells.keys_nodup c fun _ member => SortedMap.mem_entries_iff.1 member

theorem drain_rest (c : Counters) : c.drain.2.cells = .empty := by
  refine SortedMap.ext_get? fun x => ?_
  show ((c.cells.keys.foldl sweep (takeAll c.cells.keys c).2).cells.get? x) = none
  rw [get?_sweepAll, get?_takeAll]
  by_cases listed : x ∈ c.cells.keys
  · have present := SortedMap.mem_keys_iff.1 listed
    cases found : c.cells.get? x <;> simp_all
  · have absent : c.cells.get? x = none := by
      by_cases h : c.cells.get? x = none
      · exact h
      · exact absurd (SortedMap.mem_keys_iff.2 h) listed
    simp [listed, absent]

end Counters

namespace Maxima

theorem raise_accepted {limit : Option Nat} {m m' : Maxima} {cell : Cell} {value : Int64}
    (accepted : m.raise limit cell value = (true, m')) (x : Cell) :
    m'.cells.get? x =
      if x = cell then some ((m.cells.get? cell).elim value (max · value))
      else m.cells.get? x := by
  unfold raise at accepted
  split at accepted
  next held found =>
    cases accepted
    simp [SortedMap.get?_insert, found]
  next absent =>
    split at accepted
    next =>
      cases accepted
      simp [SortedMap.get?_insert, absent]
    next => cases accepted

theorem raise_refused {limit : Option Nat} {m m' : Maxima} {cell : Cell} {value : Int64}
    (refused : m.raise limit cell value = (false, m')) : m' = m := by
  unfold raise at refused
  split at refused
  next => cases refused
  next =>
    split at refused
    next => cases refused
    next =>
      cases refused
      rfl

theorem get?_raise_of_ne (limit : Option Nat) (m : Maxima) {cell x : Cell} (value : Int64)
    (apart : x ≠ cell) : (m.raise limit cell value).2.cells.get? x = m.cells.get? x := by
  cases result : m.raise limit cell value with
  | mk accepted after =>
    cases accepted with
    | true => simp [raise_accepted result, apart]
    | false => rw [raise_refused result]

theorem take_snd (m : Maxima) (cell x : Cell) :
    (m.take cell).2.cells.get? x = if x = cell then none else m.cells.get? x := by
  unfold take
  split
  next value found => simp [SortedMap.get?_erase]
  next absent => split <;> simp_all

theorem take_fst (m : Maxima) (cell : Cell) : (m.take cell).1 = m.cells.get? cell := by
  unfold take
  split <;> simp_all

theorem get?_takeAll (l : List Cell) (m : Maxima) (x : Cell) :
    (takeAll l m).2.cells.get? x = if x ∈ l then none else m.cells.get? x := by
  induction l generalizing m with
  | nil => simp [takeAll]
  | cons cell l ih =>
    simp only [takeAll, ih, take_snd, List.mem_cons]
    by_cases same : x = cell <;> simp [same]

theorem takeAll_taken {l : List (Cell × Int64)} (nodup : (l.map (·.1)).Nodup) (m : Maxima)
    (held : ∀ e ∈ l, m.cells.get? e.1 = some e.2) : (takeAll (l.map (·.1)) m).1 = l := by
  induction l generalizing m with
  | nil => rfl
  | cons e l ih =>
    obtain ⟨new, rest⟩ := List.nodup_cons.1 nodup
    have later : ∀ e' ∈ l, (m.take e.1).2.cells.get? e'.1 = some e'.2 := by
      intro e' member
      have apart : e'.1 ≠ e.1 := fun h => new (List.mem_map.2 ⟨e', member, h⟩)
      rw [take_snd, if_neg apart, held e' (List.mem_cons_of_mem _ member)]
    simp only [List.map_cons, takeAll, take_fst, ih rest _ later, held e List.mem_cons_self]
    rfl

theorem drain_taken (m : Maxima) : m.drain.1 = m.cells.entries :=
  takeAll_taken m.cells.keys_nodup m fun _ member => SortedMap.mem_entries_iff.1 member

theorem drain_rest (m : Maxima) : m.drain.2.cells = .empty := by
  refine SortedMap.ext_get? fun x => ?_
  rw [drain, get?_takeAll, SortedMap.get?_empty]
  by_cases listed : x ∈ m.cells.keys
  · rw [if_pos listed]
  · rw [if_neg listed]
    by_cases h : m.cells.get? x = none
    · exact h
    · exact absurd (SortedMap.mem_keys_iff.2 h) listed

end Maxima

end CallTelemetry.Pending
