import CallTelemetry.Intake.Binding

/-! Events travel with their start counted from the event before them and with their depth only
where it changes. What they were is found in the order of arrival, and the sort that follows only
moves whole events. -/
namespace CallTelemetry

/-- What a stable sort by a key makes of a list: elements of one key keep their order. -/
structure StableSort {α : Type} (key : α → Int32) (arrived sorted : List α) : Prop where
  perm : sorted.Perm arrived
  ordered : sorted.Pairwise fun a b => key a ≤ key b
  stable : ∀ k, sorted.filter (key · = k) = arrived.filter (key · = k)

theorem stableSort_mergeSort {α : Type} (key : α → Int32) (l : List α) :
    StableSort key l (l.mergeSort fun a b => decide (key a ≤ key b)) := by
  have trans (a b c : α) (first : decide (key a ≤ key b) = true)
      (second : decide (key b ≤ key c) = true) : decide (key a ≤ key c) = true := by
    simp only [decide_eq_true_eq] at first second ⊢
    exact Int32.le_trans first second
  have total (a b : α) : (decide (key a ≤ key b) || decide (key b ≤ key a)) = true := by
    simpa using Int32.le_total (key a) (key b)
  have perm := List.mergeSort_perm l fun a b => decide (key a ≤ key b)
  refine ⟨perm, ?_, ?_⟩
  · simpa using List.pairwise_mergeSort trans total l
  · intro k
    -- Elements of one key are a sorted sublist of what arrived, so the sort keeps them in order.
    have sorted : (l.filter (key · = k)).Pairwise fun a b => decide (key a ≤ key b) = true := by
      apply List.pairwise_of_forall_mem_list
      intro a first b second
      simp only [List.mem_filter, decide_eq_true_eq] at first second
      simp [first.2, second.2]
    have kept := (List.sublist_mergeSort trans total sorted List.filter_sublist).filter (key · = k)
    rw [List.filter_filter] at kept
    simp only [Bool.and_self] at kept
    exact (kept.eq_of_length (perm.filter _).length_eq.symm).symm

namespace Intake

open Trace

/-- The time from the start of the span to the last of these events. -/
def elapsed : List Wire.SpanEvent → Int
  | [] => 0
  | m :: ms => m.startElapsed.toInt + elapsed ms

/-- The depth that was named last. -/
def lastDepth (ms : List Wire.SpanEvent) : Int32 :=
  ((ms.map (·.depth)).filter (· ≠ 0)).getLastD 0

/-- The position after some messages, as it is found on the way. -/
def Position.after (p : Position) (ms : List Wire.SpanEvent) : Position :=
  ms.foldl Position.advance p

@[simp] theorem Position.after_nil (p : Position) : p.after [] = p := rfl

@[simp] theorem Position.after_cons (p : Position) (m : Wire.SpanEvent)
    (ms : List Wire.SpanEvent) : p.after (m :: ms) = (p.advance m).after ms := rfl

theorem Position.startElapsed_after (p : Position) (ms : List Wire.SpanEvent) :
    (p.after ms).startElapsed = p.startElapsed + .ofInt (elapsed ms) := by
  induction ms generalizing p with
  | nil => simp [elapsed]
  | cons m ms ih =>
    simp [ih, elapsed, advance, Int32.ofInt_add, Int32.add_assoc]

theorem Position.depth_after (p : Position) (ms : List Wire.SpanEvent) :
    (p.after ms).depth = ((ms.map (·.depth)).filter (· ≠ 0)).getLastD p.depth := by
  induction ms generalizing p with
  | nil => simp
  | cons m ms ih =>
    by_cases repeated : m.depth = 0
    · simp only [after_cons, ih, advance, repeated, List.map_cons]
      simp
    · simp only [after_cons, ih, advance, if_neg repeated, List.map_cons]
      rw [List.filter_cons_of_pos (by simpa using repeated), List.getLastD_cons]

/-- All of an event but its start and its depth comes from its own message. -/
theorem spanEvent_eq (p : Position) (m : Wire.SpanEvent) :
    spanEvent p m = { spanEvent .zero m with
      startElapsed := (p.advance m).startElapsed, depth := (p.advance m).depth } := rfl

theorem arrivedEvents_eq (p : Position) (ms : List Wire.SpanEvent) :
    arrivedEvents p ms = ms.mapIdx fun i m => spanEvent (p.after (ms.take i)) m := by
  induction ms generalizing p with
  | nil => rfl
  | cons m ms ih => simp [arrivedEvents, ih, List.mapIdx_cons]

/-- The event of a message of a list, with its start and its depth read off the list as a whole. -/
def restored (ms : List Wire.SpanEvent) (i : Nat) (m : Wire.SpanEvent) : SpanEvent :=
  { spanEvent .zero m with
    startElapsed := .ofInt (elapsed (ms.take (i + 1)))
    depth := lastDepth (ms.take (i + 1)) }

theorem spanEvent_after (ms : List Wire.SpanEvent) (i : Nat) (inside : i < ms.length) :
    spanEvent (Position.zero.after (ms.take i)) ms[i] = restored ms i ms[i] := by
  have next : (Position.zero.after (ms.take i)).advance ms[i]
      = Position.zero.after (ms.take (i + 1)) := by
    rw [List.take_succ_eq_append_getElem inside, Position.after, Position.after, List.foldl_append]
    rfl
  rw [spanEvent_eq, next, Position.startElapsed_after, Position.depth_after]
  simp [restored, Position.zero, lastDepth]

/-- Events come back in the order of their sequence, those of equal sequence as they arrived, and
each of them starts at the sum of the delays up to its own and lies at the depth that was named
last; sorting came after that. -/
theorem spanEvents_restored (ms : List Wire.SpanEvent) :
    StableSort (·.sequence) (ms.mapIdx (restored ms)) (spanEvents ms) ∧
      ∀ i m, (restored ms i m).sequence = m.sequence ∧
        StableSort (·.key) (m.tags.map fun t => ⟨t.key, tagValue t.value⟩)
          (restored ms i m).tags := by
  have arrived : arrivedEvents .zero ms = ms.mapIdx (restored ms) := by
    rw [arrivedEvents_eq]
    exact List.mapIdx_eq_mapIdx_iff.2 fun i inside => spanEvent_after ms i inside
  constructor
  · rw [← arrived]
    exact stableSort_mergeSort _ _
  · intro i m
    exact ⟨rfl, stableSort_mergeSort _ _⟩

/-- A late event is put first, with the start and the depth that it had in the order of arrival. -/
example : (spanEvents [{ sequence := 1, startElapsed := 5, depth := 2 },
      { sequence := 0, startElapsed := 7 }]).map (fun e => (e.sequence, e.startElapsed, e.depth))
    = [(0, 12, 2), (1, 5, 2)] := by
  cbv

end Intake

end CallTelemetry
