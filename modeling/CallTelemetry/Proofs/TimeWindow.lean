import CallTelemetry.TimeWindow

/-! Slots of a window of time. Stepping from the first slot to the last lists the starts of all slots
of the range, as many as are counted, and each time of the range lies in the slot at its index and in
no other. The slots that a window chooses for its range are whole minutes, and not many. -/
namespace CallTelemetry

theorem TimeRange.ordered_of {first last : Int} {r : TimeRange} (made : of first last = .ok r) :
    r.first ≤ r.last := by
  unfold of at made
  split at made
  · cases made
  next ordered =>
    obtain rfl := Except.ok.inj made
    exact Int.not_lt.1 ordered

namespace TimeWindow

open Statistics

/-- Steps that end at the last time are counted from the first on. -/
theorem strides_eq {step : Int} (positive : 0 < step) (n : Nat) (time : Int) :
    strides step (time + n * step) time =
      (List.range (n + 1)).map fun (i : Nat) => time + i * step := by
  induction n generalizing time with
  | zero =>
    have beyond : ¬(0 < step ∧ time + step ≤ time + (0 : Nat) * step) := by omega
    rw [strides, if_pos (by omega), strides, if_neg beyond]
    simp
  | succ n ih =>
    have extent : time + (n + 1 : Nat) * step = time + step + n * step := by
      rw [Int.natCast_succ, Int.add_mul]
      omega
    have length : 0 ≤ (n : Int) * step := Int.mul_nonneg (Int.natCast_nonneg n) (by omega)
    rw [strides, if_pos (by omega), extent, ih, List.range_succ_eq_map (n := n + 1), List.map_cons,
      List.map_map]
    simp only [Int.natCast_zero, Int.zero_mul, Int.add_zero, List.cons.injEq, true_and]
    refine List.map_congr_left fun i _ => ?_
    simp only [Function.comp_apply, Int.natCast_succ, Int.add_mul]
    omega

/-- Whether the slots have a length and the range does not end before it begins. -/
structure Sound (w : TimeWindow) : Prop where
  minute : slotMillis ≤ w.slotSize
  ordered : w.range.first ≤ w.range.last

theorem Sound.positive {w : TimeWindow} (sound : w.Sound) : 0 < w.slotSize :=
  Int.lt_of_lt_of_le (by decide) sound.minute

theorem sound_withSlotSize {r : TimeRange} (ordered : r.first ≤ r.last) (size : Int) :
    (withSlotSize r size).Sound :=
  ⟨Int.le_max_right _ _, ordered⟩

theorem sound_ofRange {r : TimeRange} (ordered : r.first ≤ r.last) : (ofRange r).Sound :=
  sound_withSlotSize ordered _

/-- The number of a slot, counted from the time zero. -/
def number (w : TimeWindow) (time : Int) : Int := time / w.slotSize

theorem refine_eq (w : TimeWindow) (time : Int) : w.refine time = w.number time * w.slotSize := by
  have := Int.ediv_mul_add_emod time w.slotSize
  rw [refine, number]
  omega

/-- However long slots are, that of a time which is not negative begins neither before zero nor
later. -/
theorem refine_between (w : TimeWindow) {time : Int} (nonneg : 0 ≤ time) :
    0 ≤ w.refine time ∧ w.refine time ≤ time := by
  obtain ⟨n, rfl⟩ := Int.eq_ofNat_of_zero_le nonneg
  have rest : (n : Int) % w.slotSize = (n % w.slotSize.natAbs : Nat) := rfl
  have most := Nat.mod_le n w.slotSize.natAbs
  unfold refine
  omega

section

variable {w : TimeWindow} (sound : w.Sound)

include sound

theorem number_mono {time time' : Int} (before : time ≤ time') : w.number time ≤ w.number time' :=
  Int.ediv_le_ediv sound.positive before

theorem refine_le (time : Int) : w.refine time ≤ time := by
  have := Int.emod_nonneg time (Int.ne_of_gt sound.positive)
  unfold refine
  omega

theorem lt_refine_add (time : Int) : time < w.refine time + w.slotSize := by
  have := Int.emod_lt_of_pos time sound.positive
  unfold refine
  omega

theorem number_refine (time : Int) : w.number (w.refine time) = w.number time := by
  rw [refine_eq, number, Int.mul_ediv_cancel _ (Int.ne_of_gt sound.positive)]

/-- A slot start is the only one that a time can be counted under. -/
theorem refine_eq_of_inside {start time : Int} (begins : w.refine start = start)
    (after : start ≤ time) (before : time < start + w.slotSize) : start = w.refine time := by
  have same : w.number time = w.number start := by
    have whole : start = w.number start * w.slotSize := begins.symm.trans (w.refine_eq start)
    have low := number_mono sound after
    have high : w.number time < w.number start + 1 := by
      refine Int.ediv_lt_of_lt_mul sound.positive ?_
      rw [Int.add_mul]
      omega
    omega
  rw [refine_eq, same, ← refine_eq, begins]

theorem count_eq : w.count = (w.number w.range.last - w.number w.range.first + 1).toNat := by
  have whole : w.slotRange.duration =
      (w.number w.range.last - w.number w.range.first) * w.slotSize := by
    rw [TimeRange.duration, slotRange, refine_eq, refine_eq, Int.sub_mul]
  rw [count, whole, Int.mul_ediv_cancel _ (Int.ne_of_gt sound.positive)]

theorem index_eq (time : Int) :
    w.index time = (w.number time - w.number w.range.first).toNat := by
  have whole : w.refine time - w.slotRange.first =
      (w.number time - w.number w.range.first) * w.slotSize := by
    rw [slotRange, refine_eq, refine_eq, Int.sub_mul]
  rw [index, whole, Int.mul_ediv_cancel _ (Int.ne_of_gt sound.positive)]

/-- The slots are numbered without gaps, from that of the first time to that of the last. -/
theorem slots_eq : w.slots =
    (List.range w.count).map fun (i : Nat) => (w.number w.range.first + i) * w.slotSize := by
  have forward := number_mono sound sound.ordered
  obtain ⟨n, steps⟩ := Int.eq_ofNat_of_zero_le (Int.sub_nonneg_of_le forward)
  have last : w.slotRange.last = w.slotRange.first + n * w.slotSize := by
    simp only [slotRange, refine_eq, ← steps, Int.sub_mul]
    omega
  have counted : w.count = n + 1 := by
    rw [count_eq sound, steps]
    omega
  rw [slots, last, strides_eq sound.positive, counted]
  refine List.map_congr_left fun i _ => ?_
  rw [slotRange, refine_eq, Int.add_mul]

theorem length_slots : w.slots.length = w.count := by
  rw [slots_eq sound, List.length_map, List.length_range]

theorem slots_ascending : w.slots.Pairwise (· < ·) := by
  rw [slots_eq sound]
  refine List.pairwise_map.2 (List.pairwise_lt_range.imp fun before => ?_)
  exact Int.mul_lt_mul_of_pos_right (by omega) sound.positive

theorem index_lt {time : Int} (before : time ≤ w.range.last) : w.index time < w.count := by
  have forward := number_mono sound sound.ordered
  have low := number_mono sound before
  rw [index_eq sound, count_eq sound]
  omega

theorem index_mono {time time' : Int} (before : time ≤ time') : w.index time ≤ w.index time' := by
  have := number_mono sound before
  rw [index_eq sound, index_eq sound]
  omega

/-- A slot is found at the index of each of its times. -/
theorem slots_index {time : Int} (after : w.slotRange.first ≤ time) (before : time ≤ w.range.last) :
    w.slots[w.index time]? = some (w.refine time) := by
  have forward : w.number w.range.first ≤ w.number time := by
    rw [← number_refine sound w.range.first]
    exact number_mono sound after
  have position : w.number w.range.first + (w.index time : Nat) = w.number time := by
    rw [index_eq sound]
    omega
  rw [slots_eq sound, List.getElem?_map, List.getElem?_range (index_lt sound before),
    Option.map_some, position, refine_eq]

theorem refine_mem_slots {time : Int} (after : w.slotRange.first ≤ time)
    (before : time ≤ w.range.last) : w.refine time ∈ w.slots :=
  List.mem_of_getElem? (slots_index sound after before)

theorem mem_slots {start : Int} : start ∈ w.slots ↔
    w.refine start = start ∧ w.slotRange.first ≤ start ∧ start ≤ w.slotRange.last := by
  constructor
  · rw [slots_eq sound]
    intro member
    obtain ⟨i, inside, rfl⟩ := List.mem_map.1 member
    have later : w.number w.range.first + i ≤ w.number w.range.last := by
      rw [List.mem_range, count_eq sound] at inside
      omega
    have length := Int.le_of_lt sound.positive
    refine ⟨?_, ?_, ?_⟩
    · rw [refine_eq, number, Int.mul_ediv_cancel _ (Int.ne_of_gt sound.positive)]
    · rw [slotRange, refine_eq]
      exact Int.mul_le_mul_of_nonneg_right (by omega) length
    · rw [slotRange, refine_eq w w.range.last]
      exact Int.mul_le_mul_of_nonneg_right later length
  · rintro ⟨begins, after, before⟩
    rw [← begins]
    exact refine_mem_slots sound after (Int.le_trans before (refine_le sound _))

theorem index_slot_lt {start : Int} (member : start ∈ w.slots) : w.index start < w.count :=
  index_lt sound (Int.le_trans ((mem_slots sound).1 member).2.2 (refine_le sound _))

/-- Slots of whole minutes do not begin within the minute in which the range does. -/
theorem first_le_timeSlot (whole : slotMillis ∣ w.slotSize) :
    w.slotRange.first ≤ timeSlot w.range.first := by
  have before := refine_le sound w.range.first
  have minutes : slotMillis ∣ w.refine w.range.first :=
    w.refine_eq w.range.first ▸ Int.dvd_mul_of_dvd_right whole
  unfold slotRange timeSlot
  unfold slotMillis at minutes ⊢
  dsimp only
  omega

theorem head?_slots : w.slots.head? = some w.slotRange.first := by
  have zero : w.index w.range.first = 0 := by
    rw [index_eq sound]
    omega
  have first := slots_index sound (refine_le sound w.range.first) sound.ordered
  rwa [zero, ← List.head?_eq_getElem?] at first

theorem getLast?_slots : w.slots.getLast? = some w.slotRange.last := by
  have forward := number_mono sound sound.ordered
  have final : w.index w.range.last = w.slots.length - 1 := by
    rw [length_slots sound, index_eq sound, count_eq sound]
    omega
  have last := slots_index sound
    (Int.le_trans (refine_le sound w.range.first) sound.ordered) (Int.le_refl _)
  rwa [final, ← List.getLast?_eq_getElem?] at last

end

/-- A window whose slots are listed, counted and found by index alike, and part its range: each time
of it lies in one slot. -/
structure Parted (w : TimeWindow) : Prop where
  ascending : w.slots.Pairwise (· < ·)
  length : w.slots.length = w.count
  first : w.slots.head? = some w.slotRange.first
  last : w.slots.getLast? = some w.slotRange.last
  starts : ∀ start, start ∈ w.slots ↔
    w.refine start = start ∧ w.slotRange.first ≤ start ∧ start ≤ w.slotRange.last
  inside : ∀ time, w.range.first ≤ time → time ≤ w.range.last →
    w.refine time ≤ time ∧ time < w.refine time + w.slotSize
  alone : ∀ time, ∀ start ∈ w.slots, start ≤ time → time < start + w.slotSize →
    start = w.refine time
  found : ∀ time, w.range.first ≤ time → time ≤ w.range.last →
    w.slots[w.index time]? = some (w.refine time) ∧ w.index time < w.count
  monotone : ∀ time time', w.range.first ≤ time → time ≤ time' → time' ≤ w.range.last →
    w.index time ≤ w.index time'

theorem Sound.parted {w : TimeWindow} (sound : w.Sound) : w.Parted where
  ascending := slots_ascending sound
  length := length_slots sound
  first := head?_slots sound
  last := getLast?_slots sound
  starts _ := mem_slots sound
  inside time _ _ := ⟨refine_le sound time, lt_refine_add sound time⟩
  alone _ _ member := refine_eq_of_inside sound ((mem_slots sound).1 member).1
  found _ after before :=
    ⟨slots_index sound (Int.le_trans (refine_le sound _) after) before, index_lt sound before⟩
  monotone _ _ _ ordered _ := index_mono sound ordered

/-- The length that slots are given, in minutes. -/
theorem slotSize_ofRange {r : TimeRange} (ordered : r.first ≤ r.last) : ∃ minutes : Int,
    (ofRange r).slotSize = minutes * slotMillis ∧
      r.duration < maxSlots * (minutes * slotMillis) := by
  have forward : 0 ≤ r.duration := Int.sub_nonneg_of_le ordered
  simp only [ofRange, withSlotSize, slotMillis, maxSlots]
  exact ⟨max ((r.duration / 60000 + 1 + 200 - 1) / 200) 1, by omega, by omega⟩

theorem minutes_ofRange {r : TimeRange} (ordered : r.first ≤ r.last) :
    slotMillis ∣ (ofRange r).slotSize := by
  obtain ⟨minutes, size, -⟩ := slotSize_ofRange ordered
  exact size ▸ Int.dvd_mul_left minutes slotMillis

/-- A range starts in one slot and is not longer than the slots that are aimed at. -/
theorem count_ofRange {r : TimeRange} (ordered : r.first ≤ r.last) : (ofRange r).count ≤ 201 := by
  obtain ⟨minutes, size, short⟩ := slotSize_ofRange ordered
  have sound := sound_ofRange ordered
  rw [← size] at short
  have reach : (ofRange r).number r.last ≤ (ofRange r).number r.first + maxSlots := by
    have shifted : (ofRange r).number (r.first + maxSlots * (ofRange r).slotSize) =
        (ofRange r).number r.first + maxSlots :=
      Int.add_mul_ediv_right _ _ (Int.ne_of_gt sound.positive)
    rw [← shifted]
    refine number_mono sound ?_
    unfold TimeRange.duration at short
    omega
  rw [count_eq sound]
  simp only [ofRange, withSlotSize, maxSlots] at reach ⊢
  omega

/-- However a window is made, its slots part its range. Left to itself it makes them whole minutes long,
and at most one more than it aims at. -/
theorem slots_part_range {first last : Int} {r : TimeRange}
    (made : TimeRange.of first last = .ok r) : (∀ size, (withSlotSize r size).Parted) ∧
      (ofRange r).Parted ∧ slotMillis ∣ (ofRange r).slotSize ∧ (ofRange r).count ≤ 201 := by
  have ordered := TimeRange.ordered_of made
  exact ⟨fun size => (sound_withSlotSize ordered size).parted, (sound_ofRange ordered).parted,
    minutes_ofRange ordered, count_ofRange ordered⟩

/-- Two minutes on both sides of the time zero, not aligned to minutes. -/
theorem slots_part_range_aroundZero :
    let r : TimeRange := ⟨-90001, 30000⟩
    TimeRange.of (-90001) 30000 = .ok r ∧ (ofRange r).Parted ∧
      (ofRange r).slots = [-120000, -60000, 0] ∧ (ofRange r).index (-60001) = 0 := by
  intro r
  have parted := (slots_part_range (show TimeRange.of (-90001) 30000 = .ok r from rfl)).2.1
  refine ⟨rfl, parted, ?_, by decide⟩
  rw [slots_eq (sound_ofRange (by decide))]
  decide

end TimeWindow

end CallTelemetry
