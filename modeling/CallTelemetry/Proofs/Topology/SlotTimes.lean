import CallTelemetry.Proofs.TimeWindow
import CallTelemetry.Proofs.Topology.Breakdowns
import CallTelemetry.Proofs.Topology.Query

/-! The times of what is read for a window. Rows are scanned by the minute and counted under the slots
of the window, which may be wider; as slots are whole minutes, also what the first minute has lies in
the first slot, and all times that are read are starts of slots. -/
namespace CallTelemetry

open Latency Statistics CallTelemetry.Topology

namespace Latency.Series

/-- Whether all times of a series have a property. -/
def Within (p : Int → Prop) (s : Series) : Prop := ∀ time ∈ s.slots.keys, p time

theorem within_empty (p : Int → Prop) (scheme : Scheme) : (empty scheme).Within p :=
  fun _ member => nomatch member

/-- Counting or merging at a time brings that time. -/
theorem within_update {p : Int → Prop} {s : Series} (within : s.Within p) {time : Int}
    (holds : p time) (default : Histogram) (f : Histogram → Histogram) :
    Within p { s with slots := s.slots.update time default f } := by
  intro time' member
  rcases SortedMap.mem_keys_update.1 member with rfl | member
  · exact holds
  · exact within time' member

/-- Histograms that are merged into a series bring their times. -/
theorem within_mergeAll {p : Int → Prop} {times : List (Int × Histogram)}
    (holds : ∀ e ∈ times, p e.1) (scheme : Scheme) : ((empty scheme).mergeAll times).Within p := by
  intro time member
  rw [slots_mergeAll_empty, Histogram.mem_keys_grouped] at member
  obtain ⟨e, inside, rfl⟩ := member
  exact holds e inside

end Latency.Series

/-- Whether a slot begins at a time, and the time has an index. -/
def TimeWindow.OnSlot (w : TimeWindow) (time : Int) : Prop := time ∈ w.slots ∧ w.index time < w.count

theorem TimeWindow.Sound.onSlot {w : TimeWindow} (sound : w.Sound) {time : Int}
    (member : time ∈ w.slots) : w.OnSlot time :=
  ⟨member, index_slot_lt sound member⟩

namespace Topology

/-- Whether all times of all links have a property. -/
def Links.Within (p : Int → Prop) (l : Links) : Prop :=
  SortedMap.Each (SortedMap.Each (Series.Within p)) l

theorem Tally.within_addTo {p : Int → Prop} {t : Tally} (holds : p t.time) {traffic : Traffic}
    (within : SortedMap.Each (Series.Within p) traffic) :
    SortedMap.Each (Series.Within p) (t.addTo traffic) := by
  unfold addTo
  cases t.slot? with
  | none => exact within
  | some slot =>
    exact SortedMap.Each.update within t.ends (Series.within_empty p _)
      fun _ series => Series.within_update series holds _ _

theorem Links.within_addAll {p : Int → Prop} {tallies : List Tally}
    (holds : ∀ t ∈ tallies, p t.time) : (Links.addAll .empty tallies).Within p := by
  have general (l : Links) (within : l.Within p) : (l.addAll tallies).Within p := by
    induction tallies generalizing l with
    | nil => exact within
    | cons t tallies ih =>
      refine ih (fun t' member => holds t' (List.mem_cons_of_mem t member)) _ ?_
      exact SortedMap.Each.update within t.edge SortedMap.Each.empty
        fun _ traffic => t.within_addTo (holds t List.mem_cons_self) traffic
  exact general .empty SortedMap.Each.empty

/-- Whether the times of a link have a property, whether they are taken by agent and host or
together. -/
structure Link.Within (p : Int → Prop) (k : Link) : Prop where
  series : k.series.Within p
  parts : ∀ s ∈ k.traffic.values, s.Within p

theorem Links.Within.link {p : Int → Prop} {l : Links} (within : l.Within p) {k : Link}
    (member : k ∈ l.links) : k.Within p := by
  obtain ⟨e, entry, rfl⟩ := List.mem_map.1 member
  have parts (s : Series) (held : s ∈ e.2.values) : s.Within p :=
    (within e.1 e.2 (SortedMap.mem_entries_iff.1 entry)).value held
  refine ⟨?_, parts⟩
  rw [Link.series_eq]
  refine Series.within_mergeAll (fun time inside => ?_) _
  obtain ⟨s, held, inside⟩ := List.mem_flatMap.1 inside
  exact parts s held time.1 (List.mem_map_of_mem inside)

/-- Whether the times of a node have a property, and those of its agents. -/
structure NodeHistogram.Within (p : Int → Prop) (n : NodeHistogram) : Prop where
  times : n.times.Within p
  agentTimes : SortedMap.Each (Series.Within p) n.agentTimes

theorem NodeHistogram.within_ofResponses {p : Int → Prop} {w : TimeWindow} {rs : List ResponseTime}
    (holds : ∀ r ∈ rs, p (w.refine r.time)) (detail : Detail) (a : Application) :
    (ofResponses detail a w rs).Within p := by
  cases detail with
  | simple =>
    rw [simple_eq]
    refine ⟨Series.within_mergeAll (fun e member => ?_) _, SortedMap.Each.empty⟩
    obtain ⟨r, inside, rfl⟩ := List.mem_map.1 member
    exact holds r inside
  | byAgent =>
    have parts (part : Int × String × Histogram) (member : part ∈ parts w rs) : p part.1 := by
      obtain ⟨r, inside, member⟩ := List.mem_flatMap.1 member
      obtain ⟨e, -, rfl⟩ := List.mem_map.1 member
      exact holds r inside
    rw [byAgent_eq]
    constructor
    · refine Series.within_mergeAll (fun e member => ?_) _
      obtain ⟨part, inside, rfl⟩ := List.mem_map.1 member
      exact parts part inside
    · refine List.foldlRecOn _ _ SortedMap.Each.empty fun m each part member => ?_
      exact each.update part.2.1 (Series.within_empty p _)
        fun _ series => Series.within_update series (parts part member) _ _

theorem ResponseTime.time_add (r : ResponseTime) (agent : String) (code : Int16) (count : Int64) :
    (r.add agent code count).time = r.time := by
  unfold add
  split <;> rfl

/-- Whether the times of what both sides tell of links have a property. -/
def Duplex.Within (p : Int → Prop) (d : Duplex) : Prop :=
  ∀ k ∈ d.outbound.links ++ d.inbound.links, k.Within p

theorem NodeHistogram.within_ofLinks {p : Int → Prop} {d : Duplex} (within : d.Within p)
    (a : Application) : (ofLinks a d).Within p := by
  have measured : ∀ k ∈ measuredLinks a d, k ∈ d.outbound.links ++ d.inbound.links := by
    intro k member
    simp only [measuredLinks, Duplex.preferOutbound, Links.outOf, Links.into] at member
    grind
  rw [ofLinks_eq]
  refine ⟨fun time member => ?_, SortedMap.Each.empty⟩
  obtain ⟨k, link, inside⟩ := mem_keys_allParts.1 member
  exact (within k (measured k link)).series time inside

namespace Query

/-- Whether the rows of a table have salted keys of times that are not before the first minute. -/
def Written (table : SortedMap Bytes Cells) : Prop :=
  ∀ key ∈ table.keys, ∃ (salting : Salting) (k : RowKey), 0 ≤ k.slot ∧ k.slot ≤ lastMillis ∧
    key = salting.salted k.encode

/-- Whether a minute is one of those in which a window lies. -/
def MinuteOf (w : TimeWindow) (slot : Int) : Prop :=
  timeSlot w.range.first ≤ slot ∧ slot ≤ timeSlot w.range.last

section

variable {w : TimeWindow} (nonneg : 0 ≤ w.range.first) (ordered : w.range.first ≤ w.range.last)
  (bound : w.range.last ≤ lastMillis)

include nonneg ordered bound

/-- The rows of every application can be read, and have times of the minutes that are asked for. -/
theorem rows_timed {s : Store} {t : Tables} {f : ColumnFamily}
    (written : Written (s.rows (f.tableIn t.space))) (a : Application) :
    ∃ read, rows s t f a w = .ok read ∧ ∀ r ∈ read, MinuteOf w r.1.slot := by
  by_cases short : a.name.utf8ByteSize ≤ Identifier.maxLength
  · have answered := rows_of_short short nonneg ordered bound s t f
    refine ⟨_, answered, fun r member => ?_⟩
    obtain ⟨⟨start, stop, salt, key, range, -, bytes, after, before, decoded⟩, held⟩ :=
      (mem_rows answered).1 member
    obtain ⟨salting, k, nonneg', bound', salted⟩ :=
      written r.2.key (SortedMap.mem_keys_iff.2 (by simp [held]))
    obtain ⟨-, rfl⟩ := List.cons.inj (bytes.symm.trans salted)
    rw [RowKey.range_of_short short] at range
    obtain ⟨rfl, rfl⟩ := Prod.mk.inj (Except.ok.inj range)
    rw [RowKey.slot_of_decode nonneg' bound' decoded]
    exact ((RowKey.between_range nonneg ordered bound nonneg' bound').1 ⟨after, before⟩).2
  · exact ⟨[], rows_of_long (Nat.lt_of_not_le short) s t f w, fun r member => nomatch member⟩

end

section

variable {w : TimeWindow} (sound : w.Sound) (whole : slotMillis ∣ w.slotSize)

include sound whole

/-- The first slot does not begin after the first minute, though it may begin before it. -/
theorem onSlot_refine {slot : Int} (minute : MinuteOf w slot) : w.OnSlot (w.refine slot) :=
  sound.onSlot (TimeWindow.refine_mem_slots sound
    (Int.le_trans (TimeWindow.first_le_timeSlot sound whole) minute.1)
    (Int.le_trans minute.2 (timeSlot_le _)))

variable (nonneg : 0 ≤ w.range.first) (bound : w.range.last ≤ lastMillis)

include nonneg bound

theorem onSlot_linkTime {k : RowKey} (minute : MinuteOf w k.slot) (aggregated : Bool) :
    w.OnSlot (linkTime w aggregated k) := by
  have bound' : k.slot ≤ lastMillis := Int.le_trans minute.2 (Int.le_trans (timeSlot_le _) bound)
  rw [linkTime_eq nonneg (Int.le_trans sound.ordered bound) aggregated
    (Int.le_trans (timeSlot_nonneg nonneg) minute.1) bound']
  cases aggregated with
  | true => exact sound.onSlot (List.mem_of_head? (TimeWindow.head?_slots sound))
  | false => exact onSlot_refine sound whole minute

/-- The links that rows of these minutes are counted to have times at which slots begin. -/
theorem within_tallies {read : List (RowKey × Row)}
    (minutes : ∀ r ∈ read, MinuteOf w r.1.slot)
    (decode : Bytes → Except RowError α) {tally : α → Int → Int64 → Tally}
    (timed : ∀ column time count, (tally column time count).time = time) (aggregated : Bool) :
    (Links.addAll .empty (read.flatMap (tallies decode tally w aggregated))).Within w.OnSlot := by
  refine Links.within_addAll fun t member => ?_
  obtain ⟨r, row, member⟩ := List.mem_flatMap.1 member
  obtain ⟨cell, -, rfl⟩ := List.mem_map.1 member
  rw [timed]
  exact onSlot_linkTime sound whole nonneg bound (minutes r row) aggregated

end

/-- A response time has the minute of its rows. -/
theorem times_addRow {p : Int → Prop} {read : List (RowKey × Row)}
    (holds : ∀ r ∈ read, p r.1.slot) (a : Application) :
    (read.foldl (addRow a) .empty).Each fun r => p r.time := by
  refine List.foldlRecOn _ _ SortedMap.Each.empty fun times each row member => ?_
  refine each.update row.1.slot (holds row member) fun r kept => ?_
  refine List.foldlRecOn (motive := fun r : ResponseTime => p r.time) _ _ kept fun r kept e _ => ?_
  exact (r.time_add _ _ _).symm ▸ kept

/-- What is read of an application for a window has times at which slots begin, and the node histogram
of the application has, in either detail. -/
structure OnSlots (s : Store) (t : Tables) (a : Application) (w : TimeWindow) : Prop where
  outbound : ∀ aggregated, ∃ l, Query.outbound s t a w aggregated = .ok l ∧
    ∀ k ∈ l.links, k.Within w.OnSlot
  inbound : ∀ aggregated, ∃ l, Query.inbound s t a w aggregated = .ok l ∧
    ∀ k ∈ l.links, k.Within w.OnSlot
  responses : ∃ rs, Query.responses s t a w = .ok rs ∧
    ∀ detail, (NodeHistogram.ofResponses detail a w rs).Within w.OnSlot
  node : ∀ detail d, Duplex.Within w.OnSlot d → ∃ n,
    NodeHistogram.read detail d w (fun b => Query.responses s t b w) a = .ok n ∧ n.Within w.OnSlot

/-- The tables of the statistics. -/
def families : List ColumnFamily := [.callerCounter, .calleeCounter, .selfCounter]

/-- Whatever minutes the tables have, and however a range lies between the slots that it is given, all
that is read of an application in the range is told at starts of slots. -/
theorem reads_on_slots {s : Store} {t : Tables}
    (written : ∀ f ∈ families, Written (s.rows (f.tableIn t.space))) {first last : Int}
    {r : TimeRange} (made : TimeRange.of first last = .ok r) (nonneg : 0 ≤ r.first)
    (bound : r.last ≤ lastMillis) (a : Application) : OnSlots s t a (.ofRange r) := by
  have ordered := TimeRange.ordered_of made
  have sound := TimeWindow.sound_ofRange ordered
  have whole := TimeWindow.minutes_ofRange ordered
  have rows (f : ColumnFamily) (listed : f ∈ families) :=
    rows_timed (w := .ofRange r) nonneg ordered bound (written f listed) a
  have answers : ∃ rs, Query.responses s t a (.ofRange r) = .ok rs ∧
      ∀ detail, (NodeHistogram.ofResponses detail a (.ofRange r) rs).Within
        (TimeWindow.ofRange r).OnSlot := by
    obtain ⟨read, answered, minutes⟩ := rows .selfCounter (by decide)
    rw [Query.responses, answered]
    have times := times_addRow (p := MinuteOf (.ofRange r)) minutes a
    exact ⟨_, rfl, fun detail => NodeHistogram.within_ofResponses
      (fun response member => onSlot_refine sound whole (times.value member)) detail a⟩
  refine ⟨fun aggregated => ?_, fun aggregated => ?_, answers, fun detail d within => ?_⟩
  · obtain ⟨read, answered, minutes⟩ := rows .callerCounter (by decide)
    rw [Query.outbound, answered]
    exact ⟨_, rfl, fun k member =>
      (within_tallies sound whole nonneg bound minutes _ (fun _ _ _ => rfl) aggregated).link
        member⟩
  · obtain ⟨read, answered, minutes⟩ := rows .calleeCounter (by decide)
    rw [Query.inbound, answered]
    exact ⟨_, rfl, fun k member =>
      (within_tallies sound whole nonneg bound minutes _ (fun _ _ _ => rfl) aggregated).link
        member⟩
  · obtain ⟨rs, answered, responses⟩ := answers
    unfold NodeHistogram.read
    dsimp only
    cases server : a.type.isServer with
    | true =>
      rw [if_pos rfl, answered]
      exact ⟨_, rfl, responses detail⟩
    | false => exact ⟨_, rfl, NodeHistogram.within_ofLinks within a⟩

def firstTables : Tables := ⟨"a", fewSalts⟩

/-- A call that a server made and one that it answered, in the minute that begins at 60000. -/
def firstMinute : Store :=
  let cell (f : ColumnFamily) (column : Bytes) (s : Store) : Store :=
    let key := RowKey.encode ⟨"shop", ServiceType.tomcat.code, 60000⟩
    s.increment (f.tableIn "a") ⟨firstTables.salting.salted key, f.family, [(column, 1)]⟩
  cell .selfCounter (ResponseColumn.encode ⟨1000, "shop-1"⟩) <|
    cell .callerCounter (CalleeColumn.encode ⟨2100, "orders", "db", 1000, "shop-1"⟩) .empty

/-- The times that the links of a reading show, and those that its node histogram does. -/
def firstTimes (r : TimeRange) : Option (List Int × List Int) := do
  let w := TimeWindow.ofRange r
  let links ← (Query.outbound firstMinute firstTables ⟨"shop", .tomcat⟩ w false).toOption
  let responses ← (Query.responses firstMinute firstTables ⟨"shop", .tomcat⟩ w).toOption
  return (links.links.flatMap (·.series.slots.keys),
    (NodeHistogram.ofResponses .byAgent ⟨"shop", .tomcat⟩ w responses).times.slots.keys)

/-- A range from the midst of that minute on, with slots of three minutes. The slot in which it begins
starts before the minute. -/
theorem reads_on_slots_wide :
    let r : TimeRange := ⟨90000, 24090000⟩
    OnSlots firstMinute firstTables ⟨"shop", .tomcat⟩ (.ofRange r) ∧
      (TimeWindow.ofRange r).slotSize = 180000 ∧ firstTimes r = some ([0], [0]) := by
  intro r
  have written : ∀ f ∈ families, ∀ key ∈ (firstMinute.rows (f.tableIn "a")).keys,
      key = firstTables.salting.salted
        (RowKey.encode ⟨"shop", ServiceType.tomcat.code, 60000⟩) := by decide +kernel
  refine ⟨reads_on_slots (fun f listed key member => ?_)
    (show TimeRange.of 90000 24090000 = .ok r from rfl) (by decide) (by decide) _, by decide,
    by decide +kernel⟩
  exact ⟨_, _, by decide, by decide, written f listed key member⟩

end Query

end Topology

end CallTelemetry
