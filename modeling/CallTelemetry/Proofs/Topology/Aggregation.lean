import CallTelemetry.Proofs.Latency.Amounts
import CallTelemetry.Proofs.Topology.Links
import CallTelemetry.Topology.Query

/-! Links that are read with all slots of the window taken together. It makes no difference whether
times are taken together before calls are counted or afterwards: a reading of that kind has what a
reading by slots has, at a single time. -/
namespace CallTelemetry

open CallTelemetry.Topology

namespace Latency.Series

/-- All times as one that begins at `start`. -/
def together (start : Int) (s : Series) : Series :=
  { s with slots := if s.slots.keys = [] then .empty else SortedMap.insert .empty start s.total }

theorem get?_together (start : Int) (s : Series) (time : Int) :
    (s.together start).slots.get? time =
      if time = start ∧ s.slots.keys ≠ [] then some s.total else none := by
  by_cases none : s.slots.keys = []
  · simp [together, none]
  · simp [together, none, SortedMap.get?_insert]

theorem keys_together (start : Int) (s : Series) :
    (s.together start).slots.keys = [] ∨ (s.together start).slots.keys = [start] := by
  unfold together
  split
  · exact .inl rfl
  · exact .inr rfl

theorem getD_together (start : Int) (s : Series) :
    (s.together start).slots.getD start (.empty s.scheme) = s.total := by
  rw [SortedMap.getD, get?_together]
  by_cases none : s.slots.keys = []
  · have empty : s.slots.values = [] := by simpa [SortedMap.keys, SortedMap.values] using none
    simp [none, total, empty]
  · simp [none]

theorem total_together (start : Int) (s : Series) : (s.together start).total = s.total := by
  by_cases none : s.slots.keys = []
  · have empty : s.slots.entries = [] := by simpa [SortedMap.keys] using none
    simp [together, none, total, empty, SortedMap.values, SortedMap.empty]
  · have single : (s.together start).total = (Histogram.empty s.scheme).merge s.total := by
      simp only [together, none, if_false]
      rfl
    rw [single, Histogram.empty_merge s.fits_total]

theorem fits_together {scheme : Scheme} {s : Series} (fits : s.Fits scheme) (start : Int) :
    (s.together start).Fits scheme where
  same := fits.same
  slots time h found := by
    rw [get?_together] at found
    split at found
    · obtain rfl := Option.some.inj found
      exact fits.same ▸ s.fits_total
    · cases found

theorem together_mergeAt {scheme : Scheme} {s : Series} (fits : s.Fits scheme) (start time : Int)
    (h : Histogram) : (s.mergeAt time h).together start = (s.together start).mergeAt start h := by
  have there : (s.mergeAt time h).slots.keys ≠ [] := by
    apply List.ne_nil_of_mem (a := time)
    exact SortedMap.mem_keys_update.2 (.inl rfl)
  have slots : ((s.mergeAt time h).together start).slots =
      ((s.together start).mergeAt start h).slots := by
    apply SortedMap.ext_get?
    intro time'
    have merged : ((s.together start).mergeAt start h).slots.get? time' = if time' = start then
        some (s.total.merge h) else (s.together start).slots.get? time' := by
      rw [← getD_together start s]
      exact SortedMap.get?_update ..
    rw [merged, get?_together, get?_together, total_mergeAt fits]
    by_cases here : time' = start
    · simp [here, there]
    · simp [here]
  exact congrArg (Series.mk s.scheme) slots

/-- Times may be taken together before a value is counted. -/
theorem together_add {scheme : Scheme} {s : Series} (fits : s.Fits scheme) (start time : Int)
    (slot : Slot) (value : Int64) :
    (s.add time slot value).together start = (s.together start).add start slot value := by
  rw [← mergeAt_add fits, ← mergeAt_add (fits_together fits start), together_mergeAt fits]

end Latency.Series

namespace Topology

open Latency Statistics

def Traffic.together (start : Int) (t : Traffic) : Traffic :=
  SortedMap.map t fun _ s => s.together start

theorem Traffic.together_add {t : Traffic} (formed : t.Formed) (start : Int) (ends : Edge)
    (time : Int) (slot : Slot) (count : Int64) :
    (t.add ends time slot count).together start = (t.together start).add ends start slot count :=
  SortedMap.map_update rfl (Series.together_add (fits_getD formed ends) start time slot count)

/-- A tally with another time. -/
def Tally.at (time : Int) (t : Tally) : Tally := { t with time }

theorem Tally.together_addTo {traffic : Traffic} (formed : traffic.Formed) (start : Int)
    (t : Tally) : (t.addTo traffic).together start = (t.at start).addTo (traffic.together start) := by
  have slot : (t.at start).slot? = t.slot? := rfl
  unfold addTo
  rw [slot]
  cases t.slot? with
  | none => rfl
  | some slot => exact Traffic.together_add formed start t.ends t.time slot t.count

namespace Links

def together (start : Int) (l : Links) : Links := SortedMap.map l fun _ t => t.together start

theorem together_add {l : Links} (formed : l.Formed) (start : Int) (t : Tally) :
    (l.add t).2.together start = ((l.together start).add (t.at start)).2 :=
  SortedMap.map_update rfl (t.together_addTo (formed_getD formed t.edge) start)

theorem together_addAll {l : Links} (formed : l.Formed) (start : Int) (ts : List Tally) :
    (l.addAll ts).together start = (l.together start).addAll (ts.map (Tally.at start)) := by
  induction ts generalizing l with
  | nil => rfl
  | cons t ts ih =>
    have rest := ih (formed_add formed t)
    rw [together_add formed] at rest
    exact rest

/-- Whether links are others with all times taken together: they are the same links between the same
ends, which have the same histograms as a whole, and at most one time. -/
structure TakenTogether (start : Int) (l l' : Links) : Prop where
  edges : SortedMap.keys l' = SortedMap.keys l
  ends : ∀ e, (SortedMap.get? l' e).map SortedMap.keys = (SortedMap.get? l e).map SortedMap.keys
  totals : ∀ e ends, ((SortedMap.get? l' e).bind (SortedMap.get? · ends)).map Series.total =
    ((SortedMap.get? l e).bind (SortedMap.get? · ends)).map Series.total
  times : ∀ e t ends s, SortedMap.get? l' e = some t → SortedMap.get? t ends = some s →
    s.slots.keys = [] ∨ s.slots.keys = [start]

theorem takenTogether (start : Int) (l : Links) : TakenTogether start l (l.together start) where
  edges := SortedMap.keys_map l _
  ends e := by
    rw [together, SortedMap.get?_map]
    cases SortedMap.get? l e with
    | none => rfl
    | some t => exact congrArg some (SortedMap.keys_map t _)
  totals e ends := by
    rw [together, SortedMap.get?_map]
    cases SortedMap.get? l e with
    | none => rfl
    | some t =>
      simp only [Option.map_some, Option.bind_some, Traffic.together, SortedMap.get?_map]
      cases SortedMap.get? t ends with
      | none => rfl
      | some s => exact congrArg some (s.total_together start)
  times e t ends s found held := by
    rw [together, SortedMap.get?_map] at found
    obtain ⟨t', -, rfl⟩ := Option.map_eq_some_iff.1 found
    rw [Traffic.together, SortedMap.get?_map] at held
    obtain ⟨s', -, rfl⟩ := Option.map_eq_some_iff.1 held
    exact s'.keys_together start

end Links

namespace Query

/-- The time of all slots together: the start of the first, as the word that times are. -/
def startTime (w : TimeWindow) : Int := (Int64.ofInt w.slotRange.first).toInt

/-- Only the time of a tally depends on whether slots are taken together. -/
theorem tallies_aggregated {α : Type} {decode : Bytes → Except RowError α}
    {tally : α → Int → Int64 → Tally} (timed : ∀ c time count time', (tally c time count).at time' =
      tally c time' count) (w : TimeWindow) (row : RowKey × Row) :
    tallies decode tally w true row =
      (tallies decode tally w false row).map (Tally.at (startTime w)) := by
  unfold tallies
  rw [List.map_map]
  apply List.map_congr_left
  intro e _
  exact (timed ..).symm

theorem addAll_answers {α : Type} {decode : Bytes → Except RowError α}
    {tally : α → Int → Int64 → Tally} (timed : ∀ c time count time', (tally c time count).at time' =
      tally c time' count) (w : TimeWindow) (rows : List (RowKey × Row)) :
    Links.TakenTogether (startTime w)
      (Links.addAll .empty (rows.flatMap (tallies decode tally w false)))
      (Links.addAll .empty (rows.flatMap (tallies decode tally w true))) := by
  have later : rows.flatMap (tallies decode tally w true) =
      (rows.flatMap (tallies decode tally w false)).map (Tally.at (startTime w)) := by
    rw [List.map_flatMap]
    congr
    funext row
    exact tallies_aggregated timed w row
  have together := Links.together_addAll Links.formed_empty (startTime w)
    (rows.flatMap (tallies decode tally w false))
  rw [later]
  exact together ▸ Links.takenTogether ..

/-- Whether one reading fails as another does, or else answers its links with all times taken
together. -/
def AnswersTogether (start : Int) : Except StoreError Links → Except StoreError Links → Prop
  | .ok l, .ok l' => l.TakenTogether start l'
  | .error e, .error e' => e = e'
  | _, _ => False

/-- Reading with all slots taken together changes only the times of the links that are read. -/
theorem aggregated_answers (s : Store) (t : Tables) (a : Application) (w : TimeWindow) :
    AnswersTogether (startTime w) (outbound s t a w false) (outbound s t a w true) ∧
      AnswersTogether (startTime w) (inbound s t a w false) (inbound s t a w true) := by
  constructor
  · unfold outbound
    cases rows s t .callerCounter a w with
    | error e => exact rfl
    | ok rows =>
      exact addAll_answers (fun _ _ _ _ => rfl) w rows
  · unfold inbound
    cases rows s t .calleeCounter a w with
    | error e => exact rfl
    | ok rows =>
      exact addAll_answers (fun _ _ _ _ => rfl) w rows

/-- An application that calls another in the minute before the time zero and in the one after it. -/
def overfullCaller : Application := ⟨"shop", .tomcat⟩

def overfullTables : Tables := ⟨"a", ⟨15, by decide, by decide⟩⟩

/-- Its rows, with counts that are words but not their sum is, and a code that no scheme has. -/
def overfullStore : Store :=
  let row (slot : Int) : Bytes := overfullTables.salting.salted
    (RowKey.encode ⟨overfullCaller.name, overfullCaller.type.code, slot⟩)
  let column (application : String) (code : Int16) : Bytes :=
    CalleeColumn.encode ⟨ServiceType.mysql.code, application, "db", code, "shop-1"⟩
  Store.empty.apply (.increments (ColumnFamily.callerCounter.tableIn overfullTables.space)
    [⟨row (-60000), ColumnFamily.callerCounter.family, [(column "orders" 1000, Int64.maxValue)]⟩,
      ⟨row 0, ColumnFamily.callerCounter.family, [(column "orders" 1000, 1), (column "carts" 77, 1)]⟩])

/-- The sum wraps around in both readings. -/
theorem aggregated_answers_overfull :
    let w : TimeWindow := .withSlotSize ⟨-60000, 59999⟩ 60000
    let reading := outbound overfullStore overfullTables overfullCaller w
    let times (l : Links) := l.values.map fun t =>
      SortedMap.values t |>.map fun s => (s.total.fast, s.slots.keys)
    AnswersTogether (-60000) (reading false) (reading true) ∧
      (reading false).map times = .ok [[], [(Int64.minValue, [-60000, 0])]] ∧
      (reading true).map times = .ok [[], [(Int64.minValue, [-60000])]] := by
  intro w reading times
  have start : startTime w = -60000 := by decide +kernel
  have together := aggregated_answers overfullStore overfullTables overfullCaller w
  rw [start] at together
  exact ⟨together.1, by decide +kernel, by decide +kernel⟩

end Query

end Topology

end CallTelemetry
