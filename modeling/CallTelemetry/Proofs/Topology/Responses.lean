import CallTelemetry.Proofs.Pending.Filling
import CallTelemetry.Proofs.Statistics.Answering
import CallTelemetry.Proofs.Topology.RoundTrip

/-! Answers that are recorded are read back. Once all is written, what is read of an application are
its minutes, each with the response times of its agents as they are when they are counted one by
one. -/
namespace CallTelemetry

open Latency Pending Statistics

/-- Counts one answer in its class, and its time. -/
def Latency.Histogram.addAnswer (h : Histogram) (elapsed : Int32) (failed : Bool) : Histogram :=
  ((h.addCall elapsed failed).add .sum elapsed.toInt64).add .max elapsed.toInt64

namespace Topology

/-- The response times of one minute when its answers are counted one by one. -/
def ResponseTime.ofAnswers (a : Application) (time : Int) (answers : List Answer) : ResponseTime :=
  ⟨a, time, answers.foldl (fun agents c => agents.update c.agentId (.empty a.type.scheme) fun h =>
    h.addAnswer c.elapsed c.failed) .empty⟩

/-- The agent whose histogram an addition counts in. -/
def Addition.agent (x : Addition) : String := x.ends.source.name

/-- The histograms of agents that additions make. -/
def agentsOf (scheme : Scheme) (l : List Addition) : SortedMap String Histogram :=
  l.foldl (fun agents x => agents.update x.agent (.empty scheme) fun h => h.add x.slot x.value)
    .empty

theorem get?_agentsOf (scheme : Scheme) (l : List Addition) (agent : String) :
    (agentsOf scheme l).get? agent = if (l.filter fun x => agent = x.agent) = [] then none
      else some (Histogram.ofAdditions scheme (l.filter fun x => agent = x.agent)) :=
  SortedMap.get?_ofUpdates Addition.agent (fun _ => Histogram.empty scheme)
    (fun x (h : Histogram) => h.add x.slot x.value) l agent

/-- Additions that come to the same for every agent make the same histograms. -/
theorem Agree.agents {l l' : List Addition} (agree : Agree (fun x => (x.agent, ())) l l')
    (scheme : Scheme) : agentsOf scheme l = agentsOf scheme l' := by
  refine SortedMap.ext_get? fun agent => ?_
  rw [get?_agentsOf, get?_agentsOf, (agree.filter agent).histogram]
  simp only [agree.filter_eq_nil agent]

/-- What a number that is read of a row adds, as if the agent had called its own application. -/
def responseTally (a : Application) (c : ResponseColumn) (time : Int) (count : Int64) : Tally :=
  ⟨⟨a, a⟩, c.agentId, "", time, c.slot, count⟩

/-- Numbers of rows, under their keys and columns. -/
abbrev Numbers := List ((RowKey × ResponseColumn) × Int64)

/-- What numbers add that are read of an application. -/
def responseAdditions (a : Application) (w : TimeWindow) (numbers : Numbers) : List Addition :=
  numbers.map (Addition.under (Query.shape (responseTally a) w false))

/-- Merging histograms of one number each adds these numbers. -/
theorem foldl_merge {scheme : Scheme} (slot : ε → Slot) (value : ε → Int64) (l : List ε)
    {h : Histogram} (fits : h.Fits scheme) :
    l.foldl (fun h e => h.merge ((Histogram.empty scheme).add (slot e) (value e))) h =
      l.foldl (fun h e => h.add (slot e) (value e)) h := by
  induction l generalizing h with
  | nil => rfl
  | cons e l ih =>
    rw [List.foldl_cons, List.foldl_cons, Histogram.merge_add fits]
    exact ih (Histogram.fits_add fits _ _)

namespace ResponseTime

theorem add_eq {r : ResponseTime} {code : Int16} {slot : Slot}
    (known : r.scheme.slotOfCode? code = some slot) (agent : String) (count : Int64) :
    r.add agent code count = { r with
      agents := r.agents.update agent (.empty r.scheme) fun h =>
        h.merge ((Histogram.empty r.scheme).add slot count) } := by
  have counted : (Histogram.empty r.scheme).addCode? code count =
      some ((Histogram.empty r.scheme).add slot count) := by
    rw [Histogram.addCode?, Histogram.empty, known]
    rfl
  rw [add, counted]

/-- Adds a number of a row. -/
def addNumber (r : ResponseTime) (e : (RowKey × ResponseColumn) × Int64) : ResponseTime :=
  r.add e.1.2.agentId e.1.2.slot e.2

/-- A number counts for its agent in the slot that its column names. -/
theorem addNumber_eq {a : Application} {e : (RowKey × ResponseColumn) × Int64}
    (known : (responseTally a e.1.2 0 0).slot? ≠ none) (w : TimeWindow) (time : Int)
    (agents : SortedMap String Histogram) :
    addNumber ⟨a, time, agents⟩ e = ⟨a, time, agents.update e.1.2.agentId (.empty a.type.scheme)
      fun h => h.merge ((Histogram.empty a.type.scheme).add
        (Query.shape (responseTally a) w false e.1).slot e.2)⟩ := by
  obtain ⟨slot, found⟩ := Option.ne_none_iff_exists'.1 known
  have counts : (Query.shape (responseTally a) w false e.1).slot = slot := by
    simp only [Query.shape, Tally.addition, found, Option.getD_some]
  rw [counts]
  exact add_eq (r := ⟨a, time, agents⟩) found e.1.2.agentId e.2

theorem foldl_addNumber {a : Application} {numbers : Numbers}
    (known : ∀ e ∈ numbers, (responseTally a e.1.2 0 0).slot? ≠ none) (w : TimeWindow)
    (time : Int) : numbers.foldl addNumber (.empty a time) =
      ⟨a, time, agentsOf a.type.scheme (responseAdditions a w numbers)⟩ := by
  let slot (e : (RowKey × ResponseColumn) × Int64) : Slot :=
    (Query.shape (responseTally a) w false e.1).slot
  have merged (agents : SortedMap String Histogram) :
      numbers.foldl addNumber ⟨a, time, agents⟩ = ⟨a, time, numbers.foldl (fun agents e =>
        agents.update e.1.2.agentId (.empty a.type.scheme) fun h =>
          h.merge ((Histogram.empty a.type.scheme).add (slot e) e.2)) agents⟩ := by
    induction numbers generalizing agents with
    | nil => rfl
    | cons e numbers ih =>
      rw [List.foldl_cons, List.foldl_cons, addNumber_eq (known e List.mem_cons_self) w]
      exact ih (fun e' member => known e' (List.mem_cons_of_mem e member)) _
  rw [empty, merged, agentsOf, responseAdditions, List.foldl_map]
  congr 1
  refine SortedMap.ext_get? fun agent => ?_
  rw [SortedMap.get?_ofUpdates (fun e : (RowKey × ResponseColumn) × Int64 => e.1.2.agentId)
    (fun _ => Histogram.empty a.type.scheme) fun e (h : Histogram) =>
      h.merge ((Histogram.empty a.type.scheme).add (slot e) e.2),
    foldl_merge _ _ _ (Histogram.fits_empty _)]
  exact (SortedMap.get?_ofUpdates (fun e : (RowKey × ResponseColumn) × Int64 => e.1.2.agentId)
    (fun _ => Histogram.empty a.type.scheme) (fun e (h : Histogram) => h.add (slot e) e.2)
    numbers agent).symm

end ResponseTime

namespace Query

theorem addRow_eq (a : Application) (times : SortedMap Int ResponseTime) (r : RowKey × Row) :
    addRow a times r = times.update r.1.slot (.empty a r.1.slot) fun v =>
      (numbers ResponseColumn.decode r).foldl ResponseTime.addNumber v := by
  rw [addRow]
  congr 1
  funext v
  rw [numbers, List.foldl_map]
  rfl

theorem filter_numbers (rows : List (RowKey × Row)) (time : Int) :
    (rows.flatMap (numbers ResponseColumn.decode)).filter (fun e => time = e.1.1.slot) =
      (rows.filter fun r => time = r.1.slot).flatMap (numbers ResponseColumn.decode) := by
  refine filter_flatMap_whole (fun r e member => ?_) rows
  obtain ⟨_, -, rfl⟩ := List.mem_map.1 member
  rfl

/-- A minute has what the numbers of its rows make. -/
theorem get?_addRows (a : Application) (rows : List (RowKey × Row)) (time : Int) :
    (rows.foldl (addRow a) .empty).get? time =
      if (rows.filter fun r => time = r.1.slot) = [] then none
      else some (((rows.flatMap (numbers ResponseColumn.decode)).filter fun e =>
        time = e.1.1.slot).foldl ResponseTime.addNumber (.empty a time)) := by
  have additions : rows.foldl (addRow a) .empty = rows.foldl (fun times r =>
      times.update r.1.slot (.empty a r.1.slot) fun v =>
        (numbers ResponseColumn.decode r).foldl ResponseTime.addNumber v) .empty := by
    congr 1
    funext times r
    exact addRow_eq a times r
  rw [additions, filter_numbers, List.foldl_flatMap]
  exact SortedMap.get?_ofUpdates (fun r : RowKey × Row => r.1.slot) (ResponseTime.empty a)
    (fun r v => (numbers ResponseColumn.decode r).foldl ResponseTime.addNumber v) rows time

/-- The time of a number is its minute, where slots are not longer than a millisecond. -/
theorem filter_responseAdditions {w : TimeWindow} (exact_ : w.slotSize = 1) (a : Application)
    {numbers : Numbers} (sound : ∀ e ∈ numbers, e.1.1.Sound) (time : Int) :
    ((responseAdditions a w numbers).filter fun x => time = x.time) =
      responseAdditions a w (numbers.filter fun e => time = e.1.1.slot) := by
  have minute {k : RowKey} (sound : k.Sound) : linkTime w false k = k.slot := by
    rw [linkTime, TimeWindow.refine, exact_, Int.emod_one, Int.sub_zero]
    exact RowKey.toInt_ofInt_slot sound.nonneg sound.bound
  rw [responseAdditions, List.filter_map]
  refine congrArg _ (List.filter_congr fun e member => ?_)
  show decide (time = linkTime w false e.1.1) = _
  rw [minute (sound e member)]

/-- Numbers that agree in their places agree for every agent in every minute. -/
theorem agree_agents {a : Application} {w : TimeWindow} {l l' : Numbers}
    (agree : Agree Addition.place (responseAdditions a w l) (responseAdditions a w l')) :
    Agree (fun x => (x.time, x.agent, ())) (responseAdditions a w l) (responseAdditions a w l') := by
  refine agree.rekey fun x member y member' => ?_
  have placed {x : Addition} (member : x ∈ responseAdditions a w l ++ responseAdditions a w l') :
      x.place = (⟨a, a⟩, ⟨⟨x.agent, a.type⟩, ⟨"", a.type⟩⟩, x.time, ()) := by
    rw [responseAdditions, responseAdditions, ← List.map_append] at member
    obtain ⟨e, -, rfl⟩ := List.mem_map.1 member
    rfl
  rw [placed member, placed member']
  simp [and_comm]

end Query

namespace ResponseTime

/-- Additions of answers add up to the answers, counted one by one. -/
theorem foldl_ofCall {scheme : Scheme} (agent : Answer → String) (time : Answer → Int)
    (answers : List Answer) (same : ∀ c ∈ answers, c.application.type.scheme = scheme)
    {h : Histogram} (fits : h.scheme = scheme) :
    (answers.flatMap fun c => Addition.ofCall (agent c) (time c) c.call).foldl
        (fun h x => h.add x.slot x.value) h =
      answers.foldl (fun h c => h.addAnswer c.elapsed c.failed) h := by
  induction answers generalizing h with
  | nil => rfl
  | cons c answers ih =>
    have class_ : c.call.slot = h.scheme.classify c.elapsed c.failed := by
      rw [fits, ← same c List.mem_cons_self]
      rfl
    have first : (Addition.ofCall (agent c) (time c) c.call).foldl
        (fun h x => h.add x.slot x.value) h = h.addAnswer c.elapsed c.failed := by
      simp only [Addition.ofCall, List.foldl_cons, List.foldl_nil, Histogram.addAnswer,
        Histogram.addCall, class_]
      rfl
    rw [List.flatMap_cons, List.foldl_append, first, List.foldl_cons]
    refine ih (fun c' member => same c' (List.mem_cons_of_mem c member)) ?_
    rw [Histogram.addAnswer, Histogram.addCall, Histogram.scheme_add, Histogram.scheme_add,
      Histogram.scheme_add, fits]

theorem ofAnswers_eq {a : Application} {answers : List Answer}
    (mine : ∀ c ∈ answers, c.application = a) (time : Int) (time' : Answer → Int) :
    ofAnswers a time answers = ⟨a, time, agentsOf a.type.scheme
      (answers.flatMap fun c => Addition.ofCall c.agentId (time' c) c.call)⟩ := by
  let add (c : Answer) : List Addition := Addition.ofCall c.agentId (time' c) c.call
  rw [ofAnswers]
  congr 1
  refine SortedMap.ext_get? fun agent => ?_
  have own : ((answers.flatMap add).filter fun x => agent = x.agent) =
      (answers.filter fun c => agent = c.agentId).flatMap add := by
    refine filter_flatMap_whole (fun c x member => ?_) answers
    have named : ∀ x ∈ add c, x.agent = c.agentId := by
      simp [add, Addition.ofCall, Addition.agent]
    rw [named x member]
  have nothing : (answers.filter fun c => agent = c.agentId).flatMap add = [] ↔
      (answers.filter fun c => agent = c.agentId) = [] := by
    rw [List.flatMap_eq_nil_iff, List.eq_nil_iff_forall_not_mem]
    exact forall_congr' fun c => by simp [add, Addition.ofCall]
  rw [get?_agentsOf, own]
  simp only [nothing]
  rw [Histogram.ofAdditions, foldl_ofCall Answer.agentId time' _ (fun c member => ?_) rfl]
  · exact SortedMap.get?_ofUpdates Answer.agentId (fun _ => Histogram.empty a.type.scheme)
      (fun c (h : Histogram) => h.addAnswer c.elapsed c.failed) answers agent
  · rw [mine c (List.mem_filter.1 member).1]
    rfl

end ResponseTime

namespace Query

/-- What the records of an answer add when they are read. -/
theorem response_additions {w : TimeWindow} {aggregated : Bool} {c : Answer}
    (timed : linkTime w aggregated (Half.response.row c.call) = callTime w aggregated c.call) :
    ((Half.response.records c.call).map fun r => (responseTally c.application r.column
      (linkTime w aggregated (Half.response.row c.call)) r.value).addition r.slot) =
        Addition.ofCall c.agentId (callTime w aggregated c.call) c.call := by
  rw [timed]
  simp only [Half.records, Half.record, List.map_cons, List.map_nil, responseTally, Half.response,
    Tally.addition, Tally.ends]
  rfl

/-- The answers of an application in one of the minutes that are asked for. -/
def answersAt (a : Application) (w : TimeWindow) (time : Int) (answers : List Answer) :
    List Answer :=
  answers.filter fun c => c.application = a ∧ Asked w c.call ∧ time = timeSlot c.timestamp

/-- One answer of a minute that is asked for makes all of them asked for. -/
theorem answersAt_eq {a : Application} {w : TimeWindow} {c : Answer} (asked : Asked w c.call)
    (answers : List Answer) : answersAt a w (timeSlot c.timestamp) answers =
      answers.filter fun c' => c'.application = a ∧ timeSlot c'.timestamp = timeSlot c.timestamp := by
  refine List.filter_congr fun c' _ => decide_eq_decide.2 ?_
  constructor
  · rintro ⟨mine, -, same⟩
    exact ⟨mine, same.symm⟩
  · rintro ⟨mine, same⟩
    refine ⟨mine, ?_, same.symm⟩
    have minute : timeSlot c'.call.timestamp = timeSlot c.call.timestamp := same
    rw [Asked, minute]
    exact asked

/-- The rows of an application in the table of answers. -/
def answerRows (s : Store) (t : Tables) (a : Application) (w : TimeWindow) : List (RowKey × Row) :=
  found t.salting (s.rows (ColumnFamily.selfCounter.tableIn t.space)) a w

/-- Which rows are read does not depend on the size of the slots, so they may be taken to be a
millisecond long. -/
theorem responses_eq {s : Store} {t : Tables} {a : Application} {w : TimeWindow}
    (fits : Identifier.Fits a.name) (nonneg : 0 ≤ w.range.first)
    (ordered : w.range.first ≤ w.range.last) (bound : w.range.last ≤ lastMillis) :
    responses s t a w = .ok ((answerRows s t a ⟨w.range, 1⟩).foldl (addRow a) .empty).values := by
  rw [responses, rows_eq fits nonneg ordered bound]
  rfl

/-- The records that are asked for add what their answers do. -/
theorem own_additions {t : Tables} {answers : List Answer} (sound : ∀ c ∈ answers, c.Sound)
    {a : Application} {w : TimeWindow} (nonneg : 0 ≤ w.range.first)
    (bound : w.range.first ≤ lastMillis)
    (legible : Legible (t.destination .selfCounter ResponseColumn.encode) ResponseColumn.decode
      (responseTally a) a w ((answers.map Answer.call).flatMap Half.response.records)) :
    responseAdditions a w (entries
      (((answers.map Answer.call).flatMap Half.response.records).filter (Wanted a w ·.row))) =
        (answers.filter fun c => c.application = a ∧ Asked w c.call).flatMap fun c =>
          Addition.ofCall c.agentId (callTime w false c.call) c.call := by
  have each (c : Call) (member : c ∈ answers.map Answer.call) (mine : c.callee = a) :
      ((Half.response.records c).map fun r => (responseTally a r.column
        (linkTime w false (Half.response.row c)) r.value).addition r.slot) =
          Addition.ofCall c.callerAgentId (callTime w false c) c := by
    obtain ⟨answer, listed, rfl⟩ := List.mem_map.1 member
    exact mine ▸ response_additions (linkTime_eq nonneg bound false
      (timeSlot_nonneg (sound answer listed).nonneg)
      (Int.le_trans (timeSlot_le _) (sound answer listed).bound))
  rw [responseAdditions, legible.entries_under false,
    records_additions Call.callee (fun _ _ => rfl) each, List.filter_map, List.flatMap_map]
  rfl

section

variable {s : Store} {t : Tables} {answers : List Answer} (sound : ∀ c ∈ answers, c.Sound)
  (bounded : Bounded ((answers.map Answer.call).flatMap Half.response.records))
  {a : Application} {w : TimeWindow}

include sound bounded

theorem legible_responses : Legible (t.destination .selfCounter ResponseColumn.encode)
    ResponseColumn.decode (responseTally a) a w
    ((answers.map Answer.call).flatMap Half.response.records) := by
  refine legible_records (Half.response_readable sound) bounded t .selfCounter ?_
    (fun _ _ _ => rfl) fun _ _ _ => ⟨rfl, rfl⟩
  intro c _ here slot time count
  obtain ⟨rfl, -⟩ := wanted_iff.1 here
  exact c.callee.type.slotOfCode?_code slot

variable (keeps : Keeps s (t.destination .selfCounter ResponseColumn.encode)
    ((answers.map Answer.call).flatMap Half.response.records)) (fits : Identifier.Fits a.name)
  (nonneg : 0 ≤ w.range.first) (ordered : w.range.first ≤ w.range.last)
  (bound : w.range.last ≤ lastMillis)

include keeps fits nonneg ordered bound

/-- A row has a cell, and that cell an answer that it counts. -/
theorem answer_of_row (filled : s.Filled) {r : RowKey × Row} (member : r ∈ answerRows s t a w) :
    ∃ c ∈ answers, c.application = a ∧ Asked w c.call ∧ r.1.slot = timeSlot c.timestamp := by
  have legible := legible_responses (t := t) (a := a) (w := w) sound bounded
  have held := held_of_found member
  obtain ⟨name, present⟩ := filled _ _ _ held
  have present : s.cell? ⟨ColumnFamily.selfCounter.tableIn t.space, r.2.key, name.family,
      name.qualifier⟩ ≠ none := by
    simpa [Store.cell?, SortedMap.getD, held] using present
  obtain ⟨record, inside, row, wanted, -⟩ := origin_of_found keeps legible (Nat.le_refl _) fits
    nonneg ordered bound member present
  obtain ⟨call, called, own, -⟩ := Half.response.mem_records inside
  obtain ⟨c, listed, rfl⟩ := List.mem_map.1 called
  rw [own] at wanted
  obtain ⟨mine, asked⟩ := wanted_iff.1 wanted
  exact ⟨c, listed, mine, asked, by rw [← row, own]; rfl⟩

/-- The class of an answer has a cell, as it is counted with one at least. -/
theorem row_of_answer {c : Answer} (listed : c ∈ answers) (mine : c.application = a)
    (asked : Asked w c.call) : ∃ r ∈ answerRows s t a w, r.1.slot = timeSlot c.timestamp := by
  have legible := legible_responses (t := t) (a := a) (w := w) sound bounded
  have first : Half.response.record c.call c.call.slot 1 ∈
      (answers.map Answer.call).flatMap Half.response.records :=
    List.mem_flatMap.2 ⟨c.call, List.mem_map_of_mem listed, List.mem_cons_self⟩
  obtain ⟨r, inside, row, -, -, some_⟩ := legible.beside _ first
  have wanted : Wanted a w r.row := by
    rw [row]
    exact wanted_iff.2 ⟨mine, asked⟩
  rw [← keeps.amounts r inside] at some_
  let d := t.destination .selfCounter ResponseColumn.encode
  cases count : s.count? (d.place r.row r.column) with
  | none => exact absurd (by rw [count]; rfl) some_
  | some n =>
    have number := (mem_allNumbers (e := (r.key, n)) keeps legible (Nat.le_refl _) fits nonneg
      ordered bound).2 ⟨r, inside, rfl, wanted, count⟩
    obtain ⟨found, member, number⟩ := List.mem_flatMap.1 number
    obtain ⟨_, _, same⟩ := List.mem_map.1 number
    have own : found.1 = r.row := congrArg (·.1.1) same
    exact ⟨found, member, by rw [own, row]; rfl⟩

/-- A minute without a row is one without an answer. -/
theorem no_rows_iff (filled : s.Filled) (time : Int) :
    ((answerRows s t a w).filter fun r => time = r.1.slot) = [] ↔
      answersAt a w time answers = [] := by
  rw [List.filter_eq_nil_iff, answersAt, List.filter_eq_nil_iff]
  constructor
  · intro none c listed here
    obtain ⟨mine, asked, rfl⟩ := of_decide_eq_true here
    obtain ⟨r, member, slot⟩ :=
      row_of_answer sound bounded keeps fits nonneg ordered bound listed mine asked
    exact none r member (decide_eq_true slot.symm)
  · intro none r member here
    obtain ⟨c, listed, mine, asked, slot⟩ :=
      answer_of_row sound bounded keeps fits nonneg ordered bound filled member
    exact none c listed (decide_eq_true ⟨mine, asked, (of_decide_eq_true here).trans slot⟩)

/-- The numbers that are read of a minute add what its own answers do. -/
theorem agentsOf_minute (exact_ : w.slotSize = 1) (scheme : Scheme) (time : Int) :
    agentsOf scheme (responseAdditions a w
        (((answerRows s t a w).flatMap (numbers ResponseColumn.decode)).filter fun e =>
          time = e.1.1.slot)) =
      agentsOf scheme ((answersAt a w time answers).flatMap fun c =>
        Addition.ofCall c.agentId (callTime w false c.call) c.call) := by
  have minute (c : Answer) : callTime w false c.call = timeSlot c.timestamp := by
    simp [callTime, TimeWindow.refine, exact_, Answer.call]
  have whole (c : Answer) (x : Addition)
      (member : x ∈ Addition.ofCall c.agentId (callTime w false c.call) c.call) :
      decide (time = x.time) = decide (time = timeSlot c.timestamp) := by
    have timed : ∀ x ∈ Addition.ofCall c.agentId (callTime w false c.call) c.call,
        x.time = timeSlot c.timestamp := by
      simp [Addition.ofCall, minute]
    rw [timed x member]
  have legible := legible_responses (t := t) (a := a) (w := w) sound bounded
  have agree := agree_agents (agree_numbers keeps legible (Nat.le_refl _) fits nonneg ordered bound
    false)
  have keys : ∀ e ∈ (answerRows s t a w).flatMap (numbers ResponseColumn.decode), e.1.1.Sound := by
    intro e member
    obtain ⟨r, inside, key, -⟩ := (mem_allNumbers keeps legible (Nat.le_refl _) fits nonneg ordered
      bound).1 member
    exact key ▸ legible.row r inside
  rw [← filter_responseAdditions exact_ a keys]
  refine ((agree.filter time).agents scheme).trans ?_
  rw [own_additions sound nonneg (Int.le_trans ordered bound) legible, filter_flatMap_whole whole, List.filter_filter]
  congr 2
  refine List.filter_congr fun c _ => ?_
  simp only [Bool.decide_and, Bool.and_comm, Bool.and_left_comm]

/-- What is read of a minute are the response times of its own answers. -/
theorem get?_minute (exact_ : w.slotSize = 1) (filled : s.Filled) (time : Int) :
    ((answerRows s t a w).foldl (addRow a) .empty).get? time =
      if answersAt a w time answers = [] then none
      else some (.ofAnswers a time (answersAt a w time answers)) := by
  have legible := legible_responses (t := t) (a := a) (w := w) sound bounded
  have known : ∀ e ∈ ((answerRows s t a w).flatMap (numbers ResponseColumn.decode)).filter
      (fun e => time = e.1.1.slot), (responseTally a e.1.2 0 0).slot? ≠ none := by
    intro e member
    obtain ⟨r, inside, key, wanted, -⟩ := (mem_allNumbers keeps legible (Nat.le_refl _) fits nonneg
      ordered bound).1 (List.mem_filter.1 member).1
    rw [← show r.column = e.1.2 from congrArg Prod.snd key, legible.slot r inside wanted 0 0]
    exact Option.some_ne_none _
  rw [get?_addRows]
  simp only [no_rows_iff sound bounded keeps fits nonneg ordered bound filled]
  rw [ResponseTime.foldl_addNumber known w,
    agentsOf_minute sound bounded keeps fits nonneg ordered bound exact_, ← ResponseTime.ofAnswers_eq]
  intro c member
  exact (of_decide_eq_true (List.mem_filter.1 member).2).1

/-- The minutes that are read are those that have an answer. -/
theorem mem_minutes (exact_ : w.slotSize = 1) (filled : s.Filled) (r : ResponseTime) :
    r ∈ ((answerRows s t a w).foldl (addRow a) .empty).values ↔
      ∃ c ∈ answers, c.application = a ∧ Asked w c.call ∧
        r = .ofAnswers a (timeSlot c.timestamp) (answers.filter fun c' =>
          c'.application = a ∧ timeSlot c'.timestamp = timeSlot c.timestamp) := by
  have minute := get?_minute sound bounded keeps fits nonneg ordered bound exact_ filled
  rw [SortedMap.mem_values_iff]
  constructor
  · rintro ⟨time, found⟩
    rw [minute] at found
    split at found
    · cases found
    next some_ =>
      obtain ⟨c, member⟩ := List.exists_mem_of_ne_nil _ some_
      obtain ⟨listed, here⟩ := List.mem_filter.1 member
      obtain ⟨mine, asked, rfl⟩ := of_decide_eq_true here
      rw [answersAt_eq asked] at found
      exact ⟨c, listed, mine, asked, (Option.some.inj found).symm⟩
  · rintro ⟨c, listed, mine, asked, rfl⟩
    have member : c ∈ answersAt a w (timeSlot c.timestamp) answers :=
      List.mem_filter.2 ⟨listed, decide_eq_true ⟨mine, asked, rfl⟩⟩
    refine ⟨timeSlot c.timestamp, ?_⟩
    rw [minute, if_neg (List.ne_nil_of_mem member), answersAt_eq asked]

omit fits in
/-- Answers that a table keeps are read back, one minute after the other. An application whose name
has no row key has given none. -/
theorem responses_eq_ofAnswers (filled : s.Filled)
    (trimmed : a.name.toList.getLast? ≠ some '\x00') :
    ∃ times, responses s t a w = .ok times ∧
      times.Pairwise (fun r r' => r.time < r'.time) ∧
      ∀ r, r ∈ times ↔ ∃ c ∈ answers, c.application = a ∧ Asked w c.call ∧
        r = .ofAnswers a (timeSlot c.timestamp) (answers.filter fun c' =>
          c'.application = a ∧ timeSlot c'.timestamp = timeSlot c.timestamp) := by
  by_cases short : a.name.utf8ByteSize ≤ Identifier.maxLength
  · have fits : Identifier.Fits a.name := ⟨short, mt Bytes.getLast?_ofText trimmed⟩
    refine ⟨_, responses_eq fits nonneg ordered bound, ?_,
      mem_minutes (w := ⟨w.range, 1⟩) sound bounded keeps fits nonneg ordered bound rfl filled⟩
    refine (SortedMap.values_ascending fun time r found => ?_).imp compare_lt_iff_lt.1
    rw [get?_minute (w := ⟨w.range, 1⟩) sound bounded keeps fits nonneg ordered bound rfl filled] at found
    split at found
    · cases found
    · rw [← Option.some.inj found]
      rfl
  · have nobody : ∀ c ∈ answers, c.application ≠ a := by
      rintro c member rfl
      exact short (Identifier.fits_of_valid (sound c member).name).1
    refine ⟨[], ?_, .nil, fun r => ?_⟩
    · rw [responses, rows_of_long (Nat.lt_of_not_le short)]
      rfl
    · constructor
      · intro member
        cases member
      · rintro ⟨c, member, mine, -⟩
        exact absurd mine (nobody c member)

end

theorem Starts.filled {t : Tables} {s : Writing Side} (starts : Starts t s) : s.Filled where
  store := starts.store ▸ Store.filled_empty
  underWay i r member := by
    rw [Writing.underWay, starts.deliveries] at member
    cases member

section

variable {t : Tables} {s : Writing Side} (starts : Starts t s)
  {recording finishing : List (Writing.Action Side)} (quiet : ∀ a ∈ recording, a.Quiet)
  (room : s.admits recording) (flushes : ∀ a ∈ finishing, a.Flushes)
  (last : ∀ side kind, .flush side kind ∈ finishing)
  (done : (s.run (recording ++ finishing)).deliveries = [])

include starts quiet room flushes last done

/-- Answers that are recorded in any order, among others and with flushes in between, are read back
after a last flush of all writers: of an application, in a window of time, every minute in which it
answered, with the response times that its answers of that minute make when they are counted one by
one. -/
theorem answers_read_back {answers : List Answer} {others : List (Side × Mutation)}
    (recorded : (Writing.mutations recording).Perm
      ((answers.flatMap fun c => onSide .self c.mutations) ++ others))
    (apart : ∀ m ∈ others, m.1 ≠ .self) (sound : ∀ c ∈ answers, c.Sound)
    (bounded : Bounded ((answers.map Answer.call).flatMap Half.response.records))
    {a : Application} (trimmed : a.name.toList.getLast? ≠ some '\x00') {w : TimeWindow}
    (nonneg : 0 ≤ w.range.first) (ordered : w.range.first ≤ w.range.last)
    (bound : w.range.last ≤ lastMillis) :
    ∃ times, responses (s.run (recording ++ finishing)).store t a w = .ok times ∧
      times.Pairwise (fun r r' => r.time < r'.time) ∧
      ∀ r, r ∈ times ↔ ∃ c ∈ answers, c.application = a ∧ Asked w c.call ∧
        r = .ofAnswers a (timeSlot c.timestamp) (answers.filter fun c' =>
          c'.application = a ∧ timeSlot c'.timestamp = timeSlot c.timestamp) := by
  have elsewhere : Writing.addressed .self others = [] :=
    List.filterMap_eq_nil_iff.2 fun m member => if_neg (apart m member)
  have own : Writing.addressed .self (answers.flatMap fun c => onSide .self c.mutations) =
      ((answers.map Answer.call).flatMap Half.response.records).map
        (·.mutation ResponseColumn.encode) := by
    rw [addressed_calls .self .self fun c member => Half.response_eq (sound c member).name,
      if_pos rfl, List.map_flatMap, List.flatMap_map]
  have told : (Writing.told .self recording).Perm
      (((answers.map Answer.call).flatMap Half.response.records).map
        (·.mutation ResponseColumn.encode)) := by
    have addressed := recorded.filterMap fun e => if e.1 = Side.self then some e.2 else none
    rwa [← Writing.addressed, ← Writing.addressed, Writing.addressed_append, own, elsewhere,
      List.append_nil] at addressed
  have keeps := keeps_records starts quiet room flushes last done .self
    (Half.response_readable sound) told
  exact responses_eq_ofAnswers sound bounded keeps nonneg ordered bound
    (Writing.filled_run starts.filled (Writing.quiet_append_of_flushes quiet flushes)).store trimmed

end

/-- An answer, and a failed one of another agent at the end of that minute. -/
def twoAnswers : Answer × Answer :=
  (⟨⟨"shop", .tomcat⟩, "shop-1", 1200, false, 61000⟩,
    ⟨⟨"shop", .tomcat⟩, "shop-2", -5, true, 119999⟩)

/-- A call is recorded between the answers, while a flush is under way. -/
def answersRecorded : List (Writing.Action Side) :=
  let record (l : List (Side × Mutation)) : List (Writing.Action Side) :=
    l.map fun e => .mutate e.1 e.2
  record (onSide .self twoAnswers.2.mutations) ++ [.flush .self .counters] ++
    record (onSide .caller (Statistics.outbound twoCalls.1)) ++ [.answer 0] ++
    record (onSide .self twoAnswers.1.mutations)

theorem answers_read_back_two :
    let store := (threeWriters.run (answersRecorded ++ twoFinished)).store
    ∃ times, responses store twoBuckets ⟨"shop", .tomcat⟩ ⟨⟨60000, 130000⟩, 60000⟩ = .ok times ∧
      ∀ r, r ∈ times ↔ r = .ofAnswers ⟨"shop", .tomcat⟩ 60000 [twoAnswers.1, twoAnswers.2] := by
  have quiet : ∀ a ∈ answersRecorded, a.Quiet := by decide
  have recorded : (Writing.mutations answersRecorded).Perm
      (([twoAnswers.1, twoAnswers.2].flatMap fun c => onSide .self c.mutations) ++
        onSide .caller (Statistics.outbound twoCalls.1)) := List.isPerm_iff.1 (by cbv)
  have sound : ∀ c ∈ [twoAnswers.1, twoAnswers.2], c.Sound := by decide
  obtain ⟨times, read, -, which⟩ := answers_read_back threeWriters_starts quiet (by cbv)
    twoFinished_flushes mem_twoFinished (by cbv) recorded (by decide) sound (by decide)
    (a := ⟨"shop", .tomcat⟩) (by decide) (w := ⟨⟨60000, 130000⟩, 60000⟩) (by decide) (by decide)
    (by decide)
  refine ⟨times, read, fun r => (which r).trans ?_⟩
  simp [twoAnswers, Asked, timeSlot, slotMillis, Answer.call]

end Query

end Topology

end CallTelemetry
