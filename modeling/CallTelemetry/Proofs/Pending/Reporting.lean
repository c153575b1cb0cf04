import Mathlib
import CallTelemetry.Proofs.Pending.Conservation
import CallTelemetry.Proofs.Pending.Room

/-! What a writer reports of its work. Every refused change, every cell of a failed request, every cell
that could not be put back and every row or value that the store accepted is counted once; only the
values of a flush that is still running are not yet reported. -/
namespace CallTelemetry

open Pending

/-- The row additions and values of a request, which are reported when it succeeds. -/
def Request.parts : Request → List (Increment ⊕ Maximum)
  | .put .. => []
  | .increments _ rows => rows.map .inl
  | .maximum _ m => [.inr m]

/-- The cells of a request if it has failed. -/
def Request.failures (r : Request) : Except StoreError Unit → List Cell
  | .ok _ => []
  | .error _ => r.cells

/-- What a request adds to what is reported if it has succeeded. -/
def Request.successes (r : Request) : Except StoreError Unit → List (Increment ⊕ Maximum)
  | .ok _ => r.parts
  | .error _ => []

/-- A request of additions has a cell for every column of its rows. -/
theorem Request.length_cells_increments (table : TableName) (rows : List Increment) :
    (Request.increments table rows).cells.length = Increment.cellCount rows := by
  induction rows with
  | nil => rfl
  | cons i rows ih =>
    simp only [cells, additions, raises, List.append_nil, List.length_map, List.flatMap_cons,
      List.length_append, Increment.cellCount, List.foldr_cons] at ih ⊢
    rw [ih]
    simp [Increment.additions]

namespace Pending

namespace BatchedWriter

theorem report_increment (w : BatchedWriter) (cell : Cell) (delta : Int64) :
    (w.increment cell delta).2.report =
      if (w.increment cell delta).1 then w.report else w.report.addReject := by
  unfold increment
  cases w.counters.add w.counterLimit cell delta with
  | mk accepted after => cases accepted <;> rfl

theorem report_raise (w : BatchedWriter) (cell : Cell) (value : Int64) :
    (w.raise cell value).2.report =
      if (w.raise cell value).1 then w.report else w.report.addReject := by
  unfold raise
  cases w.maxima.raise w.maximumLimit cell value with
  | mk accepted after => cases accepted <;> rfl

theorem report_mutate (w : BatchedWriter) (m : Mutation) :
    (w.mutate m).report = if w.admits m then w.report else w.report.addReject := by
  unfold mutate admits target
  cases m.change with
  | add delta => exact w.report_increment _ delta
  | raise value => exact w.report_raise _ value

theorem report_restoreIncrement (w : BatchedWriter) (cell : Cell) (delta : Int64) :
    (w.restoreIncrement cell delta).2.report =
      if (w.counters.add w.counterLimit cell delta).1 then w.report
      else w.report.addRestoreReject 1 := by
  unfold restoreIncrement
  split
  next result => simp [result]
  next result => simp [result]

/-- Putting additions back reports those for which there is no room. -/
theorem report_restoreAll (l : List (Cell × Int64)) (w : BatchedWriter) :
    (w.restoreAll l).report =
      w.report.addRestoreReject (Counters.refusals w.counterLimit l w.counters).length := by
  induction l generalizing w with
  | nil => rfl
  | cons e l ih =>
    have limit : (w.restoreIncrement e.1 e.2).2.counterLimit = w.counterLimit :=
      same_of_bare (frame_restoreIncrement w e.1 e.2).1 fun _ => rfl
    refine (ih _).trans ?_
    rw [limit, counters_restoreIncrement, report_restoreIncrement, Counters.refusals]
    split
    · rfl
    · simp [Report.addRestoreReject]
      omega

theorem report_restoreUpdate (w : BatchedWriter) (table : TableName) (m : Maximum) :
    (restoreUpdate table w m).report = w.report.addRestoreReject
      (Maxima.refusals w.maximumLimit (w.returnedUpdate table m) w.maxima).length := by
  unfold restoreUpdate returnedUpdate restoreMaximum
  cases Salting.unsalted m.row with
  | error => rfl
  | ok row =>
    simp only [Maxima.refusals, List.append_nil]
    split
    next result => simp [result, Report.addRestoreReject]
    next result => simp [result]

theorem report_settle_error (w : BatchedWriter) {r : Request}
    (noPut : ∀ table row name value, r ≠ .put table row name value) (e : StoreError) :
    (w.settle r (.error e)).report = (w.report.addFailure r.cells.length).addRestoreReject
      ((w.refused r (.error e) .counters).length + (w.refused r (.error e) .maxima).length) := by
  cases r with
  | put table row name value => exact absurd rfl (noPut table row name value)
  | increments table rows =>
    rw [settle_increments_error, report_restoreAll, Request.length_cells_increments]
    rfl
  | maximum table m =>
    have none : w.refused (.maximum table m) (.error e) .counters = [] := rfl
    rw [settle, report_restoreUpdate, none, List.length_nil, Nat.zero_add]
    rfl

/-- What is reported when a request has ended, apart from what was written. -/
theorem report_settle (w : BatchedWriter) {r : Request}
    (noPut : ∀ table row name value, r ≠ .put table row name value)
    (outcome : Except StoreError Unit) :
    let report := (w.settle r outcome).report
    report.incrementReject = w.report.incrementReject ∧
      report.flushFailure = w.report.flushFailure + (r.failures outcome).length ∧
      report.restoreReject = w.report.restoreReject +
        ((w.refused r outcome .counters).length + (w.refused r outcome .maxima).length) := by
  cases outcome with
  | ok => cases r <;> exact ⟨rfl, rfl, rfl⟩
  | error e =>
    rw [w.report_settle_error noPut]
    exact ⟨rfl, rfl, rfl⟩

/-- The requests of a flush are of its kind. -/
theorem kind?_beginFlush {w : BatchedWriter} {kind : Flushing} {r : Request}
    (member : r ∈ (w.beginFlush kind).1) : r.kind? = some kind := by
  cases kind with
  | counters =>
    obtain ⟨table, rows, rfl, _⟩ := incrementRequests_origin member
    rfl
  | maxima =>
    obtain ⟨e, _, rfl⟩ := List.mem_map.1 member
    rfl

end BatchedWriter

/-- How much of what a flush has written is only reported when it ends. -/
def Flushing.deferred (kind : Flushing) (written : Nat) : Nat :=
  match kind with
  | .counters => 0
  | .maxima => written

namespace Writing

variable {ι : Type} [DecidableEq ι]

/-- The mutations of one writer that an action asks for and that are refused. -/
def turnedAway (i : ι) (s : Writing ι) : Action ι → List Mutation
  | .mutate j m => if j = i ∧ (s.writers i).admits m = false then [m] else []
  | _ => []

/-- The cells of a request of one writer that an action lets fail. -/
def failed (i : ι) (s : Writing ι) : Action ι → List Cell
  | .answer n =>
    match s.answered n with
    | some (j, r, outcome) => if j = i then r.failures outcome else []
    | none => []
  | _ => []

/-- The row additions and values that the store accepts from one writer by an action. -/
def carriedOut (i : ι) (s : Writing ι) : Action ι → List (Increment ⊕ Maximum)
  | .answer n =>
    match s.answered n with
    | some (j, r, outcome) => if j = i then r.successes outcome else []
    | none => []
  | _ => []

/-- Whether every waiting request is of the kind of its delivery. -/
def Sorted (s : Writing ι) : Prop :=
  ∀ d ∈ s.deliveries, ∀ r ∈ d.waiting, r.kind? = some d.kind

/-- How much deliveries of one writer have written that is not yet reported. -/
def deferred (i : ι) (l : List (Delivery ι)) : Nat :=
  ((l.filter fun d => d.writer = i).map fun d => d.kind.deferred d.written).sum

def unreported (s : Writing ι) (i : ι) : Nat := deferred i s.deliveries

theorem deferred_insert (i : ι) (before after : List (Delivery ι)) (d : Delivery ι) :
    deferred i (before ++ d :: after) = deferred i (before ++ after) +
      if d.writer = i then d.kind.deferred d.written else 0 := by
  by_cases here : d.writer = i
  · simp [deferred, here]
    omega
  · simp [deferred, here]

theorem Rests.unreported {s : Writing ι} {i : ι} (rests : s.Rests i) : s.unreported i = 0 := by
  have none : (s.deliveries.filter fun d => d.writer = i) = [] := by
    simpa [Rests] using rests
  rw [Writing.unreported, deferred, none]
  rfl

theorem sorted_step {s : Writing ι} (sorted : s.Sorted) (a : Action ι) : (s.step a).Sorted := by
  cases a with
  | flush i kind =>
    intro d member r waits
    unfold step flush at member
    dsimp only at member
    split at member
    · exact sorted d member r waits
    · rcases List.mem_append.1 member with member | new
      · exact sorted d member r waits
      · obtain rfl := List.mem_singleton.1 new
        exact BatchedWriter.kind?_beginFlush waits
  | answer n =>
    rw [step]
    rcases answer_delivery s n with ⟨_, same⟩ |
      ⟨before, d, after, r, rest, _, now, waiting, _, _, ⟨_, then_, _⟩ | ⟨then_, _⟩⟩
    · rwa [same]
    · intro d' member
      refine sorted d' ?_
      rw [then_] at member
      rw [now]
      rcases List.mem_append.1 member with member | member
      · exact List.mem_append_left _ member
      · exact List.mem_append_right _ (List.mem_cons_of_mem _ member)
    · intro d' member r' waits
      rw [then_] at member
      simp only [List.mem_append, List.mem_cons] at member
      rcases member with member | rfl | member
      · exact sorted d' (by simp [now, member]) r' waits
      · exact sorted d (by simp [now]) r' (by rw [waiting]; exact List.mem_cons_of_mem _ waits)
      · exact sorted d' (by simp [now, member]) r' waits
  | _ => exact sorted

/-- What a writer has reported, and what it still has to. -/
structure Reported (s : Writing ι) (i : ι) (away failed dropped carriedOut : Nat) : Prop where
  incrementReject : (s.writers i).report.incrementReject = away
  flushFailure : (s.writers i).report.flushFailure = failed
  restoreReject : (s.writers i).report.restoreReject = dropped
  flushAll : (s.writers i).report.flushAll + s.unreported i = carriedOut

theorem report_endFlush (w : BatchedWriter) (kind : Flushing) (written : Nat) :
    (endFlush w kind written).report.flushAll = w.report.flushAll + kind.deferred written ∧
      (endFlush w kind written).report.incrementReject = w.report.incrementReject ∧
      (endFlush w kind written).report.flushFailure = w.report.flushFailure ∧
      (endFlush w kind written).report.restoreReject = w.report.restoreReject := by
  cases kind <;> exact ⟨rfl, rfl, rfl, rfl⟩

/-- An accepted request is reported at once, or it is to be reported at the end of its flush. -/
theorem flushAll_settle (w : BatchedWriter) {r : Request} {kind : Flushing}
    (sorted : r.kind? = some kind) (outcome : Except StoreError Unit) (written : Nat) :
    (w.settle r outcome).report.flushAll +
        kind.deferred (Timeline.countWritten kind outcome written) =
      w.report.flushAll + kind.deferred written +
        (r.successes outcome).length := by
  have noPut (table : TableName) (row : Bytes) (name : CellName) (value : Bytes) :
      r ≠ .put table row name value := by
    rintro rfl
    simp [Request.kind?] at sorted
  cases outcome with
  | error e =>
    rw [w.report_settle_error noPut]
    cases kind <;> rfl
  | ok =>
    cases r with
    | put => simp [Request.kind?] at sorted
    | increments table rows =>
      obtain rfl : .counters = kind := by simpa [Request.kind?] using sorted
      simp [Request.successes, Request.parts, Flushing.deferred]
      rfl
    | maximum table m =>
      obtain rfl : .maxima = kind := by simpa [Request.kind?] using sorted
      simp [Request.successes, Request.parts, Flushing.deferred, Timeline.countWritten,
        Nat.add_assoc]
      rfl

section

variable {s : Writing ι} {i : ι} {away failed dropped carriedOut : Nat}
  (reported : s.Reported i away failed dropped carriedOut)

include reported

theorem reported_mutate (j : ι) (m : Mutation) :
    (s.mutate j m).Reported i (away + (turnedAway i s (.mutate j m)).length) failed dropped
      carriedOut := by
  have report : ((s.mutate j m).writers i).report =
      if j = i ∧ (s.writers i).admits m = false then (s.writers i).report.addReject
      else (s.writers i).report := by
    rw [writers_mutate]
    by_cases here : j = i
    · subst here
      rw [replace_self, BatchedWriter.report_mutate]
      cases (s.writers j).admits m <;> simp
    · rw [replace_of_ne _ _ (Ne.symm here)]
      simp [here]
  by_cases refused : j = i ∧ (s.writers i).admits m = false
  · have one : turnedAway i s (.mutate j m) = [m] := if_pos refused
    rw [if_pos refused] at report
    refine ⟨?_, ?_, ?_, ?_⟩ <;> rw [report]
    · rw [one, ← reported.incrementReject]
      rfl
    · exact reported.flushFailure
    · exact reported.restoreReject
    · exact reported.flushAll
  · have none : turnedAway i s (.mutate j m) = [] := if_neg refused
    rw [if_neg refused] at report
    refine ⟨?_, ?_, ?_, ?_⟩ <;> rw [report]
    · rw [none]
      exact reported.incrementReject
    · exact reported.flushFailure
    · exact reported.restoreReject
    · exact reported.flushAll

/-- Beginning a flush forgets recent refusals only, and has nothing to report. -/
theorem reported_flush (j : ι) (kind : Flushing) :
    (s.flush j kind).Reported i away failed dropped carriedOut := by
  have report : ∃ recentReject, ((s.flush j kind).writers i).report =
      { (s.writers i).report with recentReject } := by
    rw [writers_flush]
    by_cases here : i = j
    · subst here
      rw [replace_self]
      cases kind with
      | counters =>
        unfold BatchedWriter.beginFlush BatchedWriter.drainCounters
        dsimp only
        split <;> exact ⟨_, rfl⟩
      | maxima => exact ⟨_, rfl⟩
    · rw [replace_of_ne _ _ here]
      exact ⟨_, rfl⟩
  have unreported : (s.flush j kind).unreported i = s.unreported i := by
    unfold Writing.unreported flush
    dsimp only
    split
    · rfl
    · have nothing : kind.deferred 0 = 0 := by cases kind <;> rfl
      rw [deferred_insert, List.append_nil]
      simp [nothing]
  obtain ⟨recentReject, report⟩ := report
  refine ⟨?_, ?_, ?_, ?_⟩ <;> rw [report]
  · exact reported.incrementReject
  · exact reported.flushFailure
  · exact reported.restoreReject
  · rw [unreported]
    exact reported.flushAll

theorem reported_answer (sound : s.Sound) (sorted : s.Sorted) (n : Nat) :
    (s.answer n).Reported i away (failed + (Writing.failed i s (.answer n)).length)
      (dropped + ((refused i .counters s (.answer n)).length +
        (refused i .maxima s (.answer n)).length))
      (carriedOut + (Writing.carriedOut i s (.answer n)).length) := by
  rcases answer_delivery s n with ⟨none, same⟩ |
    ⟨before, d, after, r, rest, _, now, waiting, found, _, then_⟩
  · simpa [Writing.failed, refused, Writing.carriedOut, none, same] using reported
  have unreported : s.unreported i = deferred i (before ++ after) +
      if d.writer = i then d.kind.deferred d.written else 0 := by
    rw [Writing.unreported, now, deferred_insert]
  by_cases here : d.writer = i
  · subst here
    have kind : r.kind? = some d.kind := sorted d (by simp [now]) r (by simp [waiting])
    have member : (d.writer, r) ∈ s.underWay :=
      List.mem_flatMap.2 ⟨d, by simp [now], List.mem_map.2 ⟨r, by simp [waiting], rfl⟩⟩
    obtain ⟨incrementReject, flushFailure, restoreReject⟩ :=
      (s.writers d.writer).report_settle (sound.formed _ r member).noPut (s.store.carryOut r).1
    have flushAll := flushAll_settle (s.writers d.writer) kind (s.store.carryOut r).1 d.written
    have reportedAll := reported.flushAll
    rw [unreported, if_pos rfl] at reportedAll
    simp only [Writing.failed, refused, Writing.carriedOut, found, ↓reduceIte]
    rcases then_ with ⟨rfl, then_, writers⟩ | ⟨then_, writers⟩
    · obtain ⟨all, same⟩ := report_endFlush
        ((s.writers d.writer).settle r (s.store.carryOut r).1) d.kind
        (Timeline.countWritten d.kind (s.store.carryOut r).1 d.written)
      refine ⟨?_, ?_, ?_, ?_⟩ <;> rw [writers, replace_self]
      · rw [same.1, incrementReject, reported.incrementReject]
      · rw [same.2.1, flushFailure, reported.flushFailure]
      · rw [same.2.2, restoreReject, reported.restoreReject]
      · rw [all, Writing.unreported, then_]
        omega
    · have now : (s.answer n).unreported d.writer = deferred d.writer (before ++ after) +
          d.kind.deferred (Timeline.countWritten d.kind (s.store.carryOut r).1 d.written) := by
        rw [Writing.unreported, then_, deferred_insert, if_pos rfl]
      refine ⟨?_, ?_, ?_, ?_⟩ <;> rw [writers, replace_self]
      · rw [incrementReject, reported.incrementReject]
      · rw [flushFailure, reported.flushFailure]
      · rw [restoreReject, reported.restoreReject]
      · rw [now]
        omega
  · have apart : i ≠ d.writer := Ne.symm here
    have same : (s.answer n).writers i = s.writers i ∧
        (s.answer n).unreported i = s.unreported i := by
      rw [unreported, if_neg here, Writing.unreported]
      rcases then_ with ⟨rfl, then_, writers⟩ | ⟨then_, writers⟩
      · rw [writers, then_]
        exact ⟨replace_of_ne _ _ apart, rfl⟩
      · rw [writers, then_, deferred_insert, if_neg here]
        exact ⟨replace_of_ne _ _ apart, rfl⟩
    simp only [Writing.failed, refused, Writing.carriedOut, found, if_neg here, List.length_nil,
      Nat.add_zero]
    refine ⟨?_, ?_, ?_, ?_⟩ <;> rw [same.1]
    · exact reported.incrementReject
    · exact reported.flushFailure
    · exact reported.restoreReject
    · rw [same.2]
      exact reported.flushAll

/-- Every step counts what it does. -/
theorem reported_step (sound : s.Sound) (sorted : s.Sorted) (a : Action ι) :
    (s.step a).Reported i (away + (turnedAway i s a).length)
      (failed + (Writing.failed i s a).length)
      (dropped + ((refused i .counters s a).length + (refused i .maxima s a).length))
      (carriedOut + (Writing.carriedOut i s a).length) := by
  cases a with
  | mutate j m => exact reported_mutate reported j m
  | flush j kind => exact reported_flush reported j kind
  | answer n => exact reported_answer reported sound sorted n
  | _ => exact ⟨reported.incrementReject, reported.flushFailure, reported.restoreReject,
      reported.flushAll⟩

theorem reported_run (sound : s.Sound) (sorted : s.Sorted) (actions : List (Action ι)) :
    (s.run actions).Reported i (away + (along (turnedAway i) s actions).length)
      (failed + (along (Writing.failed i) s actions).length)
      (dropped + ((along (refused i .counters) s actions).length +
        (along (refused i .maxima) s actions).length))
      (carriedOut + (along (Writing.carriedOut i) s actions).length) := by
  induction actions generalizing s away failed dropped carriedOut with
  | nil => exact reported
  | cons a actions ih =>
    have rest := ih (reported_step reported sound sorted a) (sound_step sound a)
      (sorted_step sorted a)
    simp only [along, List.length_append]
    refine ⟨rest.incrementReject.trans ?_, rest.flushFailure.trans ?_,
      rest.restoreReject.trans ?_, rest.flushAll.trans ?_⟩ <;> omega

end

/-- After any run, the containers of a writer that starts with nothing to write know how many cells
they hold and have room for them, and refuse a mutation just when its cell is not there and they are
full. -/
theorem bounded_run {s : Writing ι} {i : ι} (fresh : (s.writers i).bare = s.writers i)
    {room : Flushing → Nat} (limited : ∀ kind, (s.writers i).limit kind = some (room kind))
    (actions : List (Action ι)) :
    let w := (s.run actions).writers i
    (∀ kind, w.count kind = (w.pending kind).size ∧ (w.pending kind).size ≤ room kind) ∧
    ∀ m, w.admits m = false ↔
      (w.pending m.kind).get? (w.target m) = none ∧ (w.pending m.kind).size = room m.kind := by
  intro w
  have counted : w.Counted := counted_run (fresh ▸ BatchedWriter.counted_bare _) actions
  have limit (kind : Flushing) : w.limit kind = some (room kind) := by
    rw [← limited kind]
    exact BatchedWriter.same_of_bare (bare_run s actions i) (f := fun w => w.limit kind) fun _ => by
      cases kind <;> rfl
  refine ⟨fun kind => ?_, fun m => BatchedWriter.admits_eq_false_iff counted (limit m.kind)⟩
  have full := counted.pending kind
  exact ⟨full.exact, full.exact ▸ full.within _ (limit kind)⟩

/-- A writer that starts with nothing to write and nothing reported reports what a run does. -/
theorem reported_of_idle {s : Writing ι} (idle : s.Idle) {i : ι}
    (fresh : (s.writers i).bare = s.writers i) (actions : List (Action ι)) :
    (s.run actions).Reported i (along (turnedAway i) s actions).length
      (along (failed i) s actions).length
      ((along (refused i .counters) s actions).length +
        (along (refused i .maxima) s actions).length)
      (along (carriedOut i) s actions).length := by
  have report : (s.writers i).report = .empty := by
    rw [← fresh]
    rfl
  have before : s.Reported i 0 0 0 0 := by
    refine ⟨?_, ?_, ?_, ?_⟩ <;> rw [report]
    · rfl
    · rfl
    · rfl
    · rw [Writing.unreported, idle.deliveries]
      rfl
  have sorted : s.Sorted := by simp [Sorted, idle.deliveries]
  simpa only [Nat.zero_add] using reported_run before idle.sound sorted actions

/-- A writer that starts with nothing to write, nothing counted and nothing reported, and whose two
containers have room for so many cells. After any run each of them knows how many cells it holds, and
there is room for these; a mutation is refused just when its cell is not there and the container is
full; and the report has counted what was refused, what failed, what could not be put back, and, when
no flush is running, what the store has accepted. -/
theorem pending_bounded {s : Writing ι} (idle : s.Idle) {i : ι}
    (fresh : (s.writers i).bare = s.writers i) {room : Flushing → Nat}
    (limited : ∀ kind, (s.writers i).limit kind = some (room kind)) (actions : List (Action ι)) :
    let t := s.run actions
    let w := t.writers i
    (∀ kind, w.count kind = (w.pending kind).size ∧ (w.pending kind).size ≤ room kind) ∧
    (∀ m, w.admits m = false ↔
      (w.pending m.kind).get? (w.target m) = none ∧ (w.pending m.kind).size = room m.kind) ∧
    w.report.incrementReject = (along (turnedAway i) s actions).length ∧
    (t.Rests i →
      w.report.restoreReject = (along (refused i .counters) s actions).length +
        (along (refused i .maxima) s actions).length ∧
      w.report.flushFailure = (along (failed i) s actions).length ∧
      w.report.flushAll = (along (carriedOut i) s actions).length) := by
  intro t w
  have bounded := bounded_run fresh limited actions
  have after := reported_of_idle idle fresh actions
  refine ⟨bounded.1, bounded.2, after.incrementReject, fun rests =>
    ⟨after.restoreReject, after.flushFailure, ?_⟩⟩
  have all := after.flushAll
  rwa [rests.unreported, Nat.add_zero] at all

/-- Both containers have room for two cells. A third addition is refused; a request of two rows fails,
and a cell that came meanwhile has taken the place of one of them. -/
def crowded : Writing Unit where
  writers _ := ⟨⟨"t"⟩, [0], ⟨6, by decide, by decide⟩, 2, some 2, some 2, .empty, .empty, .empty⟩
  store := .empty
  deliveries := []

def crowding : List (Action Unit) :=
  let add (row : UInt8) : Action Unit := .mutate () ⟨⟨[row], true⟩, [1], .add 1⟩
  let raise (row : UInt8) : Action Unit := .mutate () ⟨⟨[row], true⟩, [1], .raise 7⟩
  [add 1, add 2, add 3, raise 1, raise 2, raise 3, .flush () .counters, .failNext 1, add 4,
    .answer 0, .flush () .maxima, .answer 0, .failNext 1, .answer 0, .flush () .counters, .answer 0]

theorem pending_bounded_crowded :
    let t := crowded.run crowding
    let w := t.writers ()
    (∀ kind, w.count kind = (w.pending kind).size ∧ (w.pending kind).size ≤ 2) ∧
    (∀ m, w.admits m = false ↔
      (w.pending m.kind).get? (w.target m) = none ∧ (w.pending m.kind).size = 2) ∧
    w.report.incrementReject = (along (turnedAway ()) crowded crowding).length ∧
    w.report.restoreReject = (along (refused () .counters) crowded crowding).length +
      (along (refused () .maxima) crowded crowding).length ∧
    w.report.flushFailure = (along (failed ()) crowded crowding).length ∧
    w.report.flushAll = (along (carriedOut ()) crowded crowding).length := by
  have limited (kind : Flushing) : (crowded.writers ()).limit kind = some 2 := by
    cases kind <;> rfl
  have bounded := pending_bounded (s := crowded) ⟨fun _ kind => by cases kind <;> rfl, rfl⟩ rfl
    limited crowding
  have done : (crowded.run crowding).deliveries = [] := by cbv
  exact ⟨bounded.1, bounded.2.1, bounded.2.2.1, bounded.2.2.2 (by simp [Rests, done])⟩

example : ((crowded.run crowding).writers ()).report = ⟨3, 2, 0, 3, 1, 0, true⟩ := by cbv

end Writing

end Pending

end CallTelemetry
