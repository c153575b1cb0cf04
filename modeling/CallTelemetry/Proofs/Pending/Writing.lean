import CallTelemetry.Proofs.Pending.Settling
import CallTelemetry.Timeline

/-! Writers that share a store, in every order in which their work can be done. Mutations, flushes
and the answers of the store come one at a time; between two requests of a flush anything else may
happen, also further flushes of the same writer. -/
namespace CallTelemetry.Pending

/-- A flush under way. The first of its waiting requests has arrived at the store. -/
structure Delivery (ι : Type) where
  writer : ι
  kind : Flushing
  waiting : List Request
  written : Nat

structure Writing (ι : Type) where
  writers : ι → BatchedWriter
  store : Store
  deliveries : List (Delivery ι)

namespace Writing

inductive Action (ι : Type) where
  | mutate (i : ι) (m : Mutation)
  | flush (i : ι) (kind : Flushing)
  /-- The store carries out the first waiting request of a delivery. -/
  | answer (n : Nat)
  | failNext (count : Nat)
  | slow (latency : Option Nat)
  /-- A request of somebody else arrives. -/
  | arrive
  /-- The store carries out a request of somebody else. -/
  | carryOut (r : Request)

/-- An action of flushes that are under way, or of the next one. -/
def Action.Flushes {ι : Type} : Action ι → Prop
  | .flush _ _ | .answer _ => True
  | _ => False

instance {ι : Type} (a : Action ι) : Decidable a.Flushes :=
  match a with
  | .flush _ _ | .answer _ => inferInstanceAs (Decidable True)
  | .mutate _ _ | .failNext _ | .slow _ | .arrive | .carryOut _ => inferInstanceAs (Decidable False)

theorem Action.Flushes.eq_flush_or_answer {ι : Type} {a : Action ι} (flushes : a.Flushes) :
    (∃ i kind, a = .flush i kind) ∨ ∃ n, a = .answer n := by
  cases a with
  | flush i kind => exact .inl ⟨i, kind, rfl⟩
  | answer n => exact .inr ⟨n, rfl⟩
  | _ => exact absurd flushes id

section

variable {ι : Type}

/-- The requests that are still to be carried out, with their writers. -/
def underWay (s : Writing ι) : List (ι × Request) :=
  s.deliveries.flatMap fun d => d.waiting.map (d.writer, ·)

/-- The request that an answer is about, and how it ends. -/
def answered (s : Writing ι) (n : Nat) : Option (ι × Request × Except StoreError Unit) :=
  match s.deliveries[n]? with
  | some ⟨i, _, r :: _, _⟩ => some (i, r, (s.store.carryOut r).1)
  | _ => none

/-- Every pending change is one of the writer's own, and every request can be put back. -/
structure Sound (s : Writing ι) : Prop where
  owned : ∀ i kind x, ((s.writers i).pending kind).get? x ≠ none → (s.writers i).owns x
  formed : ∀ i r, (i, r) ∈ s.underWay → (s.writers i).Formed r

/-- Whether a writer still has a change for a cell, pending or on its way. -/
def Holds (s : Writing ι) (i : ι) (kind : Flushing) (x : Cell) : Prop :=
  ((s.writers i).pending kind).get? x ≠ none ∨
    ∃ r, (i, r) ∈ s.underWay ∧ ∃ e ∈ (s.writers i).returned r kind, e.1 = x

theorem Holds.owned {s : Writing ι} (sound : s.Sound) {i : ι} {kind : Flushing} {x : Cell}
    (holds : s.Holds i kind x) : (s.writers i).owns x := by
  rcases holds with present | ⟨r, member, e, back, rfl⟩
  · exact sound.owned i kind x present
  · exact (sound.formed i r member).owned kind e back

/-- Writers that have nothing pending and nothing on its way. -/
structure Idle (s : Writing ι) : Prop where
  pending : ∀ i kind, (s.writers i).pending kind = .empty
  deliveries : s.deliveries = []

theorem Idle.underWay {s : Writing ι} (idle : s.Idle) : s.underWay = [] := by
  rw [Writing.underWay, idle.deliveries]
  rfl

theorem Idle.sound {s : Writing ι} (idle : s.Idle) : s.Sound := by
  refine ⟨fun i kind x present => ?_, fun i r member => ?_⟩
  · simp [idle.pending i kind] at present
  · simp [idle.underWay] at member

theorem Idle.holds {s : Writing ι} (idle : s.Idle) (i : ι) (kind : Flushing) (x : Cell) :
    ¬s.Holds i kind x := by
  rintro (present | ⟨r, member, _⟩)
  · simp [idle.pending i kind] at present
  · simp [idle.underWay] at member

end

section

variable {ι : Type} [DecidableEq ι]

def replace (writers : ι → BatchedWriter) (i : ι) (w : BatchedWriter) : ι → BatchedWriter :=
  fun j => if j = i then w else writers j

def mutate (s : Writing ι) (i : ι) (m : Mutation) : Writing ι :=
  { s with writers := replace s.writers i ((s.writers i).mutate m) }

def flush (s : Writing ι) (i : ι) (kind : Flushing) : Writing ι :=
  let (requests, w) := (s.writers i).beginFlush kind
  let s := { s with writers := replace s.writers i w }
  if requests.isEmpty then s
  else { s with store := s.store.arrive, deliveries := s.deliveries ++ [⟨i, kind, requests, 0⟩] }

def endFlush (w : BatchedWriter) (kind : Flushing) (written : Nat) : BatchedWriter :=
  match kind with
  | .counters => w
  | .maxima => w.endMaxima written

/-- The next request of the delivery arrives when its writer has taken notice of the answer. -/
def answer (s : Writing ι) (n : Nat) : Writing ι :=
  match s.deliveries[n]? with
  | some ⟨i, kind, r :: rest, written⟩ =>
    let (outcome, store) := s.store.carryOut r
    let w := (s.writers i).settle r outcome
    let written := Timeline.countWritten kind outcome written
    if rest.isEmpty then
      ⟨replace s.writers i (endFlush w kind written), store, s.deliveries.eraseIdx n⟩
    else ⟨replace s.writers i w, store.arrive, s.deliveries.set n ⟨i, kind, rest, written⟩⟩
  | _ => s

def step (s : Writing ι) : Action ι → Writing ι
  | .mutate i m => s.mutate i m
  | .flush i kind => s.flush i kind
  | .answer n => s.answer n
  | .failNext count => { s with store := { s.store with dueFailures := count } }
  | .slow latency => { s with store := { s.store with latency } }
  | .arrive => { s with store := s.store.arrive }
  | .carryOut r => { s with store := (s.store.carryOut r).2 }

def run (s : Writing ι) (actions : List (Action ι)) : Writing ι := actions.foldl step s

/-- What the actions of a run come to, each in the state that it meets. -/
def along (f : Writing ι → Action ι → List α) : Writing ι → List (Action ι) → List α
  | _, [] => []
  | s, a :: actions => f s a ++ along f (s.step a) actions

@[simp] theorem replace_self (writers : ι → BatchedWriter) (i : ι) (w : BatchedWriter) :
    replace writers i w i = w := by
  simp [replace]

theorem replace_of_ne (writers : ι → BatchedWriter) {i j : ι} (w : BatchedWriter) (apart : j ≠ i) :
    replace writers i w j = writers j := by
  simp [replace, apart]

theorem replace_replace (writers : ι → BatchedWriter) (i : ι) (w w' : BatchedWriter) :
    replace (replace writers i w) i w' = replace writers i w' := by
  funext j
  by_cases same : j = i <;> simp [replace, same]

theorem run_append (s : Writing ι) (l l' : List (Action ι)) :
    s.run (l ++ l') = (s.run l).run l' := List.foldl_append

theorem along_append (f : Writing ι → Action ι → List α) (s : Writing ι) (l l' : List (Action ι)) :
    along f s (l ++ l') = along f s l ++ along f (s.run l) l' := by
  induction l generalizing s with
  | nil => rfl
  | cons a l ih =>
    rw [List.cons_append, along, ih, along, List.append_assoc]
    rfl

theorem underWay_flush (s : Writing ι) (i : ι) (kind : Flushing) :
    (s.flush i kind).underWay =
      s.underWay ++ ((s.writers i).beginFlush kind).1.map (i, ·) := by
  unfold flush underWay
  cases requests : ((s.writers i).beginFlush kind).1 with
  | nil => simp [requests]
  | cons r rest => simp [requests]

theorem writers_mutate (s : Writing ι) (i : ι) (m : Mutation) :
    (s.mutate i m).writers = replace s.writers i ((s.writers i).mutate m) := rfl

theorem writers_flush (s : Writing ι) (i : ι) (kind : Flushing) :
    (s.flush i kind).writers = replace s.writers i ((s.writers i).beginFlush kind).2 := by
  unfold flush
  dsimp only
  split <;> rfl

theorem endFlush_report (w : BatchedWriter) (kind : Flushing) (written : Nat) :
    ∃ report, endFlush w kind written = { w with report } := by
  cases kind with
  | counters => exact ⟨w.report, rfl⟩
  | maxima => exact ⟨_, rfl⟩

/-- All that an answer can do to a delivery: its first request is carried out, its writer takes notice,
and after the last one the flush ends. -/
theorem answer_delivery (s : Writing ι) (n : Nat) :
    (s.answered n = none ∧ s.answer n = s) ∨
    ∃ before d after r rest requests,
      let outcome := (s.store.carryOut r).1
      let w := (s.writers d.writer).settle r outcome
      let written := Timeline.countWritten d.kind outcome d.written
      s.deliveries = before ++ d :: after ∧ d.waiting = r :: rest ∧
      s.answered n = some (d.writer, r, outcome) ∧
      (s.answer n).store = { (s.store.carryOut r).2 with requests } ∧
      (rest = [] ∧ (s.answer n).deliveries = before ++ after ∧
          (s.answer n).writers = replace s.writers d.writer (endFlush w d.kind written) ∨
        (s.answer n).deliveries = before ++ { d with waiting := rest, written } :: after ∧
          (s.answer n).writers = replace s.writers d.writer w) := by
  unfold answer answered
  split
  next i kind r rest written found =>
    right
    obtain ⟨within, here⟩ := List.getElem?_eq_some_iff.1 found
    have parts : s.deliveries =
        s.deliveries.take n ++ ⟨i, kind, r :: rest, written⟩ :: s.deliveries.drop (n + 1) := by
      rw [← here, List.getElem_cons_drop, List.take_append_drop]
    let d : Delivery ι := ⟨i, kind, r :: rest, written⟩
    cases rest with
    | nil =>
      refine ⟨s.deliveries.take n, d, s.deliveries.drop (n + 1), r, [],
        (s.store.carryOut r).2.requests, parts, rfl, rfl, rfl, .inl ⟨rfl, ?_, rfl⟩⟩
      exact List.eraseIdx_eq_take_drop_succ _ _
    | cons r' rest =>
      refine ⟨s.deliveries.take n, d, s.deliveries.drop (n + 1), r, r' :: rest,
        (s.store.carryOut r).2.requests + 1, parts, rfl, rfl, rfl, .inr ⟨?_, rfl⟩⟩
      simp [List.set_eq_take_append_cons_drop, within, d]
  next => exact .inl ⟨rfl, rfl⟩

/-- All that an answer can do: one request leaves the deliveries, the store carries it out, and its
writer takes notice of how it ended. -/
theorem answer_cases (s : Writing ι) (n : Nat) :
    (s.answered n = none ∧ s.answer n = s) ∨
    ∃ i r before after report requests,
      s.answered n = some (i, r, (s.store.carryOut r).1) ∧
      s.underWay = before ++ (i, r) :: after ∧
      (s.answer n).underWay = before ++ after ∧
      (s.answer n).writers = replace s.writers i
        { (s.writers i).settle r (s.store.carryOut r).1 with report } ∧
      (s.answer n).store = { (s.store.carryOut r).2 with requests } := by
  let requests (l : List (Delivery ι)) := l.flatMap fun d => d.waiting.map (d.writer, ·)
  rcases answer_delivery s n with none |
    ⟨before, d, after, r, rest, arrived, now, waiting, found, store, ended | goes⟩
  · exact .inl none
  · obtain ⟨rfl, then_, writers⟩ := ended
    obtain ⟨report, same⟩ := endFlush_report ((s.writers d.writer).settle r (s.store.carryOut r).1)
      d.kind (Timeline.countWritten d.kind (s.store.carryOut r).1 d.written)
    refine .inr ⟨d.writer, r, requests before, requests after, report, arrived, found, ?_, ?_,
      same ▸ writers, store⟩
    · simp [underWay, now, waiting, requests]
    · simp [underWay, then_, requests]
  · obtain ⟨then_, writers⟩ := goes
    refine .inr ⟨d.writer, r, requests before, rest.map (d.writer, ·) ++ requests after,
      ((s.writers d.writer).settle r (s.store.carryOut r).1).report, arrived, found, ?_, ?_,
      writers, store⟩
    · simp [underWay, now, waiting, requests]
    · simp [underWay, then_, requests]

/-- All that can become of a writer in one step. -/
theorem writer_cases (s : Writing ι) (a : Action ι) (i : ι) :
    (s.step a).writers i = s.writers i ∨
    (∃ m, a = .mutate i m ∧ (s.step a).writers i = (s.writers i).mutate m) ∨
    (∃ kind, a = .flush i kind ∧ (s.step a).writers i = ((s.writers i).beginFlush kind).2) ∨
    ∃ n r outcome report, a = .answer n ∧ s.answered n = some (i, r, outcome) ∧
      (s.step a).writers i = { (s.writers i).settle r outcome with report } := by
  have replaced (j : ι) (w : BatchedWriter) :
      replace s.writers j w i = s.writers i ∨ i = j ∧ replace s.writers j w i = w := by
    by_cases here : i = j
    · subst here
      exact .inr ⟨rfl, replace_self _ _ _⟩
    · exact .inl (replace_of_ne _ _ here)
  cases a with
  | mutate j m =>
    rw [step, writers_mutate]
    rcases replaced j ((s.writers j).mutate m) with same | ⟨rfl, changed⟩
    · exact .inl same
    · exact .inr (.inl ⟨m, rfl, changed⟩)
  | flush j kind =>
    rw [step, writers_flush]
    rcases replaced j ((s.writers j).beginFlush kind).2 with same | ⟨rfl, changed⟩
    · exact .inl same
    · exact .inr (.inr (.inl ⟨kind, rfl, changed⟩))
  | answer n =>
    rw [step]
    rcases answer_cases s n with ⟨_, same⟩ | ⟨j, r, _, _, report, _, found, _, _, writers, _⟩
    · rw [same]
      exact .inl rfl
    · rw [writers]
      rcases replaced j { (s.writers j).settle r (s.store.carryOut r).1 with report } with
        same | ⟨rfl, changed⟩
      · exact .inl same
      · exact .inr (.inr (.inr ⟨n, r, _, report, rfl, found, changed⟩))
  | _ => exact .inl rfl

/-! What a run leaves as it was. -/

theorem bare_step (s : Writing ι) (a : Action ι) (i : ι) :
    ((s.step a).writers i).bare = (s.writers i).bare := by
  rcases writer_cases s a i with same | ⟨m, _, same⟩ | ⟨kind, _, same⟩ | ⟨_, r, _, _, _, _, same⟩
  · rw [same]
  · rw [same, BatchedWriter.bare_mutate]
  · rw [same, BatchedWriter.bare_beginFlush]
  · rw [same]
    exact BatchedWriter.bare_settle _ r _

theorem bare_run (s : Writing ι) (actions : List (Action ι)) (i : ι) :
    ((s.run actions).writers i).bare = (s.writers i).bare := by
  induction actions generalizing s with
  | nil => rfl
  | cons a actions ih => exact (ih (s.step a)).trans (bare_step s a i)

section

variable {w w' : BatchedWriter} (same : w'.bare = w.bare)

include same

theorem owns_of_bare {x : Cell} (owns : w.owns x) : w'.owns x :=
  (BatchedWriter.same_of_bare same (f := fun w => w.owns x) fun _ => rfl).mpr owns

theorem returned_of_bare (r : Request) (kind : Flushing) :
    w'.returned r kind = w.returned r kind :=
  BatchedWriter.same_of_bare same (f := fun w => w.returned r kind) fun _ => rfl

theorem salting_of_bare : w'.salting = w.salting :=
  BatchedWriter.same_of_bare same fun _ => rfl

theorem target_of_bare (m : Mutation) : w'.target m = w.target m :=
  BatchedWriter.same_of_bare same (f := fun w => w.target m) fun _ => rfl

theorem changes_of_bare : w'.changes = w.changes :=
  BatchedWriter.same_of_bare same fun _ => rfl

end

/-- A flush sends what was pending. -/
theorem pending_of_returned {w : BatchedWriter} {kind kind' : Flushing}
    (owned : ∀ x, (w.pending kind').get? x ≠ none → w.owns x) {r : Request}
    (member : r ∈ (w.beginFlush kind').1) {e : Cell × Int64} (back : e ∈ w.returned r kind) :
    (w.pending kind).get? e.1 = some e.2 := by
  have change : saltedEntry w.salting e ∈ r.changes kind := by
    rw [(BatchedWriter.formed_beginFlush owned member).changes kind]
    exact List.mem_map_of_mem back
  have listed := (w.changes_beginFlush kind' kind).mem_iff.1
    (List.mem_flatMap.2 ⟨r, member, change⟩)
  split at listed
  next same =>
    subst same
    obtain ⟨d, drained, salted⟩ := List.mem_map.1 listed
    rw [← saltedEntry_injective w.salting salted]
    exact BatchedWriter.pending_of_drained drained
  next => simp at listed

section

variable {s : Writing ι} {i j : ι} {kind : Flushing} {x : Cell}

theorem holds_mutate {m : Mutation} (holds : (s.mutate j m).Holds i kind x) :
    s.Holds i kind x ∨ i = j ∧ m.kind = kind ∧ (s.writers i).target m = x := by
  have frame := returned_of_bare (bare_step s (.mutate j m) i)
  rcases holds with present | ⟨r, member, back⟩
  · by_cases here : i = j
    · subst here
      rw [writers_mutate, replace_self] at present
      rcases BatchedWriter.pending_origin (BatchedWriter.counters_mutate _ m)
        (BatchedWriter.maxima_mutate _ m) present with present | ⟨e, change, same⟩
      · exact .inl (.inl present)
      · simp only [BatchedWriter.changes, List.mem_ite_nil_right, List.mem_singleton] at change
        obtain ⟨kind', rfl⟩ := change
        exact .inr ⟨rfl, kind', same⟩
    · rw [writers_mutate, replace_of_ne _ _ here] at present
      exact .inl (.inl present)
  · exact .inl (.inr ⟨r, member, frame r kind ▸ back⟩)

theorem holds_flush (sound : s.Sound) {kind' : Flushing}
    (holds : (s.flush j kind').Holds i kind x) : s.Holds i kind x := by
  have frame := returned_of_bare (bare_step s (.flush j kind') i)
  rcases holds with present | ⟨r, member, back⟩
  · rw [writers_flush] at present
    by_cases here : i = j
    · subst here
      rw [replace_self, BatchedWriter.pending_beginFlush] at present
      split at present
      · simp at present
      · exact .inl present
    · rw [replace_of_ne _ _ here] at present
      exact .inl present
  · replace back := frame r kind ▸ back
    rw [underWay_flush, List.mem_append] at member
    rcases member with member | new
    · exact .inr ⟨r, member, back⟩
    · obtain ⟨r', member, same⟩ := List.mem_map.1 new
      obtain ⟨rfl, rfl⟩ := Prod.mk.inj same
      obtain ⟨e, back, rfl⟩ := back
      exact .inl (by simp [pending_of_returned (sound.owned j kind') member back])

theorem holds_answer {n : Nat} (holds : (s.answer n).Holds i kind x) : s.Holds i kind x := by
  have frame := returned_of_bare (bare_step s (.answer n) i)
  rcases answer_cases s n with ⟨_, same⟩ | ⟨j, r, before, after, _, _, _, now, then_, writers, _⟩
  · rwa [same] at holds
  · rcases holds with present | ⟨r', member, back⟩
    · rw [writers] at present
      by_cases here : i = j
      · subst here
        rw [replace_self] at present
        rcases BatchedWriter.pending_origin (BatchedWriter.counters_settle _ r _)
          (BatchedWriter.maxima_settle _ r _) present with present | ⟨e, back, same⟩
        · exact .inl present
        · unfold BatchedWriter.restored at back
          split at back
          · simp at back
          · exact .inr ⟨r, by simp [now], e, back, same⟩
      · rw [replace_of_ne _ _ here] at present
        exact .inl present
    · refine .inr ⟨r', ?_, frame r' kind ▸ back⟩
      rw [then_] at member
      rw [now]
      rcases List.mem_append.1 member with member | member
      · exact List.mem_append_left _ member
      · exact List.mem_append_right _ (List.mem_cons_of_mem _ member)

/-- What a writer holds it held before, unless it was just told to. -/
theorem holds_step (sound : s.Sound) {a : Action ι} (holds : (s.step a).Holds i kind x) :
    s.Holds i kind x ∨ ∃ m, a = .mutate i m ∧ m.kind = kind ∧ (s.writers i).target m = x := by
  cases a with
  | mutate j m =>
    rcases holds_mutate holds with held | ⟨rfl, told⟩
    · exact .inl held
    · exact .inr ⟨m, rfl, told⟩
  | flush j kind' => exact .inl (holds_flush sound holds)
  | answer n => exact .inl (holds_answer holds)
  | failNext count => exact .inl holds
  | slow latency => exact .inl holds
  | arrive => exact .inl holds
  | carryOut r => exact .inl holds

end

theorem underWay_step {s : Writing ι} {a : Action ι} {i : ι} {r : Request}
    (member : (i, r) ∈ (s.step a).underWay) :
    (i, r) ∈ s.underWay ∨ ∃ kind, a = .flush i kind ∧ r ∈ ((s.writers i).beginFlush kind).1 := by
  cases a with
  | flush j kind =>
    rw [step, underWay_flush, List.mem_append] at member
    rcases member with member | new
    · exact .inl member
    · obtain ⟨r', member, same⟩ := List.mem_map.1 new
      obtain ⟨rfl, rfl⟩ := Prod.mk.inj same
      exact .inr ⟨kind, rfl, member⟩
  | answer n =>
    left
    rcases answer_cases s n with ⟨_, same⟩ | ⟨j, r', before, after, _, _, _, now, then_, _, _⟩
    · rwa [step, same] at member
    · rw [step, then_] at member
      rw [now]
      rcases List.mem_append.1 member with member | member
      · exact List.mem_append_left _ member
      · exact List.mem_append_right _ (List.mem_cons_of_mem _ member)
  | _ => exact .inl member

theorem sound_step {s : Writing ι} (sound : s.Sound) (a : Action ι) : (s.step a).Sound := by
  refine ⟨fun i kind x present => ?_, fun i r member => ?_⟩
  · refine owns_of_bare (bare_step s a i) ?_
    rcases holds_step sound (.inl present) with held | ⟨m, _, _, rfl⟩
    · exact held.owned sound
    · exact ⟨rfl, rfl⟩
  · refine BatchedWriter.Formed.of_bare ?_ (bare_step s a i)
    rcases underWay_step member with member | ⟨kind, _, member⟩
    · exact sound.formed i r member
    · exact BatchedWriter.formed_beginFlush (sound.owned i kind) member

end

end Writing

end CallTelemetry.Pending
