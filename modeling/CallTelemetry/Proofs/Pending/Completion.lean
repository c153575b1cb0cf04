import CallTelemetry.Proofs.Pending.Ledger

/-! Runs that come to their end undisturbed: no request fails, and nobody else writes. When nothing is
left to write, the store holds what the writers accepted, and nothing else. -/
namespace CallTelemetry

open Pending

namespace Store

/-- Whether every cell is a word. -/
def Words (s : Store) : Prop := ∀ c bytes, s.cell? c = some bytes → ∃ x, bytes = Bytes.ofInt64 x

theorem words_apply {s : Store} (words : s.Words) {r : Request}
    (noPut : ∀ table row name value, r ≠ .put table row name value) : (s.apply r).Words := by
  intro c bytes found
  cases r with
  | put table row name value => exact absurd rfl (noPut table row name value)
  | increments table rows =>
    rw [cell?_apply_increments] at found
    split at found
    · exact words c bytes found
    · exact ⟨_, (Option.some.inj found).symm⟩
  | maximum table m =>
    rw [cell?_apply_maximum] at found
    split at found
    · obtain rfl := Option.some.inj found
      rcases raised_origin (s.cell? c) m.value with kept | new
      · exact words c _ kept
      · exact ⟨_, new⟩
    · exact words c bytes found

theorem words_carryOut {s : Store} (words : s.Words) {r : Request}
    (noPut : ∀ table row name value, r ≠ .put table row name value) : (s.carryOut r).2.Words := by
  unfold carryOut
  split
  · exact words_apply words noPut
  · exact words

/-- Words that are worth the same as counters are the same, if a missing one counts as zero. -/
theorem Words.counter_eq {s s' : Store} (words : s.Words) (words' : s'.Words) {c : Cell}
    (same : s.counterAt c = s'.counterAt c) :
    (s.cell? c).getD (Bytes.ofInt64 0) = (s'.cell? c).getD (Bytes.ofInt64 0) := by
  have value {s : Store} (words : s.Words) :
      (s.cell? c).getD (Bytes.ofInt64 0) = Bytes.ofInt64 (s.counterAt c) := by
    cases found : s.cell? c with
    | none => simp [counterAt, found, counter]
    | some bytes =>
      obtain ⟨x, rfl⟩ := words c bytes found
      simp [counterAt, found, counter]
  rw [value words, value words', same]

theorem Words.peak_eq {s s' : Store} (words : s.Words) (words' : s'.Words) {c : Cell}
    (same : s.peakAt c = s'.peakAt c) : s.cell? c = s'.cell? c := by
  have value {s : Store} (words : s.Words) : s.cell? c = (s.peakAt c).map Bytes.ofInt64 := by
    cases found : s.cell? c with
    | none => simp [peakAt, found]
    | some bytes =>
      obtain ⟨x, rfl⟩ := words c bytes found
      simp [peakAt, found, counter]
  rw [value words, value words', same]

end Store

namespace Pending.Writing

variable {ι : Type} [DecidableEq ι]

/-- An action that neither makes requests fail nor writes for somebody else. -/
def Action.Quiet : Action ι → Prop
  | .failNext _ | .carryOut _ => False
  | _ => True

instance {ι : Type} (a : Action ι) : Decidable a.Quiet :=
  match a with
  | .failNext _ | .carryOut _ => inferInstanceAs (Decidable False)
  | .mutate _ _ | .flush _ _ | .answer _ | .slow _ | .arrive => inferInstanceAs (Decidable True)

theorem dueFailures_carryOut {s : Store} {r : Request} (none : s.dueFailures = 0) :
    s.carryOut r = (.ok (), s.apply r) := by
  simp [Store.carryOut, none]

theorem dueFailures_apply (s : Store) (r : Request) :
    (s.apply r).dueFailures = s.dueFailures := by
  have rows (table : TableName) (l : List Increment) (s : Store) :
      (l.foldl (Store.increment table) s).dueFailures = s.dueFailures := by
    induction l generalizing s with
    | nil => rfl
    | cons i l ih => exact ih _
  cases r with
  | put => rfl
  | increments table l => exact rows table l s
  | maximum => rfl

theorem dueFailures_step {s : Writing ι} (none : s.store.dueFailures = 0) {a : Action ι}
    (quiet : a.Quiet) : (s.step a).store.dueFailures = 0 := by
  cases a with
  | mutate i m => exact none
  | flush i kind =>
    unfold step flush
    dsimp only
    split <;> exact none
  | answer n =>
    rw [step]
    rcases answer_cases s n with ⟨_, same⟩ | ⟨i, r, _, _, _, _, _, _, _, _, store⟩
    · rw [same, none]
    · rw [store, dueFailures_carryOut none]
      exact (dueFailures_apply s.store r).trans none
  | slow latency => exact none
  | arrive => exact none
  | _ => exact absurd quiet id

theorem dueFailures_run {s : Writing ι} (none : s.store.dueFailures = 0)
    {actions : List (Action ι)} (quiet : ∀ a ∈ actions, a.Quiet) :
    (s.run actions).store.dueFailures = 0 := by
  induction actions generalizing s with
  | nil => exact none
  | cons a actions ih =>
    exact ih (dueFailures_step none (quiet a List.mem_cons_self)) fun a' member =>
      quiet a' (List.mem_cons_of_mem _ member)

theorem refused_of_quiet {s : Writing ι} (none : s.store.dueFailures = 0) (i : ι) (kind : Flushing)
    (a : Action ι) : refused i kind s a = [] := by
  cases a with
  | answer n =>
    rcases answer_cases s n with ⟨nothing, _⟩ | ⟨j, r, _, _, _, _, found, _⟩
    · simp [refused, nothing]
    · simp only [refused, found, dueFailures_carryOut none]
      cases kind <;> simp [BatchedWriter.refused, BatchedWriter.restored, Counters.refusals,
        Maxima.refusals]
  | _ => rfl

theorem along_refused_of_quiet {s : Writing ι} (none : s.store.dueFailures = 0)
    {actions : List (Action ι)} (quiet : ∀ a ∈ actions, a.Quiet) (i : ι) (kind : Flushing) :
    along (refused i kind) s actions = [] := by
  induction actions generalizing s with
  | nil => rfl
  | cons a actions ih =>
    rw [along, refused_of_quiet none, List.nil_append]
    exact ih (dueFailures_step none (quiet a List.mem_cons_self)) fun a' member =>
      quiet a' (List.mem_cons_of_mem _ member)

theorem words_step {s : Writing ι} (sound : s.Sound) (words : s.store.Words) {a : Action ι}
    (quiet : a.Quiet) : (s.step a).store.Words := by
  cases a with
  | mutate i m => exact words
  | flush i kind =>
    unfold step flush
    dsimp only
    split <;> exact words
  | answer n =>
    rw [step]
    rcases answer_cases s n with ⟨_, same⟩ | ⟨i, r, _, _, _, _, _, now, _, _, store⟩
    · rwa [same]
    · rw [store]
      exact Store.words_carryOut words (sound.formed i r (by simp [now])).noPut
  | slow latency => exact words
  | arrive => exact words
  | _ => exact absurd quiet id

theorem words_run {s : Writing ι} (sound : s.Sound) (words : s.store.Words)
    {actions : List (Action ι)} (quiet : ∀ a ∈ actions, a.Quiet) :
    (s.run actions).store.Words := by
  induction actions generalizing s with
  | nil => exact words
  | cons a actions ih =>
    exact ih (sound_step sound a) (words_step sound words (quiet a List.mem_cons_self))
      fun a' member => quiet a' (List.mem_cons_of_mem _ member)

/-- The mutations of actions, with the writers that are told them. -/
def mutations (actions : List (Action ι)) : List (ι × Mutation) :=
  actions.filterMap fun
    | .mutate i m => some (i, m)
    | _ => none

def addressed (i : ι) (l : List (ι × Mutation)) : List Mutation :=
  l.filterMap fun e => if e.1 = i then some e.2 else none

theorem addressed_append (i : ι) (l l' : List (ι × Mutation)) :
    addressed i (l ++ l') = addressed i l ++ addressed i l' := List.filterMap_append

/-- The mutations that one writer is told. -/
def told (i : ι) (actions : List (Action ι)) : List Mutation := addressed i (mutations actions)

theorem told_append (i : ι) (actions actions' : List (Action ι)) :
    told i (actions ++ actions') = told i actions ++ told i actions' := by
  rw [told, mutations, List.filterMap_append, addressed_append]
  rfl

theorem mem_told {i : ι} {m : Mutation} {actions : List (Action ι)}
    (member : .mutate i m ∈ actions) : m ∈ told i actions :=
  List.mem_filterMap.2 ⟨(i, m), List.mem_filterMap.2 ⟨_, member, rfl⟩, if_pos rfl⟩

theorem told_of_flushes {actions : List (Action ι)} (flushes : ∀ a ∈ actions, a.Flushes) (i : ι) :
    told i actions = [] := by
  have none : mutations actions = [] := by
    refine List.filterMap_eq_nil_iff.2 fun a member => ?_
    rcases (flushes a member).eq_flush_or_answer with ⟨j, kind, rfl⟩ | ⟨n, rfl⟩ <;> rfl
  rw [told, none]
  rfl

/-- Whether there is room for every mutation when its turn comes. -/
def admits (s : Writing ι) : List (Action ι) → Bool
  | [] => true
  | .mutate i m :: actions => (s.writers i).admits m && (s.mutate i m).admits actions
  | a :: actions => (s.step a).admits actions

theorem admits_append (s : Writing ι) (actions actions' : List (Action ι)) :
    s.admits (actions ++ actions') = (s.admits actions && (s.run actions).admits actions') := by
  induction actions generalizing s with
  | nil => rfl
  | cons a actions ih =>
    cases a with
    | mutate i m =>
      rw [List.cons_append, admits, ih, admits, Bool.and_assoc]
      rfl
    | _ => exact ih _

theorem admits_of_flushes {s : Writing ι} {actions : List (Action ι)}
    (flushes : ∀ a ∈ actions, a.Flushes) : s.admits actions := by
  induction actions generalizing s with
  | nil => rfl
  | cons a actions ih =>
    have rest (s : Writing ι) := ih (s := s) fun a' member =>
      flushes a' (List.mem_cons_of_mem _ member)
    rcases (flushes a List.mem_cons_self).eq_flush_or_answer with ⟨j, kind, rfl⟩ | ⟨n, rfl⟩
    · exact rest (s.flush j kind)
    · exact rest (s.answer n)

theorem along_accepted {s : Writing ι} {actions : List (Action ι)} (room : s.admits actions) (i : ι)
    (kind : Flushing) :
    along (accepted i kind) s actions =
      (told i actions).flatMap fun m => (s.writers i).changes m kind := by
  induction actions generalizing s with
  | nil => rfl
  | cons a actions ih =>
    have same : ((s.step a).writers i).changes = (s.writers i).changes :=
      changes_of_bare (bare_step s a i)
    cases a with
    | mutate j m =>
      obtain ⟨here, later⟩ := Bool.and_eq_true_iff.1 room
      have rest := ih (s := s.step (.mutate j m)) later
      rw [same] at rest
      rw [along, rest]
      by_cases mine : j = i
      · subst mine
        simp [accepted, BatchedWriter.admitted, here, told, addressed, mutations]
      · simp [accepted, mine, told, addressed, mutations]
    | _ =>
      rw [along, ih room, same]
      rfl

theorem along_accepted_of_flushes {s : Writing ι} {actions : List (Action ι)}
    (flushes : ∀ a ∈ actions, a.Flushes) (i : ι) (kind : Flushing) :
    along (accepted i kind) s actions = [] := by
  rw [along_accepted (admits_of_flushes flushes), told_of_flushes flushes]
  rfl

theorem Action.Flushes.quiet {ι : Type} {a : Action ι} (flushes : a.Flushes) : a.Quiet := by
  cases a <;> trivial

theorem quiet_append_of_flushes {ι : Type} {actions finishing : List (Action ι)}
    (quiet : ∀ a ∈ actions, a.Quiet) (flushes : ∀ a ∈ finishing, a.Flushes) :
    ∀ a ∈ actions ++ finishing, a.Quiet := fun a member =>
  (List.mem_append.1 member).elim (quiet a) fun inside => (flushes a inside).quiet

/-- Once a writer has been flushed, nothing becomes pending again while flushes come to their end. -/
theorem pending_of_flushes {s : Writing ι} (none : s.store.dueFailures = 0)
    {actions : List (Action ι)} (flushes : ∀ a ∈ actions, a.Flushes) {i : ι} {kind : Flushing}
    (flushed : .flush i kind ∈ actions ∨ (s.writers i).pending kind = .empty) :
    ((s.run actions).writers i).pending kind = .empty := by
  induction actions generalizing s with
  | nil => exact flushed.resolve_left List.not_mem_nil
  | cons a actions ih =>
    have here := flushes a List.mem_cons_self
    refine ih (s := s.step a) (dueFailures_step none here.quiet)
      (fun a' member => flushes a' (List.mem_cons_of_mem _ member)) ?_
    rcases here.eq_flush_or_answer with ⟨j, kind', rfl⟩ | ⟨n, rfl⟩
    · rw [step, writers_flush]
      by_cases mine : i = j
      · subst mine
        rw [replace_self, BatchedWriter.pending_beginFlush]
        by_cases same : kind = kind'
        · exact .inr (if_pos same)
        · rw [if_neg same]
          exact flushed.imp_left fun member => by simpa [same] using member
      · rw [replace_of_ne _ _ mine]
        exact flushed.imp_left fun member => by simpa [mine] using member
    · refine flushed.imp (fun member => by simpa using member) fun empty => ?_
      rw [step]
      rcases answer_cases s n with ⟨_, same⟩ | ⟨j, r, _, _, report, _, _, _, _, writers, _⟩
      · rwa [same]
      · rw [writers]
        by_cases mine : i = j
        · subst mine
          obtain ⟨report', settled⟩ := (s.writers i).settle_ok r
          rw [replace_self, dueFailures_carryOut none, settled]
          cases kind <;> exact empty
        · rwa [replace_of_ne _ _ mine]

/-- When nothing is left to write, all that there is of a cell is stored. -/
theorem balance_of_done (l : Ledger) {s : Writing ι} {i : ι} {c : Cell}
    (nothing : ((s.writers i).pending l.kind).get? c = none) (done : s.deliveries = []) :
    l.balance s i c = l.stored (s.store.cell? (s.place i c)) := by
  have way : s.onWay i l.kind = [] := by
    rw [onWay, underWay, done]
    rfl
  rw [Ledger.balance, nothing, way, l.held_none, l.total_nil, l.join_nothing, l.join_nothing]

/-- When all is written, a cell of its own holds what its writer accepted for it. -/
theorem stored_of_done (l : Ledger) {s : Writing ι} (idle : s.Idle)
    (noFailures : s.store.dueFailures = 0) {i : ι} {c : Cell} {actions : List (Action ι)}
    (quiet : ∀ a ∈ actions, a.Quiet)
    (spares : ∀ a ∈ actions, s.Spares (some (i, l.kind)) (s.place i c) a)
    (nothing : (((s.run actions).writers i).pending l.kind).get? c = none)
    (done : (s.run actions).deliveries = []) :
    l.stored ((s.run actions).store.cell? (s.place i c)) =
      l.join (l.stored (s.store.cell? (s.place i c)))
        (l.total c (along (accepted i l.kind) s actions)) := by
  have balanced := l.balance_of_idle idle spares
  rwa [balance_of_done l nothing done, place_run, along_refused_of_quiet noFailures quiet,
    l.total_nil, l.join_nothing] at balanced

end Pending.Writing

end CallTelemetry
