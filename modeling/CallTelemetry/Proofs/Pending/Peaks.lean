import CallTelemetry.Proofs.Pending.Conservation

/-! Values that a cell is raised to. However the flushes of a writer overlap and fail, what the store
has of such a cell only grows, it is a value that the writer accepted, and the largest is not lost. -/
namespace CallTelemetry

open Pending

namespace Pending

theorem mem_of_peak {c : Cell} {l : List (Cell × Int64)} {v : Int64} (largest : peak c l = some v) :
    (c, v) ∈ l := by
  induction l with
  | nil => simp at largest
  | cons e l ih =>
    rw [peak_cons] at largest
    rcases merge_max_eq_or largest with first | rest
    · obtain ⟨rfl, rfl⟩ : e.1 = c ∧ e.2 = v := by simpa using first
      exact List.mem_cons_self
    · exact List.mem_cons_of_mem _ (ih rest)

/-- A pending value was pending before, or it has just been put in. -/
theorem Maxima.raise_origin {limit : Option Nat} {m : Maxima} {e : Cell × Int64} {x : Cell}
    {v : Int64} (held : (m.raise limit e.1 e.2).2.cells.get? x = some v) :
    m.cells.get? x = some v ∨ (x, v) = e := by
  cases result : m.raise limit e.1 e.2 with
  | mk accepted after =>
    rw [result] at held
    cases accepted with
    | false =>
      rw [raise_refused result] at held
      exact .inl held
    | true =>
      rw [raise_accepted result] at held
      by_cases same : x = e.1
      · subst same
        cases found : m.cells.get? e.1 with
        | none =>
          obtain rfl : e.2 = v := by simpa [found] using held
          exact .inr rfl
        | some before =>
          have merged : Option.merge max (some before) (some e.2) = some v := by
            simpa [found] using held
          exact (merge_max_eq_or merged).imp id fun new => by
            rw [← Option.some.inj new]
      · rw [if_neg same] at held
        exact .inl held

theorem Maxima.raiseAll_origin {limit : Option Nat} {l : List (Cell × Int64)} {m : Maxima}
    {x : Cell} {v : Int64} (held : (m.raiseAll limit l).cells.get? x = some v) :
    m.cells.get? x = some v ∨ (x, v) ∈ l := by
  induction l generalizing m with
  | nil => exact .inl held
  | cons e l ih =>
    rcases ih held with held | member
    · rcases raise_origin held with held | rfl
      · exact .inl held
      · exact .inr List.mem_cons_self
    · exact .inr (List.mem_cons_of_mem _ member)

theorem BatchedWriter.maxima_mutate_origin {w : BatchedWriter} {m : Mutation} {x : Cell} {v : Int64}
    (held : (w.mutate m).maxima.cells.get? x = some v) :
    w.maxima.cells.get? x = some v ∨ (x, v) ∈ w.admitted m .maxima := by
  rw [get?_mutate] at held
  exact (merge_max_eq_or held).imp id mem_of_peak

end Pending

theorem Store.cell?_apply_origin {s : Store} {r : Request} {c : Cell}
    (raised : c ∈ r.cells → r.kind? = some .maxima) {bytes : Bytes}
    (stored : (s.apply r).cell? c = some bytes) :
    s.cell? c = some bytes ∨ ∃ v, (c, v) ∈ r.raises ∧ bytes = Bytes.ofInt64 v := by
  by_cases touched : c ∈ r.cells
  · cases r with
    | put => simp [Request.kind?] at raised; exact absurd touched raised
    | increments => simp [Request.kind?] at raised; exact absurd touched raised
    | maximum table m =>
      have here : c = ⟨table, m.row, m.name.family, m.name.qualifier⟩ := by
        simpa [Request.cells, Request.additions, Request.raises] using touched
      rw [cell?_apply_maximum, if_pos here] at stored
      obtain rfl := Option.some.inj stored
      rcases raised_origin (s.cell? c) m.value with kept | new
      · exact .inl kept
      · exact .inr ⟨m.value, by simp [Request.raises, here], new⟩
  · rw [cell?_apply_of_not_mem touched] at stored
    exact .inl stored

namespace Pending.Writing

section

variable {ι : Type}

/-- Wherever a value of a cell is, stored, pending or on its way, it is one of those listed. -/
structure Sourced (s : Writing ι) (i : ι) (c : Cell) (listed : List (Cell × Int64)) : Prop where
  stored : ∀ bytes, s.store.cell? (s.place i c) = some bytes →
    ∃ v, (c, v) ∈ listed ∧ bytes = Bytes.ofInt64 v
  pending : ∀ v, (s.writers i).maxima.cells.get? c = some v → (c, v) ∈ listed
  returned : ∀ r v, (i, r) ∈ s.underWay → (c, v) ∈ (s.writers i).returned r .maxima →
    (c, v) ∈ listed

theorem Idle.sourced {s : Writing ι} (idle : s.Idle) {i : ι} {c : Cell}
    (absent : s.store.cell? (s.place i c) = none) (listed : List (Cell × Int64)) :
    s.Sourced i c listed where
  stored bytes found := by simp [absent] at found
  pending v found := by
    have empty : (s.writers i).maxima.cells = .empty := idle.pending i .maxima
    simp [empty] at found
  returned r v member := by simp [idle.underWay] at member

end

variable {ι : Type} [DecidableEq ι]

/-- The changes of one writer that an action puts back, or would if there were room. -/
def putBack (i : ι) (kind : Flushing) (s : Writing ι) : Action ι → List (Cell × Int64)
  | .answer n =>
    match s.answered n with
    | some (j, r, outcome) => if j = i then (s.writers i).restored r outcome kind else []
    | none => []
  | _ => []

section

variable {s : Writing ι} {i : ι} {c : Cell} {listed : List (Cell × Int64)}

theorem stored_step (sound : s.Sound) (separate : s.Separate (some (i, .maxima)) (s.place i c))
    (sourced : s.Sourced i c listed) {a : Action ι}
    (spares : s.Spares (some (i, .maxima)) (s.place i c) a) {bytes : Bytes}
    (found : (s.step a).store.cell? (s.place i c) = some bytes) :
    ∃ v, (c, v) ∈ listed ∧ bytes = Bytes.ofInt64 v := by
  rcases cell?_step_origin sound separate spares with same | ⟨j, r, kind, owned, member, made, applied⟩
  · exact sourced.stored bytes (same.symm.trans found)
  · obtain ⟨rfl, rfl⟩ := Prod.mk.inj (Option.some.inj owned)
    rw [applied] at found
    rcases Store.cell?_apply_origin (fun _ => made) found with kept | ⟨v, raised, rfl⟩
    · exact sourced.stored bytes kept
    · have change : (s.place i c, v) ∈ r.changes .maxima := raised
      rw [(sound.formed i r member).changes .maxima] at change
      obtain ⟨e, back, salted⟩ := List.mem_map.1 change
      obtain rfl : e = (c, v) := saltedEntry_injective (s.writers i).salting salted
      exact ⟨v, sourced.returned r v member back, rfl⟩

/-- A pending value was pending before, or the action has put it in or back. -/
theorem pending_step_origin {a : Action ι} {v : Int64}
    (held : ((s.step a).writers i).maxima.cells.get? c = some v) :
    (s.writers i).maxima.cells.get? c = some v ∨
      (c, v) ∈ accepted i .maxima s a ∨ (c, v) ∈ putBack i .maxima s a := by
  rcases writer_cases s a i with same | ⟨m, rfl, same⟩ | ⟨kind, rfl, same⟩ |
    ⟨n, r, outcome, _, rfl, found, same⟩
  · exact .inl (same ▸ held)
  · rw [same] at held
    rcases BatchedWriter.maxima_mutate_origin held with held | admitted
    · exact .inl held
    · exact .inr (.inl (by simpa [accepted] using admitted))
  · rw [same] at held
    change (((s.writers i).beginFlush kind).2.pending .maxima).get? c = some v at held
    rw [BatchedWriter.pending_beginFlush] at held
    split at held
    · simp at held
    · exact .inl held
  · rw [same, BatchedWriter.maxima_settle] at held
    rcases Maxima.raiseAll_origin held with held | back
    · exact .inl held
    · exact .inr (.inr (by simpa [putBack, found] using back))

theorem putBack_origin {kind : Flushing} {a : Action ι} {e : Cell × Int64}
    (back : e ∈ putBack i kind s a) :
    ∃ r, (i, r) ∈ s.underWay ∧ e ∈ (s.writers i).returned r kind := by
  cases a with
  | answer n =>
    rcases answer_cases s n with ⟨none, _⟩ | ⟨j, r, _, _, _, _, found, now, _⟩
    · simp [putBack, none] at back
    · by_cases here : j = i
      · subst here
        simp only [putBack, found, ↓reduceIte, BatchedWriter.restored] at back
        split at back
        · simp at back
        · exact ⟨r, by simp [now], back⟩
      · simp [putBack, found, here] at back
  | _ => simp [putBack] at back

theorem pending_step (sourced : s.Sourced i c listed) {a : Action ι}
    (known : ∀ e ∈ accepted i .maxima s a, e ∈ listed) {v : Int64}
    (held : ((s.step a).writers i).maxima.cells.get? c = some v) : (c, v) ∈ listed := by
  rcases pending_step_origin held with held | new | back
  · exact sourced.pending v held
  · exact known _ new
  · obtain ⟨r, member, back⟩ := putBack_origin back
    exact sourced.returned r v member back

theorem returned_step (sound : s.Sound) (sourced : s.Sourced i c listed) {a : Action ι}
    {r : Request} {v : Int64} (member : (i, r) ∈ (s.step a).underWay)
    (back : (c, v) ∈ ((s.step a).writers i).returned r .maxima) : (c, v) ∈ listed := by
  rw [returned_of_bare (bare_step s a i)] at back
  rcases underWay_step member with member | ⟨kind, _, member⟩
  · exact sourced.returned r v member back
  · have held := pending_of_returned (sound.owned i kind) member back
    exact sourced.pending v held

/-- No action makes up a value. -/
theorem sourced_step (sound : s.Sound)
    (separate : s.Separate (some (i, .maxima)) (s.place i c)) (sourced : s.Sourced i c listed)
    {a : Action ι} (spares : s.Spares (some (i, .maxima)) (s.place i c) a)
    (known : ∀ e ∈ accepted i .maxima s a, e ∈ listed) : (s.step a).Sourced i c listed where
  stored _ found := stored_step sound separate sourced spares (place_step s a i c ▸ found)
  pending _ found := pending_step sourced known found
  returned _ _ member back := returned_step sound sourced member back

theorem sourced_run (sourced : s.Sourced i c listed) {actions : List (Action ι)}
    (guarded : s.Guarded (some (i, .maxima)) (s.place i c) actions)
    (known : ∀ e ∈ along (accepted i .maxima) s actions, e ∈ listed) :
    (s.run actions).Sourced i c listed := by
  induction actions generalizing s with
  | nil => exact sourced
  | cons a actions ih =>
    have first := sourced_step guarded.sound guarded.separate sourced guarded.head fun e member =>
      known e (List.mem_append_left _ member)
    exact ih first (place_step s a i c ▸ guarded.tail) fun e member =>
      known e (List.mem_append_right _ member)

/-- One action does not lower what the store has of a cell. -/
theorem peakAt_step (sound : s.Sound) (separate : s.Separate (some (i, .maxima)) (s.place i c))
    {a : Action ι} (spares : s.Spares (some (i, .maxima)) (s.place i c) a) {v : Int64}
    (stored : s.store.peakAt (s.place i c) = some v) :
    ∃ v', (s.step a).store.peakAt (s.place i c) = some v' ∧ v ≤ v' := by
  rw [Store.peakAt]
  rcases cell?_step_origin sound separate spares with same | ⟨_, r, _, owned, _, made, applied⟩
  · rw [same]
    exact ⟨v, stored, Int64.le_refl v⟩
  · obtain ⟨_, rfl⟩ := Prod.mk.inj (Option.some.inj owned)
    have raised : (s.store.apply r).peakAt (s.place i c) = _ := Store.peakAt_apply fun _ => made
    rw [applied, ← Store.peakAt, raised, stored]
    exact le_merge_max _

theorem peakAt_run {actions : List (Action ι)}
    (guarded : s.Guarded (some (i, .maxima)) (s.place i c) actions) {v : Int64}
    (stored : s.store.peakAt (s.place i c) = some v) :
    ∃ v', (s.run actions).store.peakAt (s.place i c) = some v' ∧ v ≤ v' := by
  induction actions generalizing s v with
  | nil => exact ⟨v, stored, Int64.le_refl v⟩
  | cons a actions ih =>
    have place := place_step s a i c
    obtain ⟨v', then_, le⟩ := peakAt_step guarded.sound guarded.separate guarded.head stored
    obtain ⟨v'', finally_, le'⟩ := ih (s := s.step a) (place ▸ guarded.tail) (place ▸ then_)
    exact ⟨v'', place ▸ finally_, Int64.le_trans le le'⟩

/-- A cell stays without a pending value while none is accepted or put back. -/
theorem absent_run (absent : (s.writers i).maxima.cells.get? c = none) {actions : List (Action ι)}
    (quiet : ∀ e ∈ along (accepted i .maxima) s actions, e.1 ≠ c)
    (carried : ∀ e ∈ along (putBack i .maxima) s actions, e.1 ≠ c) :
    ((s.run actions).writers i).maxima.cells.get? c = none := by
  induction actions generalizing s with
  | nil => exact absent
  | cons a actions ih =>
    have here : ((s.step a).writers i).maxima.cells.get? c = none := by
      refine Option.eq_none_iff_forall_ne_some.2 fun v held => ?_
      rcases pending_step_origin held with held | new | back
      · simp [absent] at held
      · exact quiet _ (List.mem_append_left _ new) rfl
      · exact carried _ (List.mem_append_left _ back) rfl
    exact ih here (fun e member => quiet e (List.mem_append_right _ member))
      fun e member => carried e (List.mem_append_right _ member)

theorem absent_flush (s : Writing ι) (i : ι) (c : Cell) :
    ((s.flush i .maxima).writers i).maxima.cells.get? c = none := by
  rw [writers_flush, replace_self]
  change (((s.writers i).beginFlush .maxima).2.pending .maxima).get? c = none
  rw [BatchedWriter.pending_beginFlush]
  rfl

end

/-- Writers that start with nothing to write, and a cell that is absent and that nobody else changes.
What the store has of the cell never decreases; the largest value that was accepted is stored,
pending, on its way or was refused when it could not be put back; and what is stored was accepted.
So the largest value is stored when the requests of a last flush are carried out, if nothing was
refused and nothing has come or been put back since it began. -/
theorem maxima_survive {s : Writing ι} (idle : s.Idle) {i : ι} {c : Cell}
    (absent : s.store.cell? (s.place i c) = none) {actions : List (Action ι)}
    (spares : ∀ a ∈ actions, s.Spares (some (i, .maxima)) (s.place i c) a) :
    let t := s.run actions
    let stored (t : Writing ι) := t.store.peakAt (s.place i c)
    let pending := (t.writers i).maxima.cells.get? c
    let drained := peak (s.place i c) (t.onWay i .maxima)
    let refused := along (refused i .maxima) s actions
    let accepted := along (accepted i .maxima) s actions
    (∀ before after, actions = before ++ after → ∀ v, stored (s.run before) = some v →
      ∃ v', stored t = some v' ∧ v ≤ v') ∧
    Option.merge max (Option.merge max (Option.merge max (stored t) pending) drained)
        (peak c refused) = peak c accepted ∧
    (∀ bytes, t.store.cell? (s.place i c) = some bytes →
      ∃ v, (c, v) ∈ accepted ∧ bytes = Bytes.ofInt64 v) ∧
    (∀ before after, actions = before ++ .flush i .maxima :: after →
      let u := (s.run before).flush i .maxima
      (∀ e ∈ along (Writing.accepted i .maxima) u after, e.1 ≠ c) →
      (∀ e ∈ along (putBack i .maxima) u after, e.1 ≠ c) →
      (∀ e ∈ refused, e.1 ≠ c) → t.Rests i →
      t.store.cell? (s.place i c) = (peak c accepted).map Bytes.ofInt64) := by
  intro t stored pending drained refused accepted
  have conserved : Option.merge max (Option.merge max (Option.merge max (stored t) pending) drained)
      (peak c refused) = peak c accepted := by
    have balanced := Ledger.maxima.balance_of_idle idle spares
    rw [absent, Ledger.balance, place_run] at balanced
    exact balanced.trans Option.merge_none_left
  have guarded := idle.guarded spares
  have sourced : t.Sourced i c accepted :=
    sourced_run (idle.sourced absent accepted) guarded fun _ => id
  have origin (bytes : Bytes) (found : t.store.cell? (s.place i c) = some bytes) :
      ∃ v, (c, v) ∈ accepted ∧ bytes = Bytes.ofInt64 v := by
    refine sourced.stored bytes ?_
    rwa [place_run]
  refine ⟨fun before after split v here => ?_, conserved, origin, ?_⟩
  · have rest : t = (s.run before).run after := by
      change s.run actions = _
      rw [split, run_append]
    have later := (split ▸ guarded).rest
    change (s.run before).store.peakAt _ = _ at here
    change ∃ v', t.store.peakAt _ = _ ∧ _
    rw [← place_run s before i c] at later here ⊢
    rw [rest]
    exact peakAt_run later here
  · intro before after split u quiet carried kept rests
    have none : pending = none := by
      have ended : t = u.run after := by
        change s.run actions = _
        rw [split, run_append]
        rfl
      change (t.writers i).maxima.cells.get? c = none
      rw [ended]
      exact absent_run (absent_flush _ i c) quiet carried
    have nothing : drained = Option.none := by
      change peak _ _ = _
      rw [rests.onWay .maxima]
      rfl
    have dropped : peak c refused = Option.none := Tally.peaks.total_eq_nothing kept
    rw [none, nothing, dropped] at conserved
    simp only [Option.merge_none_right] at conserved
    rw [← conserved]
    change _ = ((t.store.cell? _).map _).map _
    cases found : t.store.cell? (s.place i c) with
    | none => rfl
    | some bytes =>
      obtain ⟨v, _, rfl⟩ := origin bytes found
      simp [Store.counter]

/-- The flush that took the first value fails when a later one has already written a larger value, and
what it puts back meets a newer, smaller one. -/
def failingLate : List (Action Unit) :=
  let raise (value : Int64) : Action Unit := .mutate () ⟨⟨[1], true⟩, [1], .raise value⟩
  [raise (-3), .flush () .maxima, raise 9, .flush () .maxima, .answer 1, .failNext 1, raise (-5),
    .answer 0]

theorem maxima_survive_failingLate :
    let c : Cell := ⟨⟨"t"⟩, [1], [0], [1]⟩
    let actions := failingLate ++ [.flush () .maxima, .answer 0]
    (oneWriter.run actions).store.cell? (oneWriter.place () c) =
      (peak c (along (accepted () .maxima) oneWriter actions)).map Bytes.ofInt64 :=
  (maxima_survive ⟨fun _ kind => by cases kind <;> rfl, rfl⟩ rfl (by decide)).2.2.2 failingLate
    [.answer 0] rfl (by decide) (by decide) (by decide) (by decide)

example : peak ⟨⟨"t"⟩, [1], [0], [1]⟩ (along (accepted () .maxima) oneWriter failingLate) = some 9 := by
  decide

end Pending.Writing

end CallTelemetry
