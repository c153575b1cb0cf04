import CallTelemetry.Proofs.Pending.Ledger

/-! No addition is lost or made twice. -/
namespace CallTelemetry.Pending.Writing

variable {ι : Type} [DecidableEq ι]

/-- Writers that start with nothing to write have stored, or still have, or were not able to put
back, all additions that they accepted for a cell that nobody else changes. -/
theorem additions_conserved {s : Writing ι} (idle : s.Idle) {i : ι} {c : Cell}
    (absent : s.store.cell? (s.place i c) = none) {actions : List (Action ι)}
    (spares : ∀ a ∈ actions, s.Spares (some (i, .counters)) (s.place i c) a) :
    let t := s.run actions
    let stored := t.store.counterAt (s.place i c)
    let pending := (t.writers i).counters.held c
    let drained := amount (s.place i c) (t.onWay i .counters)
    let refused := along (refused i .counters) s actions
    let accepted := amount c (along (accepted i .counters) s actions)
    stored + pending + drained + amount c refused = accepted ∧
      (t.deliveries = [] → (∀ e ∈ refused, e.1 ≠ c) → stored + pending = accepted) := by
  intro t stored pending drained refused accepted
  have conserved : stored + pending + drained + amount c refused = accepted := by
    have balanced := Ledger.counters.balance_of_idle idle spares
    rw [absent, Ledger.balance, place_run] at balanced
    exact balanced.trans (Int64.zero_add _)
  refine ⟨conserved, fun done kept => ?_⟩
  have nothing : drained = 0 := by
    have way : t.onWay i .counters = [] := by
      rw [onWay, underWay, done]
      rfl
    exact congrArg (amount _) way
  rw [nothing, amount_eq_zero kept] at conserved
  simpa using conserved

/-- Two flushes of a writer with room for two cells. The first fails at once; when the second has
taken the cells that came meanwhile, two more fill the room, and the request that fails next has to
be dropped. -/
def overlapping : List (Action Unit) :=
  let add (row column : UInt8) (delta : Int64) : Action Unit :=
    .mutate () ⟨⟨[row], true⟩, [column], .add delta⟩
  [add 1 1 5, add 2 1 (-7), .flush () .counters, .failNext 1, .answer 0, add 1 1 3,
    .flush () .counters, add 3 1 1, add 3 2 1, .answer 0, .failNext 1, .answer 0]

def oneWriter : Writing Unit where
  writers _ := ⟨⟨"t"⟩, [0], ⟨4, by decide, by decide⟩, 1, some 2, none, .empty, .empty, .empty⟩
  store := .empty
  deliveries := []

theorem additions_conserved_overlapping :
    let c : Cell := ⟨⟨"t"⟩, [1], [0], [1]⟩
    let t := oneWriter.run overlapping
    t.store.counterAt (oneWriter.place () c) + (t.writers ()).counters.held c +
        amount (oneWriter.place () c) (t.onWay () .counters) +
        amount c (along (refused () .counters) oneWriter overlapping) =
      amount c (along (accepted () .counters) oneWriter overlapping) :=
  (additions_conserved ⟨fun _ kind => by cases kind <;> rfl, rfl⟩ rfl (by decide)).1

end CallTelemetry.Pending.Writing
