import CallTelemetry.Proofs.Pending.Writing

/-! Accounts of the changes of one kind. Whatever becomes of the requests, and however flushes overlap,
an accepted change is in the store, pending, on its way, or it was refused when a failed request was
put back. The two kinds are kept by the same rules: counters by the sum of what was added, maxima by
the largest of what was raised. -/
namespace CallTelemetry.Pending

namespace BatchedWriter

/-- Whether there is room for a mutation. -/
def admits (w : BatchedWriter) (m : Mutation) : Bool :=
  match m.change with
  | .add delta => (w.increment (w.target m) delta).1
  | .raise value => (w.raise (w.target m) value).1

def admitted (w : BatchedWriter) (m : Mutation) (kind : Flushing) : List (Cell × Int64) :=
  if w.admits m then w.changes m kind else []

/-- The changes of a request for which there is no room when it has failed. -/
def refused (w : BatchedWriter) (r : Request) (outcome : Except StoreError Unit) :
    Flushing → List (Cell × Int64)
  | .counters => Counters.refusals w.counterLimit (w.restored r outcome .counters) w.counters
  | .maxima => Maxima.refusals w.maximumLimit (w.restored r outcome .maxima) w.maxima

theorem held_increment (w : BatchedWriter) (cell : Cell) (delta : Int64) (x : Cell) :
    (w.increment cell delta).2.counters.held x =
      w.counters.held x + amount x (if (w.increment cell delta).1 then [(cell, delta)] else []) := by
  unfold increment
  split
  next result => simp [Counters.held_of_accepted result, amount_cons, eq_comm]
  next => simp

theorem get?_raise (w : BatchedWriter) (cell : Cell) (value : Int64) (x : Cell) :
    (w.raise cell value).2.maxima.cells.get? x =
      Option.merge max (w.maxima.cells.get? x)
        (peak x (if (w.raise cell value).1 then [(cell, value)] else [])) := by
  unfold raise
  split
  next result =>
    rw [Maxima.raise_accepted result]
    by_cases same : x = cell
    · cases found : w.maxima.cells.get? cell <;> simp [same, found, peak_cons]
    · simp [same, peak_cons, Ne.symm same]
  next => simp

theorem held_mutate (w : BatchedWriter) (m : Mutation) (x : Cell) :
    (w.mutate m).counters.held x = w.counters.held x + amount x (w.admitted m .counters) := by
  cases change : m.change with
  | add delta =>
    simp only [mutate, admitted, admits, changes, Mutation.kind, Mutation.value, change, ↓reduceIte]
    exact w.held_increment _ delta x
  | raise value =>
    have none : w.changes m .counters = [] := by simp [changes, Mutation.kind, change]
    rw [counters_mutate, admitted, none]
    simp [Counters.addAll]

theorem get?_mutate (w : BatchedWriter) (m : Mutation) (x : Cell) :
    (w.mutate m).maxima.cells.get? x =
      Option.merge max (w.maxima.cells.get? x) (peak x (w.admitted m .maxima)) := by
  cases change : m.change with
  | add delta =>
    have none : w.changes m .maxima = [] := by simp [changes, Mutation.kind, change]
    rw [maxima_mutate, admitted, none]
    simp [Maxima.raiseAll]
  | raise value =>
    simp only [mutate, admitted, admits, changes, Mutation.kind, Mutation.value, change, ↓reduceIte]
    exact w.get?_raise _ value x

end BatchedWriter

/-- How the changes of one kind are accounted for: what they come to when they are pending, and when
they are stored. -/
structure Ledger extends Tally where
  kind : Flushing
  held : Option Int64 → Worth
  stored : Option Bytes → Worth
  held_none : held none = nothing
  held_mutate (w : BatchedWriter) (m : Mutation) (x : Cell) :
    held (((w.mutate m).pending kind).get? x) =
      join (held ((w.pending kind).get? x)) (toTally.total x (w.admitted m kind))
  held_settle (w : BatchedWriter) (r : Request) (outcome : Except StoreError Unit) (x : Cell) :
    join (held (((w.settle r outcome).pending kind).get? x))
        (toTally.total x (w.refused r outcome kind)) =
      join (held ((w.pending kind).get? x)) (toTally.total x (w.restored r outcome kind))
  total_drained (w : BatchedWriter) (x : Cell) :
    toTally.total x (w.drained kind) = held ((w.pending kind).get? x)
  stored_apply (s : Store) (r : Request) (x : Cell) (alone : x ∈ r.cells → r.kind? = some kind) :
    stored ((s.apply r).cell? x) = join (stored (s.cell? x)) (toTally.total x (r.changes kind))

namespace Ledger

def counters : Ledger where
  toTally := .sums
  kind := .counters
  held value := value.getD 0
  stored cell := Store.counter cell 0
  held_none := rfl
  held_mutate w m x := w.held_mutate m x
  held_settle w r outcome x := by
    have settled := Counters.held_addAll w.counterLimit (w.restored r outcome .counters) w.counters x
    rw [← BatchedWriter.counters_settle] at settled
    exact settled
  total_drained w x := w.counters.amount_drain x
  stored_apply s r x alone := Store.counterAt_apply alone

def maxima : Ledger where
  toTally := .peaks
  kind := .maxima
  held value := value
  stored cell := cell.map fun bytes => Store.counter (some bytes) Int64.minValue
  held_none := rfl
  held_mutate w m x := w.get?_mutate m x
  held_settle w r outcome x := by
    have settled := Maxima.held_raiseAll w.maximumLimit (w.restored r outcome .maxima) w.maxima x
    rw [← BatchedWriter.maxima_settle] at settled
    exact settled
  total_drained w x := w.maxima.peak_drain x
  stored_apply s r x alone := Store.peakAt_apply alone

variable (l : Ledger)

/-- A flush moves what a cell holds into its requests. -/
theorem held_beginFlush (w : BatchedWriter) (kind : Flushing) (x : Cell) :
    l.join (l.held (((w.beginFlush kind).2.pending l.kind).get? x))
        (l.total (x.salted w.salting)
          ((w.beginFlush kind).1.flatMap fun r => r.changes l.kind)) =
      l.held ((w.pending l.kind).get? x) := by
  rw [l.total_perm (w.changes_beginFlush kind l.kind), w.pending_beginFlush]
  by_cases same : l.kind = kind
  · subst same
    simp only [↓reduceIte, SortedMap.get?_empty, l.held_none, l.total_salted, l.nothing_join]
    exact l.total_drained w x
  · simp only [same, ↓reduceIte, Tally.total_nil, l.join_nothing]

theorem stored_carryOut {s : Store} {r : Request} {x : Cell}
    (alone : x ∈ r.cells → r.kind? = some l.kind) :
    l.stored ((s.carryOut r).2.cell? x) =
      l.join (l.stored (s.cell? x)) (l.total x (r.written (s.carryOut r).1 l.kind)) := by
  unfold Store.carryOut
  split
  · exact l.stored_apply s r x alone
  · exact (l.join_nothing _).symm

end Ledger

namespace Writing

section

variable {ι : Type}

/-- Whether no flush of a writer is running. -/
def Rests (s : Writing ι) (i : ι) : Prop := ∀ d ∈ s.deliveries, d.writer ≠ i

instance [DecidableEq ι] (s : Writing ι) (i : ι) : Decidable (s.Rests i) :=
  inferInstanceAs (Decidable (∀ d ∈ s.deliveries, d.writer ≠ i))

/-- Where a writer's cell lies in the store. -/
def place (s : Writing ι) (i : ι) (c : Cell) : Cell := c.salted (s.writers i).salting

/-- Whether all that is still held for a place is changes of one kind by its owner, if it has one. -/
def Separate (s : Writing ι) (owner : Option (ι × Flushing)) (p : Cell) : Prop :=
  ∀ i kind x, s.Holds i kind x → s.place i x = p → owner = some (i, kind)

theorem Idle.separate {s : Writing ι} (idle : s.Idle) (owner : Option (ι × Flushing)) (p : Cell) :
    s.Separate owner p := fun i kind x holds => absurd holds (idle.holds i kind x)

theorem changes_of_cells {r : Request}
    (noPut : ∀ table row name value, r ≠ .put table row name value) {x : Cell}
    (touched : x ∈ r.cells) : ∃ kind, ∃ e ∈ r.changes kind, e.1 = x := by
  have listed : x ∈ (r.additions ++ r.raises).map (·.1) := by
    cases r with
    | put table row name value => exact absurd rfl (noPut table row name value)
    | increments => exact touched
    | maximum => exact touched
  obtain ⟨e, member, same⟩ := List.mem_map.1 listed
  rcases List.mem_append.1 member with member | member
  · exact ⟨.counters, e, member, same⟩
  · exact ⟨.maxima, e, member, same⟩

/-- A request under way that touches a place is one of its kind by its owner. -/
theorem Separate.request {s : Writing ι} (sound : s.Sound) {owner : Option (ι × Flushing)}
    {p : Cell} (separate : s.Separate owner p) {i : ι} {r : Request} (member : (i, r) ∈ s.underWay)
    (touched : p ∈ r.cells) : ∃ kind, owner = some (i, kind) ∧ r.kind? = some kind := by
  have formed := sound.formed i r member
  obtain ⟨kind, e, change, here⟩ := changes_of_cells formed.noPut touched
  have origin := change
  rw [formed.changes kind] at origin
  obtain ⟨e', back, rfl⟩ := List.mem_map.1 origin
  have same := separate i kind e'.1 (.inr ⟨r, member, e', back, rfl⟩) here
  exact ⟨kind, same, Request.kind?_of_change change⟩

end

variable {ι : Type} [DecidableEq ι]

/-- The changes of one writer that it has taken out of its pending cells, and that the store has not
yet carried out. -/
def onWay (s : Writing ι) (i : ι) (kind : Flushing) : List (Cell × Int64) :=
  s.underWay.flatMap fun (j, r) => if j = i then r.changes kind else []

theorem Rests.onWay {s : Writing ι} {i : ι} (rests : s.Rests i) (kind : Flushing) :
    s.onWay i kind = [] := by
  refine List.flatMap_eq_nil_iff.2 fun e member => ?_
  obtain ⟨d, running, waiting⟩ := List.mem_flatMap.1 member
  obtain ⟨r, _, rfl⟩ := List.mem_map.1 waiting
  exact if_neg (rests d running)

theorem onWay_flush (s : Writing ι) (j i : ι) (kind kind' : Flushing) :
    (s.flush j kind).onWay i kind' = s.onWay i kind' ++
      if j = i then ((s.writers j).beginFlush kind).1.flatMap fun r => r.changes kind' else [] := by
  rw [onWay, underWay_flush, List.flatMap_append, List.flatMap_map]
  by_cases here : j = i
  · simp only [here, ↓reduceIte, onWay]
  · simp [here, onWay]

/-- The changes of one writer that an action makes pending. -/
def accepted (i : ι) (kind : Flushing) (s : Writing ι) : Action ι → List (Cell × Int64)
  | .mutate j m => if j = i then (s.writers i).admitted m kind else []
  | _ => []

/-- The changes of one writer that an action drops: their request has failed, and there is no room to
put them back. -/
def refused (i : ι) (kind : Flushing) (s : Writing ι) : Action ι → List (Cell × Int64)
  | .answer n =>
    match s.answered n with
    | some (j, r, outcome) => if j = i then (s.writers i).refused r outcome kind else []
    | none => []
  | _ => []

/-- Whether an action changes a place in no other way than by a change of one kind that is asked of
its owner. -/
def Spares (s : Writing ι) (owner : Option (ι × Flushing)) (p : Cell) : Action ι → Prop
  | .mutate i m => s.place i ((s.writers i).target m) = p → owner = some (i, m.kind)
  | .carryOut r => p ∉ r.cells
  | _ => True

instance (s : Writing ι) (owner : Option (ι × Flushing)) (p : Cell) (a : Action ι) :
    Decidable (s.Spares owner p a) :=
  match a with
  | .mutate _ _ => inferInstanceAs (Decidable (_ → _))
  | .carryOut _ => inferInstanceAs (Decidable (¬_))
  | .flush _ _ | .answer _ | .failNext _ | .slow _ | .arrive => inferInstanceAs (Decidable True)

theorem place_step (s : Writing ι) (a : Action ι) (i : ι) (c : Cell) :
    (s.step a).place i c = s.place i c := by
  rw [place, place, salting_of_bare (bare_step s a i)]

theorem place_run (s : Writing ι) (actions : List (Action ι)) (i : ι) (c : Cell) :
    (s.run actions).place i c = s.place i c := by
  rw [place, place, salting_of_bare (bare_run s actions i)]

theorem spares_step {s : Writing ι} {owner : Option (ι × Flushing)} {p : Cell} {a : Action ι}
    (spares : s.Spares owner p a) (a' : Action ι) : (s.step a').Spares owner p a := by
  cases a with
  | mutate j m =>
    rw [Spares, place_step, target_of_bare (bare_step s a' j)]
    exact spares
  | carryOut r => exact spares
  | _ => trivial

theorem separate_step {s : Writing ι} (sound : s.Sound) {owner : Option (ι × Flushing)} {p : Cell}
    (separate : s.Separate owner p) {a : Action ι} (spares : s.Spares owner p a) :
    (s.step a).Separate owner p := by
  intro i kind x holds here
  rw [place_step] at here
  rcases holds_step sound holds with held | ⟨m, rfl, rfl, rfl⟩
  · exact separate i kind x held here
  · exact spares here

/-- Whether a place is left to its owner in all of a run. -/
structure Guarded (s : Writing ι) (owner : Option (ι × Flushing)) (p : Cell)
    (actions : List (Action ι)) : Prop where
  sound : s.Sound
  separate : s.Separate owner p
  spares : ∀ a ∈ actions, s.Spares owner p a

omit [DecidableEq ι] in
theorem Idle.guarded {s : Writing ι} (idle : s.Idle) {owner : Option (ι × Flushing)} {p : Cell}
    {actions : List (Action ι)} (spares : ∀ a ∈ actions, s.Spares owner p a) :
    s.Guarded owner p actions := ⟨idle.sound, idle.separate owner p, spares⟩

namespace Guarded

variable {s : Writing ι} {owner : Option (ι × Flushing)} {p : Cell} {a : Action ι}
  {actions : List (Action ι)}

omit [DecidableEq ι] in
theorem head (guarded : s.Guarded owner p (a :: actions)) : s.Spares owner p a :=
  guarded.spares a List.mem_cons_self

theorem tail (guarded : s.Guarded owner p (a :: actions)) : (s.step a).Guarded owner p actions where
  sound := sound_step guarded.sound a
  separate := separate_step guarded.sound guarded.separate guarded.head
  spares a' member := spares_step (guarded.spares a' (List.mem_cons_of_mem a member)) a

theorem rest {before after : List (Action ι)} (guarded : s.Guarded owner p (before ++ after)) :
    (s.run before).Guarded owner p after := by
  induction before generalizing s with
  | nil => exact guarded
  | cons a before ih => exact ih guarded.tail

end Guarded

theorem cell?_carryOut {s : Store} {r : Request} {p : Cell} (apart : p ∉ r.cells) :
    (s.carryOut r).2.cell? p = s.cell? p := by
  unfold Store.carryOut
  split
  · exact Store.cell?_apply_of_not_mem apart
  · rfl

theorem cell?_flush (s : Writing ι) (i : ι) (kind : Flushing) (p : Cell) :
    (s.flush i kind).store.cell? p = s.store.cell? p := by
  unfold flush
  dsimp only
  split <;> rfl

/-- What a place holds changes only when the store carries out a request of its owner. -/
theorem cell?_step_origin {s : Writing ι} (sound : s.Sound) {owner : Option (ι × Flushing)}
    {p : Cell} (separate : s.Separate owner p) {a : Action ι} (spares : s.Spares owner p a) :
    (s.step a).store.cell? p = s.store.cell? p ∨
      ∃ i r kind, owner = some (i, kind) ∧ (i, r) ∈ s.underWay ∧ r.kind? = some kind ∧
        (s.step a).store.cell? p = (s.store.apply r).cell? p := by
  cases a with
  | flush i kind => exact .inl (cell?_flush s i kind p)
  | answer n =>
    rw [step]
    rcases answer_cases s n with ⟨_, same⟩ | ⟨i, r, before, after, _, _, _, now, _, _, store⟩
    · exact .inl (by rw [same])
    · have member : (i, r) ∈ s.underWay := by simp [now]
      have stored : (s.answer n).store.cell? p = (s.store.carryOut r).2.cell? p := by
        rw [store]
        rfl
      rw [stored]
      by_cases touched : p ∈ r.cells
      · obtain ⟨kind, owned, made⟩ := separate.request sound member touched
        unfold Store.carryOut
        split
        · exact .inr ⟨i, r, kind, owned, member, made, rfl⟩
        · exact .inl rfl
      · exact .inl (cell?_carryOut touched)
  | carryOut r => exact .inl (cell?_carryOut spares)
  | _ => exact .inl rfl

/-- A place that nobody owns stays as it is. -/
theorem cell?_step {s : Writing ι} (sound : s.Sound) {p : Cell} (separate : s.Separate none p)
    {a : Action ι} (spares : s.Spares none p a) : (s.step a).store.cell? p = s.store.cell? p := by
  rcases cell?_step_origin sound separate spares with same | ⟨_, _, _, owned, _⟩
  · exact same
  · simp at owned

theorem cell?_run {s : Writing ι} {p : Cell} {actions : List (Action ι)}
    (guarded : s.Guarded none p actions) : (s.run actions).store.cell? p = s.store.cell? p := by
  induction actions generalizing s with
  | nil => rfl
  | cons a actions ih =>
    exact (ih guarded.tail).trans (cell?_step guarded.sound guarded.separate guarded.head)

end Writing

namespace Ledger

variable (l : Ledger) {ι : Type} [DecidableEq ι]

/-- What there is of a writer's cell: stored, pending and on its way. -/
def balance (s : Writing ι) (i : ι) (c : Cell) : l.Worth :=
  l.join (l.join (l.stored (s.store.cell? (s.place i c)))
    (l.held (((s.writers i).pending l.kind).get? c))) (l.total (s.place i c) (s.onWay i l.kind))

open Writing

theorem balance_mutate (s : Writing ι) (j : ι) (m : Mutation) (i : ι) (c : Cell) :
    l.balance (s.mutate j m) i c =
      l.join (l.balance s i c) (l.total c (accepted i l.kind s (.mutate j m))) := by
  have place : (s.mutate j m).place i c = s.place i c := place_step s (.mutate j m) i c
  have way : (s.mutate j m).onWay i l.kind = s.onWay i l.kind := rfl
  rw [balance, place, way, balance, writers_mutate]
  by_cases here : i = j
  · subst here
    rw [replace_self, l.held_mutate]
    simp only [accepted, mutate, ↓reduceIte]
    ac_rfl
  · simp [accepted, mutate, replace_of_ne _ _ here, Ne.symm here, l.join_nothing]

/-- A flush only moves changes from the pending cells onto their way. -/
theorem balance_flush (s : Writing ι) (j : ι) (kind : Flushing) (i : ι) (c : Cell) :
    l.balance (s.flush j kind) i c = l.balance s i c := by
  have place : (s.flush j kind).place i c = s.place i c := place_step s (.flush j kind) i c
  rw [balance, place, cell?_flush, balance, onWay_flush, writers_flush, l.total_append]
  by_cases here : i = j
  · subst here
    rw [replace_self, if_pos rfl, ← l.held_beginFlush (s.writers i) kind c, Writing.place]
    ac_rfl
  · rw [replace_of_ne _ _ here, if_neg (Ne.symm here), l.total_nil, l.join_nothing]

/-- A request that succeeds moves its changes into the store; one that fails moves them back, as far
as there is room. -/
theorem balance_answer {s : Writing ι} (sound : s.Sound) {i : ι} {c : Cell}
    (separate : s.Separate (some (i, l.kind)) (s.place i c)) (n : Nat) :
    l.join (l.balance (s.answer n) i c) (l.total c (refused i l.kind s (.answer n))) =
      l.balance s i c := by
  have place : (s.answer n).place i c = s.place i c := place_step s (.answer n) i c
  rcases answer_cases s n with ⟨none, same⟩ |
    ⟨j, r, before, after, report, requests, found, now, then_, writers, store⟩
  · simp [same, refused, none, l.join_nothing]
  have member : (j, r) ∈ s.underWay := by simp [now]
  have formed := sound.formed j r member
  have owned (touched : s.place i c ∈ r.cells) : i = j ∧ r.kind? = some l.kind := by
    obtain ⟨kind, same, made⟩ := separate.request sound member touched
    obtain ⟨rfl, rfl⟩ := Prod.mk.inj (Option.some.inj same)
    exact ⟨rfl, made⟩
  have stored : (s.answer n).store.cell? (s.place i c) =
      (s.store.carryOut r).2.cell? (s.place i c) := by
    rw [store]
    rfl
  rw [balance, place, stored, l.stored_carryOut fun touched => (owned touched).2, balance, onWay,
    onWay, then_, writers, now]
  simp only [refused, found, List.flatMap_append, List.flatMap_cons, l.total_append]
  by_cases here : i = j
  · subst here
    have settled := l.held_settle (s.writers i) r (s.store.carryOut r).1 c
    have parts : l.join (l.total (s.place i c) (r.written (s.store.carryOut r).1 l.kind))
        (l.total c ((s.writers i).restored r (s.store.carryOut r).1 l.kind)) =
          l.total (s.place i c) (r.changes l.kind) := by
      cases (s.store.carryOut r).1 with
      | ok => exact l.join_nothing _
      | error =>
        refine (l.nothing_join _).trans ?_
        rw [formed.changes l.kind]
        exact (l.total_salted _ c _).symm
    simp only [replace_self, ↓reduceIte]
    rw [← parts]
    exact l.join_parts settled
  · have untouched : l.total (s.place i c) (r.written (s.store.carryOut r).1 l.kind) =
        l.nothing := by
      refine l.total_eq_nothing fun e change same => here ?_
      exact (owned (same ▸ Request.mem_cells_of_written change)).1
    rw [replace_of_ne _ _ here]
    simp only [untouched, Ne.symm here, ↓reduceIte, l.total_nil, l.nothing_join, l.join_nothing]

/-- One action neither loses nor makes up a change. -/
theorem balance_step {s : Writing ι} (sound : s.Sound) {i : ι} {c : Cell}
    (separate : s.Separate (some (i, l.kind)) (s.place i c)) {a : Action ι}
    (spares : s.Spares (some (i, l.kind)) (s.place i c) a) :
    l.join (l.balance (s.step a) i c) (l.total c (refused i l.kind s a)) =
      l.join (l.balance s i c) (l.total c (accepted i l.kind s a)) := by
  cases a with
  | mutate j m => exact (l.join_nothing _).trans (l.balance_mutate s j m i c)
  | flush j kind => exact congrArg (l.join · l.nothing) (l.balance_flush s j kind i c)
  | answer n => exact (l.balance_answer sound separate n).trans (l.join_nothing _).symm
  | carryOut r =>
    have stored : l.stored ((s.store.carryOut r).2.cell? (s.place i c)) =
        l.stored (s.store.cell? (s.place i c)) := by
      have untouched : l.total (s.place i c) (r.written (s.store.carryOut r).1 l.kind) =
          l.nothing := l.total_eq_nothing fun e change same =>
        spares (same ▸ Request.mem_cells_of_written change)
      rw [l.stored_carryOut fun touched => absurd touched spares, untouched, l.join_nothing]
    rw [balance, place_step, step, stored]
    rfl
  | failNext count => rfl
  | slow latency => rfl
  | arrive => rfl

theorem balance_run {s : Writing ι} {i : ι} {c : Cell} {actions : List (Action ι)}
    (guarded : s.Guarded (some (i, l.kind)) (s.place i c) actions) :
    l.join (l.balance (s.run actions) i c) (l.total c (along (refused i l.kind) s actions)) =
      l.join (l.balance s i c) (l.total c (along (accepted i l.kind) s actions)) := by
  induction actions generalizing s with
  | nil => rfl
  | cons a actions ih =>
    have first := l.balance_step guarded.sound guarded.separate guarded.head
    have rest := ih (s := s.step a) (place_step s a i c ▸ guarded.tail)
    rw [along, along, l.total_append, l.total_append]
    exact l.join_steps first rest

/-- Writers that start with nothing to write have what they accepted: stored, pending, on its way, or
refused when it could not be put back. -/
theorem balance_of_idle {s : Writing ι} (idle : s.Idle) {i : ι} {c : Cell}
    {actions : List (Action ι)}
    (spares : ∀ a ∈ actions, s.Spares (some (i, l.kind)) (s.place i c) a) :
    l.join (l.balance (s.run actions) i c) (l.total c (along (refused i l.kind) s actions)) =
      l.join (l.stored (s.store.cell? (s.place i c)))
        (l.total c (along (accepted i l.kind) s actions)) := by
  have nothing : l.balance s i c = l.stored (s.store.cell? (s.place i c)) := by
    rw [balance, idle.pending i l.kind, onWay, idle.underWay, SortedMap.get?_empty, l.held_none,
      List.flatMap_nil, l.total_nil, l.join_nothing, l.join_nothing]
  rw [l.balance_run (idle.guarded spares), nothing]

end Ledger

end CallTelemetry.Pending
