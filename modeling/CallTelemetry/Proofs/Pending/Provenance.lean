import CallTelemetry.Proofs.Pending.Completion
import CallTelemetry.Proofs.Pending.Reporting

/-! What becomes of every single change. The accepted changes of a cell are joined while they are
pending, and from then on they travel together: a change that a request carries stands for a group of
accepted ones. In the end every group has been written, or it has been dropped because there was no
room to put it back. -/
namespace CallTelemetry.Pending

namespace Tally

variable (t : Tally)

def sum (l : List Int64) : t.Worth := l.foldr (fun v => t.join (t.worth v)) t.nothing

theorem sum_singleton (v : Int64) : t.sum [v] = t.worth v := t.join_nothing _

theorem sum_append (l l' : List Int64) : t.sum (l ++ l') = t.join (t.sum l) (t.sum l') := by
  induction l with
  | nil => exact (t.nothing_join _).symm
  | cons v l ih =>
    change t.join _ (t.sum (l ++ l')) = _
    rw [ih, ← t.assoc]
    rfl

/-- Whether every listed change stands for a group of others, which come to it. -/
def Groups (groups : List (List Int64)) (listed : List Int64) : Prop :=
  groups.map t.sum = listed.map t.worth

variable {t}

theorem Groups.append {groups groups' : List (List Int64)} {l l' : List Int64}
    (first : t.Groups groups l) (second : t.Groups groups' l') :
    t.Groups (groups ++ groups') (l ++ l') := by
  rw [Groups, List.map_append, List.map_append, first, second]

theorem Groups.split {groups : List (List Int64)} {l l' : List Int64}
    (grouped : t.Groups groups (l ++ l')) :
    ∃ first second, groups = first ++ second ∧ t.Groups first l ∧ t.Groups second l' := by
  rw [Groups, List.map_append] at grouped
  exact List.map_eq_append_iff.1 grouped

theorem Groups.sum_flatten {groups : List (List Int64)} {l : List Int64}
    (grouped : t.Groups groups l) : t.sum groups.flatten = t.sum l := by
  have joined (groups : List (List Int64)) :
      t.sum groups.flatten = (groups.map t.sum).foldr t.join t.nothing := by
    induction groups with
    | nil => rfl
    | cons group groups ih =>
      rw [List.flatten_cons, t.sum_append, ih]
      rfl
  rw [joined, grouped, List.foldr_map]
  rfl

/-- Whether putting changes into a container keeps the groups of a cell together: each of them is held
as a whole, or the change that stands for it is refused. -/
def Absorbs (t : Tally) (x : Cell) (before after : t.Worth) (l refused : List (Cell × Int64)) : Prop :=
  ∀ pending groups, before = t.sum pending → t.Groups groups (deltas x l) →
    ∃ held dropped, groups.flatten.Perm (held ++ dropped.flatten) ∧
      after = t.sum (pending ++ held) ∧ t.Groups dropped (deltas x refused)

theorem Absorbs.nothing (x : Cell) (worth : t.Worth) : t.Absorbs x worth worth [] [] := by
  intro pending groups same grouped
  obtain rfl : groups = [] := List.map_eq_nil_iff.1 grouped
  exact ⟨[], [], .refl _, by simpa using same, rfl⟩

theorem Absorbs.trans {x : Cell} {before between after : t.Worth}
    {l l' refused refused' : List (Cell × Int64)} (first : t.Absorbs x before between l refused)
    (second : t.Absorbs x between after l' refused') :
    t.Absorbs x before after (l ++ l') (refused ++ refused') := by
  intro pending groups same grouped
  rw [deltas_append] at grouped ⊢
  obtain ⟨groups, groups', rfl, here, later⟩ := grouped.split
  obtain ⟨held, dropped, perm, same', grouped⟩ := first pending groups same here
  obtain ⟨held', dropped', perm', same'', grouped'⟩ := second _ groups' same' later
  refine ⟨held ++ held', dropped ++ dropped', ?_, by rw [same'', List.append_assoc],
    grouped.append grouped'⟩
  rw [List.flatten_append, List.flatten_append]
  refine (perm.append perm').trans ?_
  simp only [List.perm_iff_count, List.count_append]
  omega

/-- One change is held, or it is refused and nothing else happens. -/
theorem absorbs_single {x : Cell} {before after : t.Worth} {e : Cell × Int64} {taken : Bool}
    (held : taken → after = t.join before (t.total x [e])) (same : taken = false → after = before) :
    t.Absorbs x before after [e] (if taken then [] else [e]) := by
  rintro pending groups rfl grouped
  cases taken with
  | true =>
    refine ⟨groups.flatten, [], by simp, ?_, rfl⟩
    rw [held rfl, t.sum_append, grouped.sum_flatten]
    rfl
  | false => exact ⟨[], groups, .refl _, by simpa using same rfl, grouped⟩

end Tally

/-- No two entries of a list with distinct cells are for the same cell. -/
theorem deltas_of_nodup {l : List (Cell × Int64)} (nodup : (l.map (·.1)).Nodup) (c : Cell) :
    deltas c l = [] ∨ ∃ v, deltas c l = [v] := by
  induction l with
  | nil => exact .inl rfl
  | cons e l ih =>
    obtain ⟨new, rest⟩ := List.nodup_cons.1 nodup
    rw [deltas_cons]
    split
    next same =>
      have none : deltas c l = [] := deltas_eq_nil_iff.2 fun e' member here =>
        new (List.mem_map.2 ⟨e', member, here.trans same.symm⟩)
      exact .inr ⟨e.2, by rw [none]⟩
    next => exact ih rest

namespace BatchedWriter

theorem drained_nodup (w : BatchedWriter) (kind : Flushing) :
    ((w.drained kind).map (·.1)).Nodup := by
  cases kind with
  | counters =>
    rw [drained, Counters.drain_taken]
    exact w.counters.cells.keys_nodup.sublist (List.filter_sublist.map _)
  | maxima =>
    rw [drained, Maxima.drain_taken]
    exact w.maxima.cells.keys_nodup

end BatchedWriter

namespace Counters

theorem absorbs_addAll (limit : Option Nat) (l : List (Cell × Int64)) (c : Counters) (x : Cell) :
    Tally.sums.Absorbs x (c.held x) ((c.addAll limit l).held x) l (refusals limit l c) := by
  induction l generalizing c with
  | nil => exact .nothing x _
  | cons e l ih =>
    have first := held_add limit c e x
    refine Tally.Absorbs.trans (Tally.absorbs_single (fun taken => ?_) fun refused => ?_) (ih _)
    · rw [if_pos taken, amount_nil, Int64.add_zero] at first
      exact first
    · have same : (c.add limit e.1 e.2).2 = c := add_refused (Prod.ext refused rfl)
      exact congrArg (held · x) same

end Counters

namespace Maxima

theorem absorbs_raiseAll (limit : Option Nat) (l : List (Cell × Int64)) (m : Maxima) (x : Cell) :
    Tally.peaks.Absorbs x (m.cells.get? x) ((m.raiseAll limit l).cells.get? x) l
      (refusals limit l m) := by
  induction l generalizing m with
  | nil => exact .nothing x _
  | cons e l ih =>
    have first := held_raise limit m e x
    refine Tally.Absorbs.trans (Tally.absorbs_single (fun taken => ?_) fun refused => ?_) (ih _)
    · rw [if_pos taken, peak_nil, Option.merge_none_right] at first
      exact first
    · have same : (m.raise limit e.1 e.2).2 = m := raise_refused (Prod.ext refused rfl)
      exact congrArg (·.cells.get? x) same

end Maxima

/-- Whether a ledger keeps the groups of a cell together when what a request held goes back. -/
def Ledger.Absorbing (l : Ledger) : Prop :=
  ∀ (w : BatchedWriter) (r : Request) (outcome : Except StoreError Unit) (x : Cell),
    l.Absorbs x (l.held ((w.pending l.kind).get? x))
      (l.held (((w.settle r outcome).pending l.kind).get? x))
      (w.restored r outcome l.kind) (w.refused r outcome l.kind)

theorem Ledger.absorbing_counters : Ledger.counters.Absorbing := by
  intro w r outcome x
  have settled := Counters.absorbs_addAll w.counterLimit (w.restored r outcome .counters) w.counters x
  rw [← w.counters_settle] at settled
  exact settled

theorem Ledger.absorbing_maxima : Ledger.maxima.Absorbing := by
  intro w r outcome x
  have settled := Maxima.absorbs_raiseAll w.maximumLimit (w.restored r outcome .maxima) w.maxima x
  rw [← w.maxima_settle] at settled
  exact settled

namespace Writing

variable {ι : Type} [DecidableEq ι]

/-- The changes of one writer that the store carries out by an action. -/
def delivered (i : ι) (kind : Flushing) (s : Writing ι) : Action ι → List (Cell × Int64)
  | .answer n =>
    match s.answered n with
    | some (j, r, outcome) => if j = i then r.written outcome kind else []
    | none => []
  | _ => []

/-- Where the accepted changes of a cell are. Those that are no longer pending are in groups. -/
structure Bags where
  pending : List Int64
  onWay : List (List Int64)
  delivered : List (List Int64)
  dropped : List (List Int64)

def Bags.all (b : Bags) : List Int64 :=
  b.pending ++ b.onWay.flatten ++ b.delivered.flatten ++ b.dropped.flatten

/-- Whether bags hold what was accepted for a cell, and show where it is. -/
structure Traced (l : Ledger) (s : Writing ι) (i : ι) (c : Cell) (b : Bags)
    (accepted delivered refused : List (Cell × Int64)) : Prop where
  all : b.all.Perm (deltas c accepted)
  pending : l.held (((s.writers i).pending l.kind).get? c) = l.sum b.pending
  onWay : l.Groups b.onWay (deltas (s.place i c) (s.onWay i l.kind))
  delivered : l.Groups b.delivered (deltas (s.place i c) delivered)
  dropped : l.Groups b.dropped (deltas c refused)

/-- A group whose request has ended is delivered, or held again, or dropped. -/
theorem traced_settle {l : Ledger} (absorbing : l.Absorbing) {w : BatchedWriter} {c p : Cell}
    {pending : List Int64} (same : l.held ((w.pending l.kind).get? c) = l.sum pending) (r : Request)
    (outcome : Except StoreError Unit) {groups : List (List Int64)}
    (returned : l.Groups groups (deltas c (w.returned r l.kind)))
    (changes : l.Groups groups (deltas p (r.changes l.kind))) :
    ∃ held delivered dropped,
      groups.flatten.Perm (held ++ delivered.flatten ++ dropped.flatten) ∧
      l.held (((w.settle r outcome).pending l.kind).get? c) = l.sum (pending ++ held) ∧
      l.Groups delivered (deltas p (r.written outcome l.kind)) ∧
      l.Groups dropped (deltas c (w.refused r outcome l.kind)) := by
  cases outcome with
  | ok =>
    obtain ⟨held, dropped, perm, after, turned⟩ := absorbing w r (.ok ()) c pending [] same rfl
    refine ⟨held, groups, dropped, ?_, after, changes, turned⟩
    obtain ⟨rfl, nothing⟩ := List.append_eq_nil_iff.1 (List.nil_perm.1 perm)
    simp [nothing]
  | error e =>
    obtain ⟨held, dropped, perm, after, turned⟩ :=
      absorbing w r (.error e) c pending groups same returned
    exact ⟨held, [], dropped, by simpa using perm, after, rfl, turned⟩

section

variable {l : Ledger} {s : Writing ι} {i : ι} {c : Cell} {b : Bags}
  {taken given refused : List (Cell × Int64)} (traced : s.Traced l i c b taken given refused)

include traced

theorem traced_mutate (j : ι) (m : Mutation) :
    ∃ b', (s.mutate j m).Traced l i c b' (taken ++ accepted i l.kind s (.mutate j m)) given
      refused := by
  have place : (s.mutate j m).place i c = s.place i c := place_step s (.mutate j m) i c
  refine ⟨{ b with pending := b.pending ++ deltas c (accepted i l.kind s (.mutate j m)) },
    ?_, ?_, place ▸ traced.onWay, place ▸ traced.delivered, traced.dropped⟩
  · have all := traced.all
    simp only [Bags.all, List.perm_iff_count, List.count_append, deltas_append] at all ⊢
    intro v
    have counted := all v
    omega
  · rw [l.sum_append, ← traced.pending, writers_mutate]
    by_cases here : i = j
    · subst here
      rw [replace_self, l.held_mutate, accepted, if_pos rfl]
      rfl
    · rw [replace_of_ne _ _ here, accepted, if_neg (Ne.symm here)]
      exact (l.join_nothing _).symm

/-- A flush turns what is pending for a cell into one group, if there is anything to send. -/
theorem traced_flush (j : ι) (kind : Flushing) :
    ∃ b', (s.flush j kind).Traced l i c b' taken given refused := by
  have place : (s.flush j kind).place i c = s.place i c := place_step s (.flush j kind) i c
  by_cases mine : j = i ∧ l.kind = kind
  · obtain ⟨rfl, rfl⟩ := mine
    let w := s.writers j
    have sent : (deltas (s.place j c) ((w.beginFlush l.kind).1.flatMap fun r => r.changes l.kind)).Perm
        (deltas c (w.drained l.kind)) := by
      have changes := deltas_perm (w.changes_beginFlush l.kind l.kind) (s.place j c)
      rwa [if_pos rfl, Writing.place, deltas_salted] at changes
    have way : deltas ((s.flush j l.kind).place j c) ((s.flush j l.kind).onWay j l.kind) =
        deltas (s.place j c) (s.onWay j l.kind) ++
          deltas (s.place j c) ((w.beginFlush l.kind).1.flatMap fun r => r.changes l.kind) := by
      rw [place, onWay_flush, if_pos rfl, deltas_append]
    have none : ((s.flush j l.kind).writers j).pending l.kind = .empty := by
      rw [writers_flush, replace_self, BatchedWriter.pending_beginFlush, if_pos rfl]
    have worth : l.sum b.pending = l.sum (deltas c (w.drained l.kind)) := by
      rw [← traced.pending, ← l.total_drained w c]
      rfl
    rcases deltas_of_nodup (w.drained_nodup l.kind) c with nothing | ⟨v, one⟩
    · rw [nothing, List.perm_nil] at sent
      refine ⟨b, traced.all, ?_, ?_, place ▸ traced.delivered, traced.dropped⟩
      · rw [none, worth, nothing, SortedMap.get?_empty, l.held_none]
        rfl
      · rw [way, sent, List.append_nil]
        exact traced.onWay
    · rw [one, List.perm_singleton] at sent
      refine ⟨{ b with pending := [], onWay := b.onWay ++ [b.pending] }, ?_, ?_, ?_,
        place ▸ traced.delivered, traced.dropped⟩
      · refine List.Perm.trans ?_ traced.all
        simp only [Bags.all, List.perm_iff_count, List.count_append, List.flatten_append,
          List.flatten_singleton, List.nil_append]
        intro v
        omega
      · rw [none, SortedMap.get?_empty, l.held_none]
        rfl
      · rw [way, sent]
        refine traced.onWay.append ?_
        rw [Tally.Groups, List.map_singleton, worth, one, l.sum_singleton]
        rfl
  · have pending : ((s.flush j kind).writers i).pending l.kind = (s.writers i).pending l.kind := by
      rw [writers_flush]
      by_cases here : i = j
      · subst here
        rw [replace_self, BatchedWriter.pending_beginFlush, if_neg fun same => mine ⟨rfl, same⟩]
      · rw [replace_of_ne _ _ here]
    have way : (s.flush j kind).onWay i l.kind = s.onWay i l.kind := by
      rw [onWay_flush]
      split
      next here =>
        have none := (s.writers j).changes_beginFlush kind l.kind
        rw [if_neg fun same => mine ⟨here, same⟩, List.perm_nil] at none
        rw [none, List.append_nil]
      next => exact List.append_nil _
    exact ⟨b, traced.all, pending ▸ traced.pending, by rw [place, way]; exact traced.onWay,
      place ▸ traced.delivered, traced.dropped⟩

/-- The group of a request that has ended is delivered, or it is pending again or dropped. -/
theorem traced_answer (absorbing : l.Absorbing) (sound : s.Sound) (n : Nat) :
    ∃ b', (s.answer n).Traced l i c b' taken (given ++ delivered i l.kind s (.answer n))
      (refused ++ Writing.refused i l.kind s (.answer n)) := by
  have place : (s.answer n).place i c = s.place i c := place_step s (.answer n) i c
  rcases answer_cases s n with ⟨none, same⟩ |
    ⟨j, r, before, after, report, _, found, now, then_, writers, _⟩
  · refine ⟨b, ?_⟩
    simpa [delivered, Writing.refused, none, same] using traced
  by_cases here : j = i
  · subst here
    have changes : deltas (s.place j c) (r.changes l.kind) =
        deltas c ((s.writers j).returned r l.kind) := by
      rw [(sound.formed j r (by simp [now])).changes l.kind, Writing.place, deltas_salted]
    obtain ⟨first, last, way, way'⟩ : ∃ first last,
        s.onWay j l.kind = first ++ (r.changes l.kind ++ last) ∧
        (s.answer n).onWay j l.kind = first ++ last := by
      simp only [onWay, now, then_, List.flatMap_append, List.flatMap_cons, ↓reduceIte]
      exact ⟨_, _, rfl, rfl⟩
    have groups := traced.onWay
    rw [way, deltas_append, deltas_append] at groups
    obtain ⟨ahead, rest, parts, ahead', groups⟩ := groups.split
    obtain ⟨own, behind, rfl, own', behind'⟩ := groups.split
    obtain ⟨held, given', dropped', perm, pending, sent, turned⟩ :=
      traced_settle absorbing traced.pending r (s.store.carryOut r).1 (changes ▸ own') own'
    refine ⟨⟨b.pending ++ held, ahead ++ behind, b.delivered ++ given', b.dropped ++ dropped'⟩, ?_,
      ?_, ?_, ?_, ?_⟩
    · refine List.Perm.trans ?_ traced.all
      simp only [List.perm_iff_count, List.count_append] at perm
      simp only [Bags.all, parts, List.perm_iff_count, List.count_append, List.flatten_append]
      intro v
      have counted := perm v
      omega
    · rw [writers, replace_self]
      exact pending
    · rw [place, way', deltas_append]
      exact ahead'.append behind'
    · rw [place, deltas_append]
      simp only [delivered, found, ↓reduceIte]
      exact traced.delivered.append sent
    · rw [deltas_append]
      simp only [Writing.refused, found, ↓reduceIte]
      exact traced.dropped.append turned
  · have pending : (s.answer n).writers i = s.writers i := by
      rw [writers, replace_of_ne _ _ (Ne.symm here)]
    have way : (s.answer n).onWay i l.kind = s.onWay i l.kind := by
      simp [onWay, now, then_, here]
    refine ⟨b, ?_⟩
    simp only [delivered, Writing.refused, found, if_neg here, List.append_nil]
    exact ⟨traced.all, pending ▸ traced.pending, by rw [place, way]; exact traced.onWay,
      place ▸ traced.delivered, traced.dropped⟩

/-- No action takes a change out of its group, and none loses a group. -/
theorem traced_step (absorbing : l.Absorbing) (sound : s.Sound) (a : Action ι) :
    ∃ b', (s.step a).Traced l i c b' (taken ++ accepted i l.kind s a)
      (given ++ delivered i l.kind s a) (refused ++ Writing.refused i l.kind s a) := by
  cases a with
  | mutate j m => simpa [step, delivered, Writing.refused] using traced_mutate traced j m
  | flush j kind =>
    simpa [step, accepted, delivered, Writing.refused] using traced_flush traced j kind
  | answer n => simpa [step, accepted] using traced_answer traced absorbing sound n
  | _ =>
    simp only [accepted, delivered, Writing.refused, List.append_nil]
    exact ⟨b, traced.all, traced.pending, traced.onWay, traced.delivered, traced.dropped⟩

theorem traced_run (absorbing : l.Absorbing) (sound : s.Sound) (actions : List (Action ι)) :
    ∃ b', (s.run actions).Traced l i c b' (taken ++ along (accepted i l.kind) s actions)
      (given ++ along (delivered i l.kind) s actions)
      (refused ++ along (Writing.refused i l.kind) s actions) := by
  induction actions generalizing s b taken given refused with
  | nil => exact ⟨b, by simpa [along, run] using traced⟩
  | cons a actions ih =>
    obtain ⟨b', first⟩ := traced_step traced absorbing sound a
    simpa [along, run] using ih first (sound_step sound a)

end

theorem Idle.traced {s : Writing ι} (idle : s.Idle) (l : Ledger) (i : ι) (c : Cell) :
    s.Traced l i c ⟨[], [], [], []⟩ [] [] [] where
  all := .refl _
  pending := by
    rw [idle.pending i l.kind, SortedMap.get?_empty, l.held_none]
    rfl
  onWay := by
    rw [Writing.onWay, idle.underWay]
    rfl
  delivered := rfl
  dropped := rfl

/-- What the store has of a cell comes from what was delivered. -/
theorem stored_step_eq (l : Ledger) {s : Writing ι} (sound : s.Sound) {i : ι} {p : Cell}
    (separate : s.Separate (some (i, l.kind)) p) {a : Action ι}
    (spares : s.Spares (some (i, l.kind)) p a) :
    l.stored ((s.step a).store.cell? p) =
      l.join (l.stored (s.store.cell? p)) (l.total p (delivered i l.kind s a)) := by
  cases a with
  | flush j kind =>
    rw [step, cell?_flush]
    exact (l.join_nothing _).symm
  | answer n =>
    rw [step]
    rcases answer_cases s n with ⟨none, same⟩ | ⟨j, r, _, _, _, _, found, now, _, _, store⟩
    · simp [same, delivered, none, l.join_nothing]
    · have member : (j, r) ∈ s.underWay := by simp [now]
      have owned (touched : p ∈ r.cells) : i = j ∧ r.kind? = some l.kind := by
        obtain ⟨kind, same, made⟩ := separate.request sound member touched
        obtain ⟨rfl, rfl⟩ := Prod.mk.inj (Option.some.inj same)
        exact ⟨rfl, made⟩
      have stored : (s.answer n).store.cell? p = (s.store.carryOut r).2.cell? p := by
        rw [store]
        rfl
      rw [stored]
      simp only [delivered, found]
      by_cases here : j = i
      · rw [if_pos here]
        exact l.stored_carryOut fun touched => (owned touched).2
      · rw [if_neg here, cell?_carryOut fun touched => here (owned touched).1.symm]
        exact (l.join_nothing _).symm
  | carryOut r =>
    rw [step, cell?_carryOut spares]
    exact (l.join_nothing _).symm
  | _ => exact (l.join_nothing _).symm

theorem stored_run_eq (l : Ledger) {s : Writing ι} {i : ι} {p : Cell} {actions : List (Action ι)}
    (guarded : s.Guarded (some (i, l.kind)) p actions) :
    l.stored ((s.run actions).store.cell? p) =
      l.join (l.stored (s.store.cell? p)) (l.total p (along (delivered i l.kind) s actions)) := by
  induction actions generalizing s with
  | nil => exact (l.join_nothing _).symm
  | cons a actions ih =>
    have first := stored_step_eq l guarded.sound guarded.separate guarded.head
    have rest := ih guarded.tail
    rw [first, l.assoc, ← l.total_append] at rest
    exact rest

/-- What a writer is asked to change it accepts or turns away. -/
theorem told_perm (s : Writing ι) (i : ι) (kind : Flushing) (actions : List (Action ι)) :
    ((told i actions).flatMap fun m => (s.writers i).changes m kind).Perm
      (along (accepted i kind) s actions ++
        (along (turnedAway i) s actions).flatMap fun m => (s.writers i).changes m kind) := by
  induction actions generalizing s with
  | nil => exact .refl _
  | cons a actions ih =>
    have same : ((s.step a).writers i).changes = (s.writers i).changes :=
      changes_of_bare (bare_step s a i)
    have rest := ih (s.step a)
    rw [same] at rest
    cases a with
    | mutate j m =>
      by_cases mine : j = i
      · subst mine
        rw [along, along]
        cases room : (s.writers j).admits m with
        | true =>
          simpa [told, addressed, mutations, accepted, BatchedWriter.admitted, turnedAway, room]
            using rest.append_left ((s.writers j).changes m kind)
        | false =>
          have shifted := (rest.append_left ((s.writers j).changes m kind)).trans
            (List.perm_append_comm_assoc _ _ _)
          simpa [told, addressed, mutations, accepted, BatchedWriter.admitted, turnedAway, room]
            using shifted
      · simpa [along, told, addressed, mutations, accepted, turnedAway, mine] using rest
    | _ => exact rest

end Writing

/-- How changes of one kind are accounted for. -/
def Flushing.ledger : Flushing → Ledger
  | .counters => .counters
  | .maxima => .maxima

@[simp] theorem Flushing.kind_ledger (kind : Flushing) : kind.ledger.kind = kind := by
  cases kind <;> rfl

theorem Flushing.absorbing_ledger (kind : Flushing) : kind.ledger.Absorbing := by
  cases kind
  · exact Ledger.absorbing_counters
  · exact Ledger.absorbing_maxima

namespace Writing

variable {ι : Type} [DecidableEq ι]

/-- What has become of the changes that a writer was told to make of a cell. Every delivered change
stands for a group of them, and so does every change that was dropped when it could not be put back.
The others were turned away, or they have cancelled each other out. -/
structure Accounted (s : Writing ι) (i : ι) (kind : Flushing) (c : Cell) (actions : List (Action ι))
    (sent lost : List (List Int64)) (cancelled : List Int64) : Prop where
  told : (deltas c ((told i actions).flatMap fun m => (s.writers i).changes m kind)).Perm
    (sent.flatten ++ lost.flatten ++ cancelled ++
      deltas c ((along (turnedAway i) s actions).flatMap fun m => (s.writers i).changes m kind))
  delivered : kind.ledger.Groups sent
    (deltas (s.place i c) (along (delivered i kind) s actions))
  dropped : kind.ledger.Groups lost (deltas c (along (refused i kind) s actions))
  cancelled : kind.ledger.sum cancelled = kind.ledger.nothing
  /-- What was delivered is in the store, if nobody else changes the cell. -/
  stored : (∀ a ∈ actions, s.Spares (some (i, kind)) (s.place i c) a) →
    kind.ledger.stored ((s.run actions).store.cell? (s.place i c)) =
      kind.ledger.join (kind.ledger.stored (s.store.cell? (s.place i c)))
        (kind.ledger.sum sent.flatten)

/-- When its flushes have ended and nothing of a cell is pending, a writer accounts for every change
that it was told to make of it. -/
theorem accounted {s : Writing ι} (idle : s.Idle) (i : ι) (kind : Flushing) (c : Cell)
    {actions : List (Action ι)} (rests : (s.run actions).Rests i)
    (flushed : (((s.run actions).writers i).pending kind).get? c = none) :
    ∃ sent lost cancelled, s.Accounted i kind c actions sent lost cancelled := by
  have same : kind.ledger.kind = kind := kind.kind_ledger
  obtain ⟨b, all, pending, onWay, sent, lost⟩ :=
    traced_run (idle.traced kind.ledger i c) kind.absorbing_ledger idle.sound actions
  simp only [same, rests.onWay, flushed, place_run, List.nil_append] at all pending onWay sent lost
  have none : b.onWay = [] := List.map_eq_nil_iff.1 onWay
  refine ⟨b.delivered, b.dropped, b.pending, ?_, sent, lost, ?_, fun spares => ?_⟩
  · have told := deltas_perm (told_perm s i kind actions) c
    rw [deltas_append] at told
    refine told.trans (List.Perm.append_right _ (all.symm.trans ?_))
    simp only [Bags.all, none, List.flatten_nil, List.append_nil, List.perm_iff_count,
      List.count_append]
    intro v
    omega
  · rw [← pending, kind.ledger.held_none]
  · have stored := stored_run_eq kind.ledger (idle.guarded (same.symm ▸ spares))
    rw [stored, sent.sum_flatten, same]
    rfl

end Writing

end CallTelemetry.Pending
