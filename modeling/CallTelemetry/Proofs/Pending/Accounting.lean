import CallTelemetry.Proofs.Pending.Direct
import CallTelemetry.Proofs.Pending.Provenance

/-! Which losses are reported. A batched writer reports every change that it turns away and every
change that it cannot put back. A direct writer reports the calls that it gives up; a request that
fails while its call still waits is lost without a report. -/
namespace CallTelemetry

open Pending

/-- A store goes on to another while it carries out requests, each of which ends as the store has it at
that time. Meanwhile requests arrive, and the store is told to fail or to be slow. -/
inductive Store.Serves (s : Store) : List (Request × Except StoreError Unit) → Store → Prop
  | rest : Serves s [] s
  | carryOut {log s'} (r : Request) : Serves s log s' →
    Serves s (log ++ [(r, (s'.carryOut r).1)]) (s'.carryOut r).2
  | arrive {log s'} : Serves s log s' → Serves s log s'.arrive
  | failNext {log s'} (count : Nat) : Serves s log s' → Serves s log { s' with dueFailures := count }
  | slow {log s'} (latency : Option Nat) : Serves s log s' → Serves s log { s' with latency }

theorem Store.Serves.trans {s s' s'' : Store} {log log' : List (Request × Except StoreError Unit)}
    (first : s.Serves log s') (second : s'.Serves log' s'') : s.Serves (log ++ log') s'' := by
  induction second with
  | rest => rwa [List.append_nil]
  | carryOut r _ ih =>
    rw [← List.append_assoc]
    exact ih.carryOut r
  | arrive _ ih => exact ih.arrive
  | failNext count _ ih => exact ih.failNext count
  | slow latency _ ih => exact ih.slow latency

/-- The request that a task brings to the store, if that is all it does. -/
def Task.request? : Task → Option Request
  | .arrive r | .carryOut r => some r
  | _ => none

/-- A request of an event that the store has carried out. -/
structure Attempt where
  id : Nat
  request : Request
  outcome : Except StoreError Unit

namespace Timeline

/-- The requests that are under way, by their events. -/
def underWay (t : Timeline) : List (Nat × Request) :=
  t.events.filterMap fun e => e.task.request?.map (e.id, ·)

/-- Whether a timeline goes on to another by nothing but carrying out requests that are under way. -/
structure Serves (t : Timeline) (log : List Attempt) (t' : Timeline) : Prop where
  store : t.store.Serves (log.map fun a => (a.request, a.outcome)) t'.store
  underWay : t.underWay.Perm (log.map (fun a => (a.id, a.request)) ++ t'.underWay)
  writers : t'.writers = t.writers
  nextId : t'.nextId = t.nextId
  requests : ∀ e ∈ t'.events, e.task.request? ≠ none

theorem Serves.trans {t t' t'' : Timeline} {log log' : List Attempt} (first : t.Serves log t')
    (second : t'.Serves log' t'') : t.Serves (log ++ log') t'' where
  store := by
    rw [List.map_append]
    exact first.store.trans second.store
  underWay := by
    rw [List.map_append, List.append_assoc]
    exact first.underWay.trans (second.underWay.append_left _)
  writers := second.writers.trans first.writers
  nextId := second.nextId.trans first.nextId
  requests := second.requests

theorem serves_rest {t : Timeline} (requests : ∀ e ∈ t.events, e.task.request? ≠ none) :
    t.Serves [] t := ⟨.rest, .refl _, rfl, rfl, requests⟩

/-- An event carries out its request, or the request waits until its time has come. -/
theorem serves_runEvent {t : Timeline} {e : Event} {rest : List Event} (events : t.events = e :: rest)
    (requests : ∀ e ∈ t.events, e.task.request? ≠ none) :
    ∃ log, t.Serves log ({ t with events := rest }.runEvent e) := by
  rw [events] at requests
  obtain ⟨here, later⟩ := List.forall_mem_cons.1 requests
  have front {r : Request} (same : e.task.request? = some r) :
      t.underWay = (e.id, r) :: ({ t with events := rest } : Timeline).underWay := by
    simp [underWay, events, same]
  unfold runEvent
  cases task : e.task with
  | flush => simp [Task.request?, task] at here
  | flusher => simp [Task.request?, task] at here
  | carryOut r =>
    refine ⟨[⟨e.id, r, (t.store.carryOut r).1⟩], ?_, ?_, rfl, rfl, later⟩
    · exact (Store.Serves.rest (s := t.store)).carryOut r
    · rw [front (r := r) (by rw [task]; rfl)]
      exact .refl _
  | arrive r =>
    have front := front (r := r) (by rw [task]; rfl)
    unfold runTask
    dsimp only
    split
    next due left t' same =>
      split at same
      next delay _ =>
        cases same
        refine ⟨[], (Store.Serves.rest (s := t.store)).arrive, ?_, rfl, rfl, fun e' member => ?_⟩
        · let waiting : Event := ⟨max t.now e.due + delay, e.id, .carryOut r⟩
          have perm := (insertEvent_perm waiting rest).filterMap fun e =>
            e.task.request?.map (e.id, ·)
          rw [front]
          exact perm.symm
        · rcases List.mem_cons.1 ((insertEvent_perm _ rest).mem_iff.1 member) with rfl | member
          · simp [Task.request?]
          · exact later e' member
      next => cases same
    next t' same =>
      split at same
      next => cases same
      next =>
        cases same
        refine ⟨[⟨e.id, r, (t.store.arrive.carryOut r).1⟩],
          (Store.Serves.rest (s := t.store)).arrive.carryOut r, ?_, rfl, rfl, later⟩
        rw [front]
        exact .refl _

theorem serves_run (deadline : Nat) (awaited : Option Nat) (fuel : Nat) {t : Timeline}
    (requests : ∀ e ∈ t.events, e.task.request? ≠ none) :
    ∃ log, t.Serves log (run deadline awaited fuel t) := by
  induction fuel generalizing t with
  | zero => exact ⟨[], serves_rest requests⟩
  | succ fuel ih =>
    rw [run]
    split
    next => exact ⟨[], serves_rest requests⟩
    next e rest events =>
      split
      next => exact ⟨[], serves_rest requests⟩
      next =>
        obtain ⟨log, first⟩ := serves_runEvent events requests
        obtain ⟨log', rest⟩ := ih first.requests
        exact ⟨log ++ log', first.trans rest⟩

theorem serves_sleep {t : Timeline} (requests : ∀ e ∈ t.events, e.task.request? ≠ none)
    (millis : Nat) : ∃ log, t.Serves log (t.sleep millis) := by
  unfold sleep sleepUntil
  split
  · exact ⟨[], serves_rest requests⟩
  · obtain ⟨log, ran⟩ := serves_run (t.now + millis) none (t.work (t.now + millis)) requests
    exact ⟨log, ran.store, ran.underWay, ran.writers, ran.nextId, ran.requests⟩

theorem serves_awaitUntil {t : Timeline} (requests : ∀ e ∈ t.events, e.task.request? ≠ none)
    (id deadline : Nat) : ∃ log, t.Serves log (t.awaitUntil id deadline) := by
  obtain ⟨log, ran⟩ := serves_run deadline (some id) (t.work deadline) requests
  refine ⟨log, ?_⟩
  unfold awaitUntil
  dsimp only
  split
  · exact ⟨ran.store, ran.underWay, ran.writers, ran.nextId, ran.requests⟩
  · exact ran

/-- What a script does with a direct writer, and with the store. -/
inductive Act where
  | mutate (m : Mutation)
  | flush
  | sleep (millis : Nat)
  | failNext (count : Nat)
  | slow (latency : Option Nat)

def act (name : String) (t : Timeline) : Act → Timeline
  | .mutate m => t.mutate name m
  | .flush => t.flush [(name, .counters), (name, .maxima)]
  | .sleep millis => t.sleep millis
  | .failNext count => { t with store := { t.store with dueFailures := count } }
  | .slow latency => { t with store := { t.store with latency } }

def acts (name : String) (t : Timeline) (l : List Act) : Timeline := l.foldl (act name) t

/-- What the acts of a script come to, each at the time that it meets. -/
def along (f : String → Timeline → Act → List α) (name : String) : Timeline → List Act → List α
  | _, [] => []
  | t, a :: l => f name t a ++ along f name (t.act name a) l

/-- The request that a direct writer makes by an act, with its event. -/
def made (name : String) (t : Timeline) : Act → List (Nat × Request)
  | .mutate m =>
    match t.writers.get? name with
    | some (.direct w) => (w.request? m).toList.map (t.nextId, ·)
    | _ => []
  | _ => []

/-- The event of a request that is still under way when its call has ended. -/
def givenUp (name : String) (t : Timeline) : Act → List Nat
  | .mutate m => if (t.mutate name m).isUnderWay t.nextId then [t.nextId] else []
  | _ => []

/-- Whether there are no batched writers, and nothing but requests is under way. -/
structure Unbatched (t : Timeline) : Prop where
  direct : ∀ name b, t.writers.get? name ≠ some (.batched b)
  requests : ∀ e ∈ t.events, e.task.request? ≠ none
  fresh : ∀ e ∈ t.events, e.id < t.nextId

theorem isUnderWay_of_mem {t : Timeline} {e : Nat × Request} (member : e ∈ t.underWay) :
    t.isUnderWay e.1 := by
  obtain ⟨e', inside, same⟩ := List.mem_filterMap.1 member
  obtain ⟨r, _, rfl⟩ := Option.map_eq_some_iff.1 same
  exact List.any_eq_true.2 ⟨e', inside, beq_self_eq_true _⟩

theorem mem_underWay {t : Timeline} {e : Event} (member : e ∈ t.events)
    (carries : e.task.request? ≠ none) : ∃ r, (e.id, r) ∈ t.underWay := by
  obtain ⟨r, same⟩ := Option.ne_none_iff_exists'.1 carries
  exact ⟨r, List.mem_filterMap.2 ⟨e, member, by rw [same]; rfl⟩⟩

theorem unbatched_serves {t t' : Timeline} (unbatched : t.Unbatched) {log : List Attempt}
    (serves : t.Serves log t') : t'.Unbatched where
  direct := serves.writers ▸ unbatched.direct
  requests := serves.requests
  fresh e member := by
    obtain ⟨r, inside⟩ := mem_underWay member (serves.requests e member)
    have before := serves.underWay.mem_iff.2 (List.mem_append_right _ inside)
    obtain ⟨e', member', same⟩ := List.mem_filterMap.1 before
    obtain ⟨_, _, same⟩ := Option.map_eq_some_iff.1 same
    have id : e'.id = e.id := congrArg Prod.fst same
    rw [serves.nextId, ← id]
    exact unbatched.fresh e' member'

theorem unbatched_spawn {t : Timeline} (unbatched : t.Unbatched) (r : Request) :
    (t.spawn (.arrive r)).2.Unbatched ∧
      (t.spawn (.arrive r)).2.underWay.Perm ((t.nextId, r) :: t.underWay) := by
  let e : Event := ⟨t.now, t.nextId, .arrive r⟩
  have perm : (t.spawn (.arrive r)).2.events.Perm (e :: t.events) := insertEvent_perm e t.events
  refine ⟨⟨unbatched.direct, fun e' member => ?_, fun e' member => ?_⟩, perm.filterMap _⟩
  · rcases List.mem_cons.1 (perm.mem_iff.1 member) with rfl | member
    · simp [e, Task.request?]
    · exact unbatched.requests e' member
  · rcases List.mem_cons.1 (perm.mem_iff.1 member) with rfl | member
    · exact Nat.lt_succ_self _
    · exact Nat.lt_succ_of_lt (unbatched.fresh e' member)

/-- A call spawns its request, and waits for it unless it gives up at once. -/
theorem mutate_eq {t : Timeline} {name : String} {w : DirectWriter}
    (found : t.writers.get? name = some (.direct w)) {m : Mutation} {r : Request}
    (makes : w.request? m = some r) :
    t.mutate name m =
      let t' := (t.spawn (.arrive r)).2
      if w.timeout = 0 then t'.reportTimeout name
      else
        let waited := t'.awaitUntil t.nextId (t'.now + w.timeout)
        if waited.isUnderWay t.nextId then waited.reportTimeout name else waited := by
  rw [mutate, found]
  simp only [makes]
  rfl

/-- A call gives up if its request is still under way when it has waited. -/
theorem mutate_direct {t : Timeline} (unbatched : t.Unbatched) {name : String} {w : DirectWriter}
    (found : t.writers.get? name = some (.direct w)) {m : Mutation} {r : Request}
    (makes : w.request? m = some r) :
    ∃ log waited, (t.spawn (.arrive r)).2.Serves log waited ∧
      t.mutate name m =
        if waited.isUnderWay t.nextId then waited.reportTimeout name else waited := by
  obtain ⟨spawned, under⟩ := unbatched_spawn unbatched r
  rw [mutate_eq found makes]
  by_cases impatient : w.timeout = 0
  · refine ⟨[], _, serves_rest spawned.requests, ?_⟩
    have waits : (t.spawn (.arrive r)).2.isUnderWay t.nextId :=
      isUnderWay_of_mem (e := (t.nextId, r)) (under.mem_iff.2 List.mem_cons_self)
    simp only [impatient, waits, ↓reduceIte]
  · obtain ⟨log, serves⟩ := serves_awaitUntil spawned.requests t.nextId
      ((t.spawn (.arrive r)).2.now + w.timeout)
    exact ⟨log, _, serves, by simp only [impatient, ↓reduceIte]⟩

/-- What has become of the requests of a direct writer: the store has carried them out, or they are
under way and their calls have been given up. -/
structure Attempted (name : String) (w : DirectWriter) (s : Store) (t : Timeline)
    (log : List Attempt) (made : List (Nat × Request)) (up : List Nat) : Prop where
  unbatched : t.Unbatched
  store : s.Serves (log.map fun a => (a.request, a.outcome)) t.store
  requests : made.Perm (log.map (fun a => (a.id, a.request)) ++ t.underWay)
  numbered : ∀ e ∈ made, e.1 < t.nextId
  apart : (made.map (·.1)).Nodup
  writer : t.writers.get? name = some (.direct
    { w with report := { w.report with syncTimeout := w.report.syncTimeout + up.length } })
  givenUp : ∀ e ∈ t.underWay, e.1 ∈ up

section

variable {name : String} {w : DirectWriter} {s : Store} {t : Timeline} {log : List Attempt}
  {requests : List (Nat × Request)} {up : List Nat}
  (attempted : t.Attempted name w s log requests up)

include attempted

theorem attempted_serves {t' : Timeline} {log' : List Attempt} (serves : t.Serves log' t') :
    t'.Attempted name w s (log ++ log') requests up where
  unbatched := unbatched_serves attempted.unbatched serves
  store := by
    rw [List.map_append]
    exact attempted.store.trans serves.store
  requests := by
    rw [List.map_append, List.append_assoc]
    exact attempted.requests.trans (serves.underWay.append_left _)
  numbered := serves.nextId ▸ attempted.numbered
  apart := attempted.apart
  writer := by
    rw [serves.writers]
    exact attempted.writer
  givenUp e member := attempted.givenUp e
    (serves.underWay.mem_iff.2 (List.mem_append_right _ member))

theorem attempted_mutate (m : Mutation) :
    ∃ log', (t.mutate name m).Attempted name w s (log ++ log')
      (requests ++ made name t (.mutate m)) (up ++ givenUp name t (.mutate m)) := by
  let w' : DirectWriter :=
    { w with report := { w.report with syncTimeout := w.report.syncTimeout + up.length } }
  have found : t.writers.get? name = some (.direct w') := attempted.writer
  cases makes : w'.request? m with
  | none =>
    have same : t.mutate name m = t := by simp [mutate, found, makes]
    have absent : t.isUnderWay t.nextId = false := List.any_eq_false.2 fun e member =>
      by simpa using Nat.ne_of_lt (attempted.unbatched.fresh e member)
    refine ⟨[], ?_⟩
    simpa [made, givenUp, found, makes, same, absent] using attempted
  | some r =>
    obtain ⟨log', waited, serves, called⟩ := mutate_direct attempted.unbatched found makes
    obtain ⟨spawned, under⟩ := unbatched_spawn attempted.unbatched r
    have unbatched := unbatched_serves spawned serves
    have request : made name t (.mutate m) = [(t.nextId, r)] := by simp [made, found, makes]
    have store : s.Serves ((log ++ log').map fun a => (a.request, a.outcome)) waited.store := by
      rw [List.map_append]
      exact attempted.store.trans serves.store
    have perm : (requests ++ made name t (.mutate m)).Perm
        ((log ++ log').map (fun a => (a.id, a.request)) ++ waited.underWay) := by
      rw [request, List.map_append, List.append_assoc]
      refine (attempted.requests.append_right _).trans ?_
      rw [List.append_assoc]
      refine List.Perm.append_left _ (List.perm_append_comm.trans ?_)
      exact under.symm.trans serves.underWay
    have numbered : ∀ e ∈ requests ++ made name t (.mutate m), e.1 < waited.nextId := by
      intro e member
      rw [serves.nextId]
      rw [request] at member
      rcases List.mem_append.1 member with member | member
      · exact Nat.lt_succ_of_lt (attempted.numbered e member)
      · obtain rfl := List.mem_singleton.1 member
        exact Nat.lt_succ_self _
    have apart : ((requests ++ made name t (.mutate m)).map (·.1)).Nodup := by
      rw [request, List.map_append, List.map_singleton]
      refine (List.nodup_append_comm.1 ?_)
      refine List.nodup_cons.2 ⟨fun member => ?_, attempted.apart⟩
      obtain ⟨e, member, same⟩ := List.mem_map.1 member
      exact Nat.ne_of_lt (attempted.numbered e member) same
    have writers : waited.writers.get? name = some (.direct w') := by
      rw [serves.writers]
      exact found
    have left (e : Nat × Request) (member : e ∈ waited.underWay) : e.1 = t.nextId ∨ e.1 ∈ up := by
      have before := under.mem_iff.1 (serves.underWay.mem_iff.2 (List.mem_append_right _ member))
      rcases List.mem_cons.1 before with rfl | before
      · exact .inl rfl
      · exact .inr (attempted.givenUp e before)
    cases late : waited.isUnderWay t.nextId with
    | true =>
      rw [late, if_pos rfl] at called
      have gaveUp : givenUp name t (.mutate m) = [t.nextId] := by
        rw [givenUp, called]
        exact if_pos late
      rw [called, gaveUp]
      refine ⟨log', ⟨reportTimeout_unbatched unbatched.direct writers, unbatched.requests,
        unbatched.fresh⟩, store, perm, numbered, apart, ?_, fun e member => ?_⟩
      · rw [get?_reportTimeout writers, List.length_append]
        rfl
      · rcases left e member with same | known
        · exact List.mem_append_right _ (List.mem_singleton.2 same)
        · exact List.mem_append_left _ known
    | false =>
      rw [late, if_neg Bool.false_ne_true] at called
      have none : givenUp name t (.mutate m) = [] := by
        rw [givenUp, called]
        exact if_neg (by simp [late])
      rw [called, none, List.append_nil]
      refine ⟨log', unbatched, store, perm, numbered, apart, writers, fun e member => ?_⟩
      rcases left e member with same | known
      · have waits := isUnderWay_of_mem member
        rw [same, late] at waits
        cases waits
      · exact known

/-- One act carries out requests, makes one or gives it up, and reports what it gives up. -/
theorem attempted_act (a : Act) :
    ∃ log', (t.act name a).Attempted name w s (log ++ log') (requests ++ made name t a)
      (up ++ givenUp name t a) := by
  cases a with
  | mutate m => exact attempted_mutate attempted m
  | flush =>
    have ended (e : Event) (member : e ∈ t.events) : e.id ≠ t.nextId :=
      Nat.ne_of_lt (attempted.unbatched.fresh e member)
    rw [act, flush_eq_of_direct attempted.unbatched.direct ended]
    refine ⟨[], ?_⟩
    simp only [made, givenUp, List.append_nil]
    exact ⟨⟨attempted.unbatched.direct, attempted.unbatched.requests, fun e member =>
      Nat.lt_succ_of_lt (attempted.unbatched.fresh e member)⟩, attempted.store, attempted.requests,
      fun e member => Nat.lt_succ_of_lt (attempted.numbered e member), attempted.apart,
      attempted.writer, attempted.givenUp⟩
  | sleep millis =>
    obtain ⟨log', serves⟩ := serves_sleep attempted.unbatched.requests millis
    refine ⟨log', ?_⟩
    simp only [made, givenUp, List.append_nil]
    exact attempted_serves attempted serves
  | failNext count =>
    refine ⟨[], ?_⟩
    simp only [made, givenUp, List.append_nil]
    exact ⟨⟨attempted.unbatched.direct, attempted.unbatched.requests, attempted.unbatched.fresh⟩,
      attempted.store.failNext count, attempted.requests, attempted.numbered, attempted.apart,
      attempted.writer, attempted.givenUp⟩
  | slow latency =>
    refine ⟨[], ?_⟩
    simp only [made, givenUp, List.append_nil]
    exact ⟨⟨attempted.unbatched.direct, attempted.unbatched.requests, attempted.unbatched.fresh⟩,
      attempted.store.slow latency, attempted.requests, attempted.numbered, attempted.apart,
      attempted.writer, attempted.givenUp⟩

theorem attempted_acts (l : List Act) :
    ∃ log', (t.acts name l).Attempted name w s (log ++ log') (requests ++ along made name t l)
      (up ++ along givenUp name t l) := by
  induction l generalizing t log requests up with
  | nil => exact ⟨[], by simpa [acts, along] using attempted⟩
  | cons a l ih =>
    obtain ⟨log', first⟩ := attempted_act attempted a
    obtain ⟨log'', rest⟩ := ih first
    exact ⟨log' ++ log'', by simpa [acts, along] using rest⟩

end

theorem attempted_start {t : Timeline} (quiet : t.events = [])
    (direct : ∀ name b, t.writers.get? name ≠ some (.batched b)) {name : String} {w : DirectWriter}
    (found : t.writers.get? name = some (.direct w)) :
    t.Attempted name w t.store [] [] [] where
  unbatched := ⟨direct, by simp [quiet], by simp [quiet]⟩
  store := .rest
  requests := by
    rw [underWay, quiet]
    exact .refl _
  numbered := by simp
  apart := List.nodup_nil
  writer := found
  givenUp := by simp [underWay, quiet]

end Timeline

namespace Pending

theorem Writing.Idle.reported {ι : Type} [DecidableEq ι] {s : Writing ι} (idle : s.Idle) {i : ι}
    (fresh : (s.writers i).bare = s.writers i) : s.Reported i 0 0 0 0 := by
  have report : (s.writers i).report = .empty := by
    rw [← fresh]
    rfl
  refine ⟨?_, ?_, ?_, ?_⟩ <;> rw [report]
  · rfl
  · rfl
  · rfl
  · rw [Writing.unreported, idle.deliveries]
    rfl

/-- For a batched writer that starts with nothing to write, whatever fails and however its flushes
overlap: once they have ended and nothing of a cell is pending, every change that it was told to make
of the cell was delivered to the store, or it was turned away, or it is in a group that could not be put
back; additions may also have cancelled out. Each change that was turned away and each group that was
dropped is reported once.

For a direct writer that starts with nothing under way, however slow the store is and whatever fails:
once all requests have ended, the store has carried out each of them once, and it is reported how
many calls were given up, and nothing else. So a request that fails while its call waits is lost without
a report. -/
theorem losses_reported {ι : Type} [DecidableEq ι] {s : Writing ι} (idle : s.Idle) {i : ι}
    (fresh : (s.writers i).bare = s.writers i) {kind : Flushing} {c : Cell}
    {actions : List (Writing.Action ι)} (rests : (s.run actions).Rests i)
    (flushed : (((s.run actions).writers i).pending kind).get? c = none)
    {t : Timeline} (quiet : t.events = [])
    (direct : ∀ name b, t.writers.get? name ≠ some (.batched b)) {name : String} {w : DirectWriter}
    (found : t.writers.get? name = some (.direct w)) (new : w.report = .empty)
    {l : List Timeline.Act} (ended : (t.acts name l).events = []) :
    (∃ sent lost cancelled, s.Accounted i kind c actions sent lost cancelled ∧
      let report := ((s.run actions).writers i).report
      report.incrementReject = (Writing.along (Writing.turnedAway i) s actions).length ∧
      report.restoreReject = (Writing.along (Writing.refused i .counters) s actions).length +
        (Writing.along (Writing.refused i .maxima) s actions).length) ∧
    ∃ log : List Attempt,
      t.store.Serves (log.map fun a => (a.request, a.outcome)) (t.acts name l).store ∧
      (Timeline.along Timeline.made name t l).Perm (log.map fun a => (a.id, a.request)) ∧
      (log.map (·.id)).Nodup ∧
      (t.acts name l).writers.get? name = some (.direct { w with report :=
        { Report.empty with syncTimeout := (Timeline.along Timeline.givenUp name t l).length } }) := by
  constructor
  · obtain ⟨sent, lost, cancelled, accounted⟩ := Writing.accounted idle i kind c rests flushed
    have sorted : s.Sorted := by simp [Writing.Sorted, idle.deliveries]
    have reported := Writing.reported_run (idle.reported fresh) idle.sound sorted actions
    refine ⟨sent, lost, cancelled, accounted, ?_, ?_⟩
    · rw [reported.incrementReject, Nat.zero_add]
    · rw [reported.restoreReject, Nat.zero_add]
  · obtain ⟨log, attempted⟩ :=
      Timeline.attempted_acts (Timeline.attempted_start quiet direct found) l
    have none : (t.acts name l).underWay = [] := by
      rw [Timeline.underWay, ended]
      rfl
    have requests := attempted.requests
    have writer := attempted.writer
    simp only [List.nil_append] at requests writer
    rw [none, List.append_nil] at requests
    rw [new] at writer
    refine ⟨log, attempted.store, requests, ?_, ?_⟩
    · have apart := (requests.map (·.1)).nodup_iff.1 attempted.apart
      rwa [List.map_map] at apart
    · have zero : Report.empty.syncTimeout = 0 := rfl
      rwa [zero, Nat.zero_add] at writer

/-- A direct writer over an empty store. -/
def patient : Timeline :=
  .start [("calls", .direct ⟨⟨"t"⟩, [0], ⟨16, by decide, by decide⟩, 100, .empty⟩)]

def oneCall : Timeline.Act := .mutate ⟨⟨[114], true⟩, [99], .add 5⟩

/-- A store that fails at once loses the addition of a call, and nothing is reported. -/
theorem failing_call_unreported :
    let l := [.failNext 1, oneCall]
    let t := patient.acts "calls" l
    t.events = [] ∧ (Timeline.along Timeline.made "calls" patient l).length = 1 ∧
      t.store.tables = .empty ∧ t.writers.values.map Writer.report = [Report.empty] := by
  decide

/-- One call in time, one that is given up and ends later, and one that fails. -/
def threeCalls : List Timeline.Act :=
  [oneCall, .slow (some 150), oneCall, .sleep 200, .slow none, .failNext 1, oneCall]

theorem losses_reported_crowded :
    let w := (Writing.crowded.run Writing.crowding).writers ()
    let t := patient.acts "calls" threeCalls
    (∃ sent lost cancelled,
      Writing.crowded.Accounted () .counters ⟨⟨"t"⟩, [1], [0], [1]⟩ Writing.crowding sent lost
        cancelled ∧
      w.report.incrementReject =
        (Writing.along (Writing.turnedAway ()) Writing.crowded Writing.crowding).length) ∧
    ∃ log : List Attempt,
      patient.store.Serves (log.map fun a => (a.request, a.outcome)) t.store ∧
      log.length = 3 ∧ (log.map (·.id)).Nodup ∧
      (t.writers.get? "calls").map Writer.report = some { Report.empty with syncTimeout := 1 } := by
  let c : Cell := ⟨⟨"t"⟩, [1], [0], [1]⟩
  have done : (Writing.crowded.run Writing.crowding).deliveries = [] := by cbv
  have rests : (Writing.crowded.run Writing.crowding).Rests () := by simp [Writing.Rests, done]
  have flushed : (((Writing.crowded.run Writing.crowding).writers ()).pending .counters).get? c =
      none := by cbv
  have single (name : String) (b : BatchedWriter) :
      patient.writers.get? name ≠ some (.batched b) := by
    simp [patient, Timeline.start, SortedMap.ofList, SortedMap.get?_insert]
  have ended : (patient.acts "calls" threeCalls).events = [] := by decide
  obtain ⟨⟨sent, lost, cancelled, accounted, refused, _⟩, log, serves, requests, apart, report⟩ :=
    losses_reported ⟨fun _ kind => by cases kind <;> rfl, rfl⟩ rfl rests flushed rfl single rfl rfl
      ended
  refine ⟨⟨sent, lost, cancelled, accounted, refused⟩, log, serves, ?_, apart, ?_⟩
  · have made : (Timeline.along Timeline.made "calls" patient threeCalls).length = 3 := by decide
    simpa [made] using requests.length_eq.symm
  · have up : (Timeline.along Timeline.givenUp "calls" patient threeCalls).length = 1 := by decide
    rw [report, up]
    rfl

end Pending

end CallTelemetry
