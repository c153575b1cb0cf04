import CallTelemetry.Proofs.Pending.Accounting
import CallTelemetry.Proofs.Pending.Reordering

/-! Requests that outlast their calls. A call of a direct writer that gives up leaves its request
beside the script, where it ends among those of later calls. As long as nothing fails, the store
carries out every request once; the order in which it does depends on the timeout, but what is
counted does not. -/
namespace CallTelemetry

open Pending

namespace Timeline

variable {P : Timeline → Prop}

/-- What every event keeps is kept by running any number of them. -/
theorem run_keeps
    (step : ∀ {t e rest}, t.events = e :: rest → P t → P ({ t with events := rest }.runEvent e))
    (deadline : Nat) (awaited : Option Nat) (fuel : Nat) {t : Timeline} (holds : P t) :
    P (run deadline awaited fuel t) := by
  induction fuel generalizing t with
  | zero => exact holds
  | succ fuel ih =>
    rw [run]
    split
    · exact holds
    next e rest events =>
      split
      · exact holds
      · exact ih (step events holds)

section

variable
  (step : ∀ {t e rest}, t.events = e :: rest → P t → P ({ t with events := rest }.runEvent e))
  (wait : ∀ {t} now, P t → P { t with now })

include step wait

theorem sleep_keeps {t : Timeline} (holds : P t) (millis : Nat) : P (t.sleep millis) := by
  unfold sleep sleepUntil
  split
  · exact holds
  · exact wait _ (run_keeps step _ _ _ holds)

theorem awaitUntil_keeps {t : Timeline} (holds : P t) (id deadline : Nat) :
    P (t.awaitUntil id deadline) := by
  have ran := run_keeps step deadline (some id) (t.work deadline) holds
  unfold awaitUntil
  dsimp only
  split
  · exact wait _ ran
  · exact ran

end

/-- An event with a request waits for the latency of the store, or has the request carried out. -/
theorem runEvent_request {t : Timeline} {e : Event} {r : Request}
    (carries : e.task.request? = some r) :
    (∃ delay, e.task = .arrive r ∧ t.delay? = some delay ∧
      t.runEvent e = { t with now := max t.now e.due, store := t.store.arrive }.addEvent
        ⟨max t.now e.due + delay, e.id, .carryOut r⟩) ∨
    ∃ s, (s = t.store ∨ s = t.store.arrive) ∧
      t.runEvent e = { t with now := max t.now e.due, store := (s.carryOut r).2 } := by
  unfold runEvent
  cases task : e.task with
  | flush => simp [Task.request?, task] at carries
  | flusher => simp [Task.request?, task] at carries
  | carryOut r' =>
    obtain rfl : r' = r := by simpa [Task.request?, task] using carries
    exact .inr ⟨t.store, .inl rfl, rfl⟩
  | arrive r' =>
    obtain rfl : r' = r := by simpa [Task.request?, task] using carries
    let arrived : Timeline := { t with now := max t.now e.due, store := t.store.arrive }
    cases late : t.delay? with
    | none =>
      have prompt : arrived.delay? = none := late
      refine .inr ⟨t.store.arrive, .inr rfl, ?_⟩
      simp only [runTask, arrived] at prompt ⊢
      rw [prompt]
    | some d =>
      have slow : arrived.delay? = some d := late
      refine .inl ⟨d, rfl, rfl, ?_⟩
      simp only [runTask, arrived] at slow ⊢
      rw [slow]

/-- Whether the events stand in the order of their times. -/
def Sorted (t : Timeline) : Prop := t.events.Pairwise (·.due ≤ ·.due)

theorem insertEvent_sorted {l : List Event} (e : Event) (sorted : l.Pairwise (·.due ≤ ·.due)) :
    (insertEvent e l).Pairwise (·.due ≤ ·.due) := by
  induction l with
  | nil => simp [insertEvent]
  | cons e' l ih =>
    obtain ⟨first, rest⟩ := List.pairwise_cons.1 sorted
    rw [insertEvent]
    split
    next before =>
      refine List.pairwise_cons.2 ⟨?_, sorted⟩
      intro e'' member
      rcases List.mem_cons.1 member with rfl | member
      · omega
      · have := first e'' member
        omega
    next after =>
      refine List.pairwise_cons.2 ⟨?_, ih rest⟩
      intro e'' member
      rcases List.mem_cons.1 ((insertEvent_perm e l).mem_iff.1 member) with rfl | member
      · omega
      · exact first e'' member

/-- What is asked of a direct writer by an act. -/
def Act.mutation? : Act → Option Mutation
  | .mutate m => some m
  | _ => none

/-- An act that makes no request fail. -/
def Act.Sure : Act → Prop
  | .failNext count => count = 0
  | _ => True

instance (a : Act) : Decidable a.Sure :=
  match a with
  | .failNext count => inferInstanceAs (Decidable (count = 0))
  | .mutate _ | .flush | .sleep _ | .slow _ => inferInstanceAs (Decidable True)

/-- What has become of the requests of a direct writer where nothing fails: the store has carried
out some of them in some order, and the others are under way. -/
structure Once (name : String) (w : DirectWriter) (s : Store) (asked : List Request)
    (t : Timeline) : Prop where
  unbatched : t.Unbatched
  sorted : t.Sorted
  sure : t.store.dueFailures = 0
  writer : ∃ report, t.writers.get? name = some (.direct { w with report })
  carried : ∃ order, s.Carries order t.store ∧ asked.Perm (order ++ t.underWay.map (·.2))

section

variable {name : String} {w : DirectWriter} {s : Store} {asked : List Request} {t : Timeline}

theorem once_now (once : t.Once name w s asked) (now : Nat) :
    Once name w s asked { t with now } :=
  ⟨⟨once.unbatched.direct, once.unbatched.requests, once.unbatched.fresh⟩, once.sorted, once.sure,
    once.writer, once.carried⟩

theorem underWay_cons {e : Event} {rest : List Event} {r : Request} (events : t.events = e :: rest)
    (carries : e.task.request? = some r) :
    t.underWay = (e.id, r) :: ({ t with events := rest } : Timeline).underWay := by
  simp [underWay, events, carries]

theorem underWay_addEvent (t : Timeline) {e : Event} {r : Request}
    (carries : e.task.request? = some r) :
    (t.addEvent e).underWay.Perm ((e.id, r) :: t.underWay) := by
  have perm := (insertEvent_perm e t.events).filterMap fun e => e.task.request?.map (e.id, ·)
  rwa [List.filterMap_cons_some (by rw [carries]; rfl)] at perm

theorem once_runEvent {e : Event} {rest : List Event} (events : t.events = e :: rest)
    (once : t.Once name w s asked) :
    ({ t with events := rest }.runEvent e).Once name w s asked := by
  obtain ⟨log, serves⟩ := serves_runEvent events once.unbatched.requests
  obtain ⟨order, carried, perm⟩ := once.carried
  obtain ⟨r, carries⟩ := Option.ne_none_iff_exists'.1
    (once.unbatched.requests e (by rw [events]; exact List.mem_cons_self))
  have sorted : rest.Pairwise (·.due ≤ ·.due) := by
    have sorted := once.sorted
    rw [Sorted, events] at sorted
    exact (List.pairwise_cons.1 sorted).2
  have writer : ∃ report, ({ t with events := rest }.runEvent e).writers.get? name =
      some (.direct { w with report }) := by
    rw [serves.writers]
    exact once.writer
  have unbatched := unbatched_serves once.unbatched serves
  rw [underWay_cons events carries] at perm
  rcases runEvent_request (t := { t with events := rest }) carries with
    ⟨delay, _, _, waits⟩ | ⟨s', before, ends⟩
  · rw [waits] at unbatched writer ⊢
    refine ⟨unbatched, insertEvent_sorted _ sorted, once.sure, writer, order, carried.arrive, ?_⟩
    have later := underWay_addEvent { t with
      now := max t.now e.due, store := t.store.arrive, events := rest }
      (e := ⟨max t.now e.due + delay, e.id, .carryOut r⟩) (r := r) rfl
    exact perm.trans ((later.map (·.2)).symm.append_left order)
  · have sure : s'.dueFailures = 0 := by rcases before with rfl | rfl <;> exact once.sure
    have carried : s.Carries order s' := by
      rcases before with rfl | rfl
      · exact carried
      · exact carried.arrive
    rw [ends, Writing.dueFailures_carryOut sure] at unbatched writer ⊢
    refine ⟨unbatched, sorted, (Writing.dueFailures_apply s' r).trans sure, writer, order ++ [r],
      carried.apply r, ?_⟩
    rw [List.append_assoc]
    exact perm

theorem once_reportTimeout (once : t.Once name w s asked) :
    (t.reportTimeout name).Once name w s asked := by
  obtain ⟨report, found⟩ := once.writer
  exact ⟨⟨reportTimeout_unbatched once.unbatched.direct found, once.unbatched.requests,
    once.unbatched.fresh⟩, once.sorted, once.sure, ⟨report.addTimeout, get?_reportTimeout found⟩,
    once.carried⟩

theorem once_spawn (once : t.Once name w s asked) (r : Request) :
    (t.spawn (.arrive r)).2.Once name w s (asked ++ [r]) := by
  obtain ⟨order, carried, perm⟩ := once.carried
  obtain ⟨unbatched, under⟩ := unbatched_spawn once.unbatched r
  refine ⟨unbatched, insertEvent_sorted _ once.sorted, once.sure, once.writer, order, carried, ?_⟩
  refine (perm.append_right [r]).trans ?_
  rw [List.append_assoc]
  exact (List.perm_append_comm.trans (under.map (·.2)).symm).append_left order

/-- Whether it gives up or not, a call has made its request. -/
theorem once_mutate (once : t.Once name w s asked) (m : Mutation) :
    (t.mutate name m).Once name w s (asked ++ (w.request? m).toList) := by
  obtain ⟨report, found⟩ := once.writer
  have same : DirectWriter.request? { w with report } m = w.request? m := rfl
  cases makes : w.request? m with
  | none =>
    have nothing : t.mutate name m = t := by simp [mutate, found, same, makes]
    simpa [nothing] using once
  | some r =>
    have spawned := once_spawn once r
    rw [mutate_eq found (same.trans makes)]
    dsimp only
    split
    · exact once_reportTimeout spawned
    · have waited := awaitUntil_keeps once_runEvent (fun now once => once_now once now) spawned
        t.nextId ((t.spawn (.arrive r)).2.now + w.timeout)
      split
      · exact once_reportTimeout waited
      · exact waited

theorem once_act (once : t.Once name w s asked) {a : Act} (sure : a.Sure) :
    (t.act name a).Once name w s (asked ++ (a.mutation?.bind w.request?).toList) := by
  have none (other : ∀ m, a ≠ .mutate m) :
      asked ++ (a.mutation?.bind w.request?).toList = asked := by
    cases a <;> simp_all [Act.mutation?]
  cases a with
  | mutate m => exact once_mutate once m
  | flush =>
    have ended (e : Event) (member : e ∈ t.events) : e.id ≠ t.nextId :=
      Nat.ne_of_lt (once.unbatched.fresh e member)
    rw [act, flush_eq_of_direct once.unbatched.direct ended, none (by simp)]
    exact ⟨⟨once.unbatched.direct, once.unbatched.requests, fun e member =>
      Nat.lt_succ_of_lt (once.unbatched.fresh e member)⟩, once.sorted, once.sure, once.writer,
      once.carried⟩
  | sleep millis =>
    rw [none (by simp)]
    exact sleep_keeps once_runEvent (fun now once => once_now once now) once millis
  | failNext count =>
    have zero : count = 0 := sure
    have same : t.act name (.failNext count) = t := by rw [act, zero, ← once.sure]
    rwa [none (by simp), same]
  | slow latency =>
    rw [none (by simp)]
    obtain ⟨order, carried, perm⟩ := once.carried
    exact ⟨⟨once.unbatched.direct, once.unbatched.requests, once.unbatched.fresh⟩, once.sorted,
      once.sure, once.writer, order, carried.slow latency, perm⟩

theorem once_acts (once : t.Once name w s asked) {l : List Act} (sure : ∀ a ∈ l, a.Sure) :
    (t.acts name l).Once name w s (asked ++ (l.filterMap Act.mutation?).filterMap w.request?) := by
  induction l generalizing t asked with
  | nil => simpa [acts] using once
  | cons a l ih =>
    have first := once_act once (sure a List.mem_cons_self)
    have later := ih first fun a' member => sure a' (List.mem_cons_of_mem a member)
    have requests : (a.mutation?.bind w.request?).toList ++
        (l.filterMap Act.mutation?).filterMap w.request? =
          ((a :: l).filterMap Act.mutation?).filterMap w.request? := by
      cases called : a.mutation? with
      | none => simp [called]
      | some m => cases made : w.request? m <;> simp [called, made]
    rwa [List.append_assoc, requests] at later

/-- When an event has ended, if the script only sleeps from now on. -/
def endsAt (t : Timeline) (e : Event) : Nat :=
  max t.now e.due + match e.task with
    | .arrive _ => t.delay?.getD 0
    | _ => 0

theorem due_le_endsAt (t : Timeline) (e : Event) : e.due ≤ t.endsAt e := by
  unfold endsAt
  omega

theorem now_le_endsAt (t : Timeline) (e : Event) : t.now ≤ t.endsAt e := by
  unfold endsAt
  omega

/-- Running an event before another does not delay the other. -/
theorem endsAt_later {t' : Timeline} {e e' : Event} (order : e.due ≤ e'.due)
    (now : t'.now = max t.now e.due) (delay : t'.delay? = t.delay?) :
    t'.endsAt e' = t.endsAt e' := by
  have same : max (max t.now e.due) e'.due = max t.now e'.due := by omega
  rw [endsAt, endsAt, now, delay, same]

theorem work_addEvent (t : Timeline) (e : Event) (deadline : Nat) :
    (t.addEvent e).work deadline = (deadline - e.due) + t.work deadline := by
  have inserted (l : List Event) : (insertEvent e l).foldr (deadline - ·.due + ·) 1 =
      deadline - e.due + l.foldr (deadline - ·.due + ·) 1 := by
    induction l with
    | nil => rfl
    | cons e' l ih =>
      rw [insertEvent]
      split
      · rfl
      · rw [List.foldr_cons, ih, List.foldr_cons]
        omega
  exact inserted t.events

theorem latency_carryOut (s : Store) (r : Request) : (s.carryOut r).2.latency = s.latency := by
  unfold Store.carryOut
  split
  · exact latency_apply s r
  · rfl

/-- An event that is run ends in time, or what is left of it does, and there is less to do. -/
theorem ahead_runEvent {e : Event} {r : Request} (first : ∀ e' ∈ t.events, e.due ≤ e'.due)
    (carries : e.task.request? = some r) {deadline : Nat} (here : t.endsAt e < deadline)
    (ahead : ∀ e' ∈ t.events, t.endsAt e' < deadline) :
    (∀ e' ∈ (t.runEvent e).events, (t.runEvent e).endsAt e' < deadline) ∧
      (t.runEvent e).work deadline < deadline - e.due + t.work deadline := by
  have due := due_le_endsAt t e
  rcases runEvent_request carries with ⟨delay, arrives, late, waits⟩ | ⟨s', before, ends⟩
  · have positive : 0 < delay := by simpa using (Option.filter_eq_some_iff.1 late).2
    let arrived : Timeline := { t with now := max t.now e.due, store := t.store.arrive }
    have work : arrived.work deadline = t.work deadline := rfl
    rw [waits, work_addEvent, work]
    constructor
    · intro e' member
      rcases List.mem_cons.1 ((insertEvent_perm _ _).mem_iff.1 member) with rfl | member
      · simp only [endsAt, arrives, late, Option.getD_some, addEvent] at here ⊢
        omega
      · have same : arrived.endsAt e' = t.endsAt e' := endsAt_later (first e' member) rfl rfl
        exact Nat.lt_of_le_of_lt (Nat.le_of_eq same) (ahead e' member)
    · dsimp only
      omega
  · have latency : (s'.carryOut r).2.latency = t.store.latency := by
      rw [latency_carryOut]
      rcases before with rfl | rfl <;> rfl
    let ended : Timeline := { t with now := max t.now e.due, store := (s'.carryOut r).2 }
    have delay : ended.delay? = t.delay? := by
      rw [delay?, latency]
      rfl
    have work : ended.work deadline = t.work deadline := rfl
    rw [ends, work]
    constructor
    · intro e' member
      have same : ended.endsAt e' = t.endsAt e' := endsAt_later (first e' member) rfl delay
      exact Nat.lt_of_le_of_lt (Nat.le_of_eq same) (ahead e' member)
    · omega

/-- All events end before the deadline if none would end later. -/
theorem run_ends {deadline fuel : Nat} (once : t.Once name w s asked)
    (ahead : ∀ e ∈ t.events, t.endsAt e < deadline) (enough : t.work deadline ≤ fuel) :
    (run deadline none fuel t).events = [] := by
  induction fuel generalizing t with
  | zero =>
    have few := t.work_le fun e member => Nat.lt_of_le_of_lt (due_le_endsAt t e) (ahead e member)
    rw [run]
    exact List.eq_nil_of_length_eq_zero (by omega)
  | succ fuel ih =>
    rw [run]
    split
    next none => exact none
    next e rest events =>
      have sorted := once.sorted
      rw [Sorted, events] at sorted
      have requests := once.unbatched.requests
      rw [events] at ahead requests
      obtain ⟨here, others⟩ := List.forall_mem_cons.1 ahead
      obtain ⟨r, carries⟩ := Option.ne_none_iff_exists'.1 (requests e List.mem_cons_self)
      let popped : Timeline := { t with events := rest }
      obtain ⟨later, less⟩ := ahead_runEvent (t := popped) (List.pairwise_cons.1 sorted).1 carries
        here others
      have work : t.work deadline = deadline - e.due + popped.work deadline := by
        simp [Timeline.work, events, popped]
      have due := due_le_endsAt t e
      have enough : (popped.runEvent e).work deadline ≤ fuel := by omega
      rw [if_neg (by simp; omega)]
      exact ih (once_runEvent events once) later enough

theorem sleep_ends {millis : Nat} (once : t.Once name w s asked)
    (passed : ∀ e ∈ t.events, t.endsAt e < t.now + millis) : (t.sleep millis).events = [] := by
  unfold sleep sleepUntil
  split
  next still =>
    apply List.eq_nil_iff_forall_not_mem.2
    intro e member
    have late := passed e member
    have now := now_le_endsAt t e
    omega
  next => exact run_ends once passed (Nat.le_refl _)

end

/-- With a direct writer that waits so long. -/
def writing (t : Timeline) (name : String) (w : DirectWriter) (timeout : Nat) : Timeline :=
  { t with writers := t.writers.insert name (.direct { w with timeout }) }

theorem once_writing {t : Timeline} (quiet : t.events = [])
    (direct : ∀ name b, t.writers.get? name ≠ some (.batched b)) (sure : t.store.dueFailures = 0)
    (name : String) (w : DirectWriter) (timeout : Nat) :
    (t.writing name w timeout).Once name { w with timeout } t.store [] where
  unbatched := by
    refine ⟨?_, by simp [writing, quiet], by simp [writing, quiet]⟩
    intro name' b found
    rw [writing, SortedMap.get?_insert] at found
    by_cases same : name' = name
    · simp [same] at found
    · rw [if_neg same] at found
      exact direct name' b found
  sorted := by simp [Sorted, writing, quiet]
  sure := sure
  writer := ⟨w.report, by simp [writing, SortedMap.get?_insert]⟩
  carried := ⟨[], .rest t.store, by simp [writing, underWay, quiet]⟩

/-- A direct writer over a store that may be slow but does not fail, where nothing else is under
way. Once the script has slept for longer than any request under way still takes, every request has
ended, also those of calls that were given up, and the store has carried out each of them once. A
cell that was only added to has grown by all additions, one that was only raised holds the largest
value, and if no cell is both added to and raised, the tables are those of requests carried out in
the order of their calls. None of this depends on the timeout. -/
theorem outlasting_requests_count {t : Timeline} (quiet : t.events = [])
    (direct : ∀ name b, t.writers.get? name ≠ some (.batched b)) (healthy : t.store.dueFailures = 0)
    (name : String) (w : DirectWriter) {l : List Act} (sure : ∀ a ∈ l, a.Sure)
    (timeout millis : Nat)
    (passed : let called := (t.writing name w timeout).acts name l
      ∀ e ∈ called.events, called.endsAt e < called.now + millis) :
    let ms := l.filterMap Act.mutation?
    let final := ((t.writing name w timeout).acts name l).sleep millis
    final.events = [] ∧
      (∃ order, order.Perm (ms.filterMap w.request?) ∧ t.store.Carries order final.store) ∧
      (∀ c, (∀ m ∈ ms, w.cell? m = some c → m.kind = .counters) →
        final.store.counterAt c = t.store.counterAt c + amount c (w.asked .counters ms)) ∧
      (∀ c, (∀ m ∈ ms, w.cell? m = some c → m.kind = .maxima) →
        final.store.peakAt c =
          Option.merge max (t.store.peakAt c) (peak c (w.asked .maxima ms))) ∧
      (w.Apart ms → t.store.Carries (ms.filterMap w.request?) final.store) := by
  intro ms final
  have called := once_acts (once_writing quiet direct healthy name w timeout) sure
  have ended : final.events = [] := sleep_ends called passed
  have once := sleep_keeps once_runEvent (fun now once => once_now once now) called millis
  obtain ⟨order, carries, perm⟩ := once.carried
  have perm : order.Perm (ms.filterMap w.request?) := by
    have nothing : final.underWay = [] := by rw [underWay, ended, List.filterMap_nil]
    rw [nothing, List.map_nil, List.append_nil] at perm
    exact perm.symm
  refine ⟨ended, ⟨order, perm, carries⟩, ?_, ?_, carries.reorder perm⟩
  · intro c alone
    exact carries.stored_asked perm .counters alone
  · intro c alone
    exact carries.stored_asked perm .maxima alone

/-- Two additions to a cell, the first of them slow, and two values that another is raised to. -/
def slowCalls : List Act :=
  let row : RowImage := ⟨[114], true⟩
  [.slow (some 150), .mutate ⟨row, [99], .add 5⟩, .slow (some 20), .mutate ⟨row, [99], .add 7⟩,
    .mutate ⟨row, [109], .raise 9⟩, .slow none, .mutate ⟨row, [109], .raise 4⟩]

/-- A writer that gives up every call and one that gives up the first only leave the same tables. -/
theorem outlasting_requests_count_slow :
    let w : DirectWriter := ⟨⟨"t"⟩, [0], ⟨16, by decide, by decide⟩, 0, .empty⟩
    let cell (column : UInt8) : Cell := ⟨⟨"t"⟩, w.salting.salted [114], [0], [column]⟩
    let hasty := (((start []).writing "calls" w 0).acts "calls" slowCalls).sleep 200
    let patient := (((start []).writing "calls" w 100).acts "calls" slowCalls).sleep 200
    hasty.writers.values.map (·.report.syncTimeout) = [4] ∧
      patient.writers.values.map (·.report.syncTimeout) = [1] ∧
      hasty.store.counterAt (cell 99) = 12 ∧ patient.store.counterAt (cell 99) = 12 ∧
      hasty.store.peakAt (cell 109) = some 9 ∧ patient.store.peakAt (cell 109) = some 9 ∧
      hasty.store.tables = patient.store.tables := by
  intro w cell hasty patient
  have alone (name : String) (b : BatchedWriter) :
      (start []).writers.get? name ≠ some (.batched b) := by simp [start, SortedMap.ofList]
  have sure : ∀ a ∈ slowCalls, a.Sure := by decide
  have counters : ∀ m ∈ slowCalls.filterMap Act.mutation?,
      w.cell? m = some (cell 99) → m.kind = .counters := by decide
  have maxima : ∀ m ∈ slowCalls.filterMap Act.mutation?,
      w.cell? m = some (cell 109) → m.kind = .maxima := by decide
  have apart : w.Apart (slowCalls.filterMap Act.mutation?) := by decide
  have sum : amount (cell 99) (w.asked .counters (slowCalls.filterMap Act.mutation?)) = 12 := by
    decide
  have largest :
      peak (cell 109) (w.asked .maxima (slowCalls.filterMap Act.mutation?)) = some 9 := by
    decide
  obtain ⟨_, _, counted, raised, tables⟩ :=
    outlasting_requests_count rfl alone rfl "calls" w sure 0 200 (by decide)
  obtain ⟨_, _, counted', raised', tables'⟩ :=
    outlasting_requests_count rfl alone rfl "calls" w sure 100 200 (by decide)
  obtain ⟨_, _, hastily⟩ := tables apart
  obtain ⟨_, _, patiently⟩ := tables' apart
  refine ⟨by decide, by decide, ?_, ?_, ?_, ?_, ?_⟩
  · exact (counted _ counters).trans (by rw [sum]; rfl)
  · exact (counted' _ counters).trans (by rw [sum]; rfl)
  · exact (raised _ maxima).trans (by rw [largest]; rfl)
  · exact (raised' _ maxima).trans (by rw [largest]; rfl)
  · simp only [hasty, patient]
    rw [hastily, patiently]

end Timeline

end CallTelemetry
