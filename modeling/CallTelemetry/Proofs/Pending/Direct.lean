import CallTelemetry.Proofs.Pending.Calls

/-! Calls of a direct writer whose store answers at once. A call that gives up at once leaves its
request beside the script, which carries it out as soon as it sleeps; in the end the store has
carried out the requests of all calls in their order. -/
namespace CallTelemetry

open Pending

namespace Pending.DirectWriter

/-- Carries out the request of a mutation. -/
def write (w : DirectWriter) (s : Store) (m : Mutation) : Store :=
  match w.request? m with
  | some r => s.arrive.apply r
  | none => s

end Pending.DirectWriter

namespace Timeline

/-- Carries out a request that is still on its way. -/
def settle (s : Store) (e : Event) : Store :=
  match e.task with
  | .arrive r => s.arrive.apply r
  | _ => s

/-- The store when all requests under way have been carried out. -/
def settled (t : Timeline) : Store := t.events.foldl settle t.store

/-- Whether a direct writer is alone, requests neither take time nor fail, and nothing but requests is
under way. -/
structure Direct (name : String) (w : DirectWriter) (t : Timeline) : Prop extends t.Prompt where
  writer : ∃ report, t.writers.get? name = some (.direct { w with report })
  direct : ∀ name' b, t.writers.get? name' ≠ some (.batched b)
  arriving : ∀ e ∈ t.events, e.due = t.now ∧ e.id < t.nextId ∧ ∃ r, e.task = .arrive r

theorem insertEvent_last {l : List Event} {e : Event} (early : ∀ e' ∈ l, e'.due ≤ e.due) :
    insertEvent e l = l ++ [e] := by
  induction l with
  | nil => rfl
  | cons e' l ih =>
    have first := early e' List.mem_cons_self
    rw [insertEvent, if_neg (by omega), ih fun e'' member => early e'' (List.mem_cons_of_mem _ member)]
    rfl

theorem runEvent_arrive {t : Timeline} (prompt : t.Prompt) {e : Event} {r : Request}
    (task : e.task = .arrive r) (due : e.due = t.now) :
    t.runEvent e = { t with store := t.store.arrive.apply r } := by
  have arrived : delay? { t with store := t.store.arrive } = none := prompt.delay
  have carried : t.store.arrive.carryOut r = (.ok (), t.store.arrive.apply r) :=
    Writing.dueFailures_carryOut prompt.failures
  unfold runEvent
  rw [due, Nat.max_self, task]
  simp only [runTask]
  rw [arrived]
  simp [carried]

/-- Requests that are due are carried out in their order, up to the awaited one, which is the last. -/
theorem run_arriving (awaited : Option Nat) (fuel : Nat) {t : Timeline} (prompt : t.Prompt)
    (arriving : ∀ e ∈ t.events, e.due = t.now ∧ ∃ r, e.task = .arrive r) {deadline : Nat}
    (ahead : t.now < deadline) (enough : t.events.length ≤ fuel)
    (last : ∀ id ∈ awaited, ∀ e ∈ t.events.getLast?, e.id = id) :
    run deadline awaited fuel t = { t with events := [], store := t.settled } := by
  induction fuel generalizing t with
  | zero =>
    have none : t.events = [] := List.length_eq_zero_iff.1 (by omega)
    rw [run, settled, none]
    cases t
    simp_all
  | succ fuel ih =>
    rw [run]
    split
    next none =>
      rw [settled, none]
      cases t
      simp_all
    next e rest events =>
      obtain ⟨due, r, task⟩ := arriving e (by simp [events])
      have goesOn : ¬(deadline ≤ e.due ∨
          awaited.any fun id => !t.events.any fun e => e.id == id) := by
        rintro (late | ended)
        · omega
        · cases awaited with
          | none => simp at ended
          | some id =>
            let e' := rest.getLast?.getD e
            have final : t.events.getLast? = some e' := by rw [events, List.getLast?_cons]
            have found := last id rfl e' final
            have present : t.events.any (fun e => e.id == id) :=
              List.any_eq_true.2 ⟨e', List.mem_of_getLast? final, by simp [found]⟩
            simp [present] at ended
      let popped : Timeline := { t with events := rest }
      have prompt' : popped.Prompt := ⟨prompt.delay, prompt.failures⟩
      rw [if_neg goesOn, runEvent_arrive prompt' task due]
      refine (ih (t := { popped with store := popped.store.arrive.apply r })
        (prompt_apply prompt' r rfl) (fun e' member => arriving e' ?_) ahead ?_ ?_).trans ?_
      · rw [events]
        exact List.mem_cons_of_mem _ member
      · rw [events] at enough
        simpa using enough
      · intro id here e' (final : rest.getLast? = some e')
        refine last id here e' ?_
        rw [events, List.getLast?_cons, final]
        rfl
      · simp [settled, events, settle, task, popped]

theorem prompt_settled {t : Timeline} (prompt : t.Prompt) :
    Prompt { t with events := [], store := t.settled } := by
  have settling (l : List Event) (s : Store) :
      (l.foldl settle s).latency = s.latency ∧
        (l.foldl settle s).dueFailures = s.dueFailures := by
    induction l generalizing s with
    | nil => exact ⟨rfl, rfl⟩
    | cons e l ih =>
      have first : (settle s e).latency = s.latency ∧
          (settle s e).dueFailures = s.dueFailures := by
        unfold settle
        split
        · exact ⟨latency_apply _ _, Writing.dueFailures_apply _ _⟩
        · exact ⟨rfl, rfl⟩
      exact ⟨(ih _).1.trans first.1, (ih _).2.trans first.2⟩
  obtain ⟨latency, failures⟩ := settling t.events t.store
  refine ⟨?_, failures.trans prompt.failures⟩
  rw [delay?, settled, latency]
  exact prompt.delay

theorem work_le (t : Timeline) {deadline : Nat} (ahead : ∀ e ∈ t.events, e.due < deadline) :
    t.events.length ≤ t.work deadline := by
  have bound (l : List Event) (ahead : ∀ e ∈ l, e.due < deadline) :
      l.length + 1 ≤ l.foldr (deadline - ·.due + ·) 1 := by
    induction l with
    | nil => exact Nat.le.refl
    | cons e l ih =>
      have first := ahead e List.mem_cons_self
      have rest := ih fun e' member => ahead e' (List.mem_cons_of_mem _ member)
      simp only [List.length_cons, List.foldr_cons]
      omega
  exact Nat.le_of_succ_le (bound t.events ahead)

theorem get?_reportTimeout {t : Timeline} {name : String} {w : DirectWriter}
    (found : t.writers.get? name = some (.direct w)) :
    (t.reportTimeout name).writers.get? name =
      some (.direct { w with report := w.report.addTimeout }) := by
  simp [reportTimeout, SortedMap.get?_alter, found]

/-- A report of a direct writer leaves no batched writer where there was none. -/
theorem reportTimeout_unbatched {t : Timeline} {name : String} {w : DirectWriter}
    (direct : ∀ name b, t.writers.get? name ≠ some (.batched b))
    (found : t.writers.get? name = some (.direct w)) (name' : String) (b : BatchedWriter) :
    (t.reportTimeout name).writers.get? name' ≠ some (.batched b) := by
  by_cases same : name' = name
  · subst same
    simp [get?_reportTimeout found]
  · rw [reportTimeout, SortedMap.get?_alter, if_neg same]
    exact direct name' b

theorem direct_reportTimeout {name : String} {w : DirectWriter} {t : Timeline}
    (direct : t.Direct name w) : (t.reportTimeout name).Direct name w := by
  obtain ⟨report, found⟩ := direct.writer
  exact ⟨⟨direct.delay, direct.failures⟩, ⟨report.addTimeout, get?_reportTimeout found⟩,
    reportTimeout_unbatched direct.direct found, direct.arriving⟩

theorem direct_mutate {name : String} {w : DirectWriter} {t : Timeline} (direct : t.Direct name w)
    (m : Mutation) :
    (t.mutate name m).Direct name w ∧ (t.mutate name m).settled = w.write t.settled m := by
  obtain ⟨report, found⟩ := direct.writer
  unfold mutate DirectWriter.write
  rw [found]
  have same : DirectWriter.request? { w with report } m = w.request? m := rfl
  simp only [same]
  cases made : w.request? m with
  | none => exact ⟨direct, rfl⟩
  | some r =>
    let e : Event := ⟨t.now, t.nextId, .arrive r⟩
    let spawned : Timeline := { t with events := t.events ++ [e], nextId := t.nextId + 1 }
    have spawn : t.spawn (.arrive r) = (t.nextId, spawned) := by
      rw [Timeline.spawn, addEvent, insertEvent_last fun e' member =>
        Nat.le_of_eq (direct.arriving e' member).1]
    have arriving : ∀ e ∈ spawned.events,
        e.due = t.now ∧ e.id < t.nextId + 1 ∧ ∃ r, e.task = .arrive r := by
      intro e' member
      rcases List.mem_append.1 member with member | member
      · obtain ⟨due, old, task⟩ := direct.arriving e' member
        exact ⟨due, by omega, task⟩
      · obtain rfl := List.mem_singleton.1 member
        exact ⟨rfl, Nat.lt_succ_self _, r, rfl⟩
    have carried : spawned.settled = t.settled.arrive.apply r := by
      simp [spawned, settled, settle, e]
    have direct' : spawned.Direct name w :=
      ⟨⟨direct.delay, direct.failures⟩, direct.writer, direct.direct, arriving⟩
    simp only [spawn]
    split
    next => exact ⟨direct_reportTimeout direct', carried⟩
    next patient =>
      have ahead : spawned.now < spawned.now + w.timeout := Nat.lt_add_of_pos_right (by
        exact Nat.pos_of_ne_zero patient)
      have ran := run_arriving (some t.nextId) (spawned.work (spawned.now + w.timeout))
        direct'.toPrompt (fun e member => ⟨(arriving e member).1, (arriving e member).2.2⟩) ahead
        (spawned.work_le fun e member => (arriving e member).1 ▸ ahead) (by simp [spawned, e])
      have awaited : spawned.awaitUntil t.nextId (spawned.now + w.timeout) =
          { spawned with events := [], store := spawned.settled } := by
        simp [awaitUntil, ran, isUnderWay]
      simp only [awaited, isUnderWay, List.any_nil, Bool.false_eq_true, ↓reduceIte]
      exact ⟨⟨prompt_settled direct'.toPrompt, direct.writer, direct.direct, by simp⟩, carried⟩

theorem runFlushes_direct (jobs : List (String × Flushing)) {t : Timeline}
    (direct : ∀ name b, t.writers.get? name ≠ some (.batched b)) : runFlushes jobs t = (none, t) := by
  induction jobs with
  | nil => rfl
  | cons job jobs ih =>
    have nothing : t.beginFlush job.1 job.2 = ([], t) := by
      unfold beginFlush
      split
      next w found => exact absurd found (direct job.1 w)
      next => rfl
    rw [runFlushes, nothing]
    exact ih

/-- Nobody waits for what is not under way. -/
theorem run_ended (deadline id fuel : Nat) {t : Timeline} (ended : ∀ e ∈ t.events, e.id ≠ id) :
    run deadline (some id) fuel t = t := by
  cases fuel with
  | zero => rfl
  | succ fuel =>
    have absent : t.events.any (fun e => e.id == id) = false := by simpa using ended
    rw [run]
    split
    · rfl
    · simp [absent]

/-- Flushing has no effect on direct writers. -/
theorem flush_eq_of_direct {t : Timeline} (direct : ∀ name b, t.writers.get? name ≠ some (.batched b))
    (ended : ∀ e ∈ t.events, e.id ≠ t.nextId) (jobs : List (String × Flushing)) :
    t.flush jobs = { t with nextId := t.nextId + 1 } := by
  let t' : Timeline := { t with nextId := t.nextId + 1 }
  have begun : t.begin (.flush ⟨"", .counters, [], 0, jobs⟩) = (t.nextId, t') := by
    have none := runFlushes_direct jobs (t := t') direct
    simp [begin, runEvent, runTask, resumeFlush, t', none]
  rw [flush, flushWhile, begun]
  simp only [sleep, sleepUntil, Nat.add_zero, Nat.le_refl, ↓reduceIte]
  exact run_ended _ _ _ (t := t') ended

theorem direct_flush {name : String} {w : DirectWriter} {t : Timeline} (direct : t.Direct name w)
    (jobs : List (String × Flushing)) :
    (t.flush jobs).Direct name w ∧ (t.flush jobs).settled = t.settled := by
  have ended (e : Event) (member : e ∈ t.events) : e.id ≠ t.nextId :=
    Nat.ne_of_lt (direct.arriving e member).2.1
  rw [flush_eq_of_direct direct.direct ended]
  refine ⟨⟨⟨direct.delay, direct.failures⟩, direct.writer, direct.direct, fun e member => ?_⟩, rfl⟩
  obtain ⟨due, old, task⟩ := direct.arriving e member
  exact ⟨due, Nat.lt_succ_of_lt old, task⟩

/-- In the end the store has carried out the requests of all mutations. -/
theorem settled_calls {name : String} {w : DirectWriter} {l : List Call} {t : Timeline}
    (direct : t.Direct name w) (addressed : ∀ name', name' ≠ name → Call.told name' l = []) :
    (t.calls l).Direct name w ∧
      (t.calls l).settled = (Call.told name l).foldl w.write t.settled := by
  induction l generalizing t with
  | nil => exact ⟨direct, rfl⟩
  | cons call l ih =>
    cases call with
    | mutate name' m =>
      have same : name' = name := by
        by_cases same : name' = name
        · exact same
        · have none := addressed name' same
          simp [Call.told_mutate] at none
      subst same
      obtain ⟨direct', first⟩ := direct_mutate direct m
      have rest := ih direct' fun name apart => by
        simpa [Call.told_mutate, Ne.symm apart] using addressed name apart
      rw [Call.told_mutate, if_pos rfl, List.foldl_cons, ← first]
      exact rest
    | flush jobs =>
      obtain ⟨direct', first⟩ := direct_flush direct jobs
      have rest := ih direct' addressed
      rw [Call.told_flush, ← first]
      exact rest

/-- A script that sleeps lets all requests be carried out. -/
theorem store_sleep {name : String} {w : DirectWriter} {t : Timeline} (direct : t.Direct name w)
    (millis : Nat) : (t.sleep (millis + 1)).store = t.settled := by
  have ahead : t.now < t.now + (millis + 1) := by omega
  have ran := run_arriving none (t.work (t.now + (millis + 1))) direct.toPrompt
    (fun e member => ⟨(direct.arriving e member).1, (direct.arriving e member).2.2⟩) ahead
    (t.work_le fun e member => (direct.arriving e member).1 ▸ ahead) (by simp)
  have awake : ¬t.now + (millis + 1) ≤ t.now := by omega
  simp [sleep, sleepUntil, awake, ran]

end Timeline

end CallTelemetry
