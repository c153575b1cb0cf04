import CallTelemetry.Proofs.Pending.Calls

/-! Requests that a script waits for. That a request has arrived is only counted: whatever goes on
beside the script while it waits would go on without the request too. Only at the end does the request
change anything, unless it fails. -/
namespace CallTelemetry

open Pending

namespace Store

theorem apply_arrive (s : Store) (r : Request) : s.arrive.apply r = (s.apply r).arrive := by
  cases r with
  | put => rfl
  | maximum => rfl
  | increments table rows =>
    have rest : rows.foldl (increment table) s.arrive =
        (rows.foldl (increment table) s).arrive := by
      induction rows generalizing s with
      | nil => rfl
      | cons i rows ih => exact ih (increment table s i)
    simp only [apply, rest]
    rfl

theorem carryOut_arrive (s : Store) (r : Request) :
    s.arrive.carryOut r = ((s.carryOut r).1, (s.carryOut r).2.arrive) := by
  have due : s.arrive.dueFailures = s.dueFailures := rfl
  unfold carryOut
  rw [due]
  cases s.dueFailures with
  | zero => rw [apply_arrive]
  | succ due => rfl

end Store

namespace Timeline

/-- One request more has arrived. -/
def arrived (t : Timeline) : Timeline := { t with store := t.store.arrive }

theorem carryOutFor_arrived (name : String) (r : Request) (t : Timeline) :
    carryOutFor name r t.arrived =
      ((carryOutFor name r t).1, (carryOutFor name r t).2.arrived) := by
  unfold carryOutFor arrived
  rw [Store.carryOut_arrive]
  rfl

theorem send_cons (name : String) (kind : Flushing) (r : Request) (rest : List Request)
    (written : Nat) (t : Timeline) :
    send name kind (r :: rest) written t = match t.delay? with
      | some _ => (r :: rest, written, t.arrived)
      | none => send name kind rest (countWritten kind (carryOutFor name r t.arrived).1 written)
          (carryOutFor name r t.arrived).2 := by
  have delay : t.arrived.delay? = t.delay? := rfl
  rw [← delay]
  rfl

theorem send_arrived (name : String) (kind : Flushing) (requests : List Request) (written : Nat)
    (t : Timeline) :
    send name kind requests written t.arrived =
      let (waiting, written, t) := send name kind requests written t
      (waiting, written, t.arrived) := by
  induction requests generalizing written t with
  | nil => rfl
  | cons r rest ih =>
    have delay : t.arrived.delay? = t.delay? := rfl
    rw [send_cons, send_cons, delay]
    cases t.delay? with
    | some _ => rfl
    | none =>
      dsimp only
      rw [carryOutFor_arrived]
      exact ih _ _

theorem endFlush_arrived (name : String) (kind : Flushing) (written : Nat) (t : Timeline) :
    endFlush name kind written t.arrived = (endFlush name kind written t).arrived := by
  cases kind <;> rfl

theorem beginFlush_arrived (t : Timeline) (name : String) (kind : Flushing) :
    t.arrived.beginFlush name kind =
      ((t.beginFlush name kind).1, (t.beginFlush name kind).2.arrived) := by
  have writers : t.arrived.writers = t.writers := rfl
  unfold beginFlush
  rw [writers]
  split <;> rfl

theorem runFlushes_arrived (jobs : List (String × Flushing)) (t : Timeline) :
    runFlushes jobs t.arrived = ((runFlushes jobs t).1, (runFlushes jobs t).2.arrived) := by
  induction jobs generalizing t with
  | nil => rfl
  | cons job jobs ih =>
    rw [runFlushes, runFlushes, beginFlush_arrived]
    rcases t.beginFlush job.1 job.2 with ⟨_ | ⟨r, requests⟩, t'⟩
    · exact ih t'
    · dsimp only
      rw [send_arrived]
      rcases send job.1 job.2 (r :: requests) 0 t' with ⟨waiting, written, t''⟩
      dsimp only
      split
      · rw [endFlush_arrived, ih]
      · rfl

theorem resumeFlush_arrived (f : Flush) (t : Timeline) :
    resumeFlush f t.arrived = ((resumeFlush f t).1, (resumeFlush f t).2.arrived) := by
  unfold resumeFlush
  split
  · exact runFlushes_arrived _ _
  · rw [carryOutFor_arrived]
    dsimp only
    rw [send_arrived]
    dsimp only
    split
    · rw [endFlush_arrived, runFlushes_arrived]
    · rfl

theorem tick_arrived (bound : Nat) (f : Flusher) (t : Timeline) :
    tick bound f t.arrived = ((tick bound f t).1, (tick bound f t).2.arrived) := by
  induction bound generalizing f t with
  | zero => rfl
  | succ bound ih =>
    have now : t.arrived.now = t.now := rfl
    simp only [tick, runFlushes_arrived, now]
    rcases runFlushes (flushings f.writers) t with ⟨_ | flush, t'⟩
    · simp only [ih]
      repeat' split
      all_goals rfl
    · dsimp only
      repeat' split
      all_goals rfl

theorem resumeFlusher_arrived (f : Flusher) (t : Timeline) :
    resumeFlusher f t.arrived = ((resumeFlusher f t).1, (resumeFlusher f t).2.arrived) := by
  unfold resumeFlusher
  split
  · exact tick_arrived _ _ _
  next flush _ =>
    rw [resumeFlush_arrived]
    rcases resumeFlush flush t with ⟨_ | flush, t'⟩
    · exact tick_arrived _ _ _
    · rfl

theorem runTask_arrived (t : Timeline) (task : Task) :
    t.arrived.runTask task = ((t.runTask task).1, (t.runTask task).2.arrived) := by
  have delay : t.arrived.arrived.delay? = t.arrived.delay? := rfl
  cases task with
  | arrive r =>
    have sent (t : Timeline) : t.runTask (.arrive r) = match t.arrived.delay? with
      | some delay => (some (t.now + delay, .carryOut r), t.arrived)
      | none => (none, { t with store := (t.arrived.store.carryOut r).2 }) := rfl
    have carried : (t.arrived.arrived.store.carryOut r).2 =
        (t.arrived.store.carryOut r).2.arrive := by
      rw [arrived, Store.carryOut_arrive]
    rw [sent, sent, delay]
    cases t.arrived.delay? with
    | some _ => rfl
    | none =>
      dsimp only
      rw [carried]
      rfl
  | carryOut r =>
    rw [runTask, runTask, arrived, Store.carryOut_arrive]
    rfl
  | flush f =>
    simp only [runTask]
    rw [resumeFlush_arrived]
    rcases resumeFlush f t with ⟨_ | f, t'⟩ <;> rfl
  | flusher f =>
    simp only [runTask]
    rw [resumeFlusher_arrived]
    rcases resumeFlusher f t with ⟨_ | f, t'⟩ <;> rfl

theorem runEvent_arrived (t : Timeline) (e : Event) :
    t.arrived.runEvent e = (t.runEvent e).arrived := by
  have ran := runTask_arrived { t with now := max t.now e.due } e.task
  change runTask { t.arrived with now := max t.now e.due } e.task = _ at ran
  have now : t.arrived.now = t.now := rfl
  unfold runEvent
  rw [now, ran]
  rcases runTask { t with now := max t.now e.due } e.task with ⟨_ | ⟨due, task⟩, t'⟩ <;> rfl

theorem run_arrived (deadline : Nat) (awaited : Option Nat) (fuel : Nat) (t : Timeline) :
    run deadline awaited fuel t.arrived = (run deadline awaited fuel t).arrived := by
  induction fuel generalizing t with
  | zero => rfl
  | succ fuel ih =>
    have events : t.arrived.events = t.events := rfl
    rw [run, run, events]
    split
    · rfl
    next e rest _ =>
      split
      · rfl
      · rw [← ih, ← runEvent_arrived]
        rfl

theorem sleep_arrived (t : Timeline) (millis : Nat) :
    t.arrived.sleep millis = (t.sleep millis).arrived := by
  have now : t.arrived.now = t.now := rfl
  have work (deadline : Nat) : t.arrived.work deadline = t.work deadline := rfl
  unfold sleep sleepUntil
  rw [now, work, run_arrived]
  split <;> rfl

@[simp] theorem sleep_zero (t : Timeline) : t.sleep 0 = t := if_pos (Nat.le_refl _)

/-- Where nothing is under way, nothing happens while a script sleeps. -/
theorem sleep_alone {t : Timeline} (alone : t.events = []) (millis : Nat) :
    t.sleep millis = { t with now := t.now + millis } := by
  unfold sleep sleepUntil
  split
  next still =>
    obtain rfl : millis = 0 := by omega
    rfl
  next => rw [run_nil _ _ _ alone]

/-- A request is carried out after the script has slept for its delay. -/
theorem request_eq (t : Timeline) (r : Request) :
    t.request r =
      let waited := (t.sleep (t.delay?.getD 0)).arrived
      let (outcome, store) := waited.store.carryOut r
      (outcome, { waited with store }) := by
  have delay : t.arrived.delay? = t.delay? := rfl
  have sent : t.request r =
      let waited := match t.arrived.delay? with
        | some delay => t.arrived.sleep delay
        | none => t.arrived
      let (outcome, store) := waited.store.carryOut r
      (outcome, { waited with store }) := rfl
  rw [sent, delay]
  cases t.delay? with
  | some delay =>
    dsimp only [Option.getD]
    rw [sleep_arrived]
  | none =>
    dsimp only [Option.getD]
    rw [sleep_zero]

/-- A request that is alone is carried out after its delay. -/
theorem request_alone {t : Timeline} (alone : t.events = []) (r : Request) :
    ∃ now, t.request r = ((t.store.arrive.carryOut r).1,
      { t with now, store := (t.store.arrive.carryOut r).2 }) := by
  rw [request_eq, sleep_alone alone]
  exact ⟨_, rfl⟩

/-- A request that fails leaves all as it would be without it, what the store counts apart. -/
theorem request_failed {t : Timeline} {r : Request} {e : StoreError}
    (failed : (t.request r).1 = .error e) :
    ∃ requests dueFailures, (t.request r).2 =
      let waited := t.sleep (t.delay?.getD 0)
      { waited with store := { waited.store with requests, dueFailures } } := by
  rw [request_eq] at failed ⊢
  dsimp only at failed ⊢
  generalize t.sleep (t.delay?.getD 0) = waited at failed ⊢
  unfold Store.carryOut at failed ⊢
  split at failed
  · cases failed
  next due _ => exact ⟨_, due, rfl⟩

end Timeline

end CallTelemetry
