import CallTelemetry.Pending.Writer

/-! Writers and their store in time. Time is counted in milliseconds and stands still while
anything can run. A script does one thing after another and sleeps in between; beside it run
requests that it no longer waits for, flushes, and a flusher that flushes at regular intervals. All
of them wait at times that are known when they begin to wait, and take turns in the order of those
times. When the script and something beside it could go on at the same time, the script goes
first. -/
namespace CallTelemetry

open Pending

/-- What a flush has still to do: the requests of the pending cells it has taken, the first of which
is under way, and the writers whose turn comes after. -/
structure Flush where
  writer : String
  kind : Flushing
  waiting : List Request
  written : Nat
  rest : List (String × Flushing)

/-- A flusher waits for its next tick while it has no flush under way. Once it is stopped it flushes
a last time. -/
structure Flusher where
  writers : List String
  interval : Nat
  nextTick : Nat
  flush : Option Flush
  stopped : Bool
  last : Bool

inductive Task where
  /-- A request on its way to the store. -/
  | arrive (r : Request)
  /-- A request that the store is about to carry out, and whose end nobody waits for. -/
  | carryOut (r : Request)
  | flush (f : Flush)
  | flusher (f : Flusher)

structure Event where
  due : Nat
  id : Nat
  task : Task

structure Timeline where
  now : Nat
  store : Store
  writers : SortedMap String Writer
  events : List Event
  nextId : Nat

namespace Timeline

def start (writers : List (String × Writer)) : Timeline := ⟨0, .empty, .ofList writers, [], 0⟩

/-- Keeps the events in the order of their times, and those of one time in the order in which they
were added. -/
def insertEvent (e : Event) : List Event → List Event
  | [] => [e]
  | e' :: rest => if e.due < e'.due then e :: e' :: rest else e' :: insertEvent e rest

def addEvent (t : Timeline) (e : Event) : Timeline := { t with events := insertEvent e t.events }

def updateBatched (t : Timeline) (name : String) (f : BatchedWriter → BatchedWriter) : Timeline :=
  { t with writers := t.writers.alter name fun
      | some (.batched w) => some (.batched (f w))
      | other => other }

/-- How long a request that arrives now is under way; none if it is carried out at once. -/
def delay? (t : Timeline) : Option Nat := t.store.latency.filter (0 < ·)

/-- Carries out a request of a flush and tells its writer. -/
def carryOutFor (name : String) (r : Request) (t : Timeline) : Except StoreError Unit × Timeline :=
  let (outcome, store) := t.store.carryOut r
  (outcome, { t with store }.updateBatched name fun w => w.settle r outcome)

def countWritten (kind : Flushing) (outcome : Except StoreError Unit) (written : Nat) : Nat :=
  match kind, outcome with
  | .maxima, .ok _ => written + 1
  | _, _ => written

/-- Sends requests until one has to wait; it stays the first of those that are answered. -/
def send (name : String) (kind : Flushing) :
    List Request → Nat → Timeline → List Request × Nat × Timeline
  | [], written, t => ([], written, t)
  | r :: rest, written, t =>
    let t := { t with store := t.store.arrive }
    match t.delay? with
    | some _ => (r :: rest, written, t)
    | none =>
      let (outcome, t) := t.carryOutFor name r
      send name kind rest (countWritten kind outcome written) t

def endFlush (name : String) (kind : Flushing) (written : Nat) (t : Timeline) : Timeline :=
  match kind with
  | .maxima => t.updateBatched name fun w => w.endMaxima written
  | .counters => t

def beginFlush (t : Timeline) (name : String) (kind : Flushing) : List Request × Timeline :=
  match t.writers.get? name with
  | some (.batched w) =>
    let (requests, w) := w.beginFlush kind
    (requests, { t with writers := t.writers.insert name (.batched w) })
  | _ => ([], t)

/-- Flushes one writer after another until a request has to wait. -/
def runFlushes : List (String × Flushing) → Timeline → Option Flush × Timeline
  | [], t => (none, t)
  | (name, kind) :: rest, t =>
    match t.beginFlush name kind with
    | ([], t) => runFlushes rest t
    | (requests, t) =>
      let (waiting, written, t) := send name kind requests 0 t
      if waiting.isEmpty then runFlushes rest (endFlush name kind written t)
      else (some ⟨name, kind, waiting, written, rest⟩, t)

/-- Goes on with a flush whose first waiting request is due. -/
def resumeFlush (f : Flush) (t : Timeline) : Option Flush × Timeline :=
  match f.waiting with
  | [] => runFlushes f.rest t
  | r :: requests =>
    let (outcome, t) := t.carryOutFor f.writer r
    let (waiting, written, t) :=
      send f.writer f.kind requests (countWritten f.kind outcome f.written) t
    if waiting.isEmpty then runFlushes f.rest (endFlush f.writer f.kind written t)
    else (some { f with waiting, written }, t)

def flushings (writers : List String) : List (String × Flushing) :=
  writers.flatMap fun name => [(name, .counters), (name, .maxima)]

/-- Goes on with a flusher that has no flush under way: it makes up for every tick that has passed,
and then waits for the next. The bound is on the number of those ticks. -/
def tick : Nat → Flusher → Timeline → Option Flusher × Timeline
  | 0, f, t => (some f, t)
  | bound + 1, f, t =>
    if f.last then (none, t)
    else if f.stopped then
      match runFlushes (flushings f.writers) t with
      | (some flush, t) => (some { f with flush := some flush, last := true }, t)
      | (none, t) => (none, t)
    else if t.now < f.nextTick then (some f, t)
    else
      let f := { f with nextTick := f.nextTick + f.interval }
      match runFlushes (flushings f.writers) t with
      | (some flush, t) => (some { f with flush := some flush }, t)
      | (none, t) => tick bound f t

def resumeFlusher (f : Flusher) (t : Timeline) : Option Flusher × Timeline :=
  match f.flush with
  | none => tick (t.now + 2) f t
  | some flush =>
    match resumeFlush flush t with
    | (some flush, t) => (some { f with flush := some flush }, t)
    | (none, t) => tick (t.now + 2) { f with flush := none } t

/-- Runs a task until it has to wait, and answers what is left of it and when it goes on. -/
def runTask (t : Timeline) : Task → Option (Nat × Task) × Timeline
  | .arrive r =>
    let t := { t with store := t.store.arrive }
    match t.delay? with
    | some delay => (some (t.now + delay, .carryOut r), t)
    | none => (none, { t with store := (t.store.carryOut r).2 })
  | .carryOut r => (none, { t with store := (t.store.carryOut r).2 })
  | .flush f =>
    match resumeFlush f t with
    | (some f, t) => (some (t.now + t.delay?.getD 0, .flush f), t)
    | (none, t) => (none, t)
  | .flusher f =>
    match resumeFlusher f t with
    | (some f, t) =>
      let due := match f.flush with
        | some _ => t.now + t.delay?.getD 0
        | none => f.nextTick
      (some (due, .flusher f), t)
    | (none, t) => (none, t)

/-- Runs the task of an event that has been taken off the list. -/
def runEvent (t : Timeline) (e : Event) : Timeline :=
  match { t with now := max t.now e.due }.runTask e.task with
  | (some (due, task), t) => t.addEvent ⟨due, e.id, task⟩
  | (none, t) => t

/-- Runs the events before `deadline`, one after another, or until the awaited one has ended. -/
def run (deadline : Nat) (awaited : Option Nat) : Nat → Timeline → Timeline
  | 0, t => t
  | fuel + 1, t =>
    match t.events with
    | [] => t
    | e :: rest =>
      if deadline ≤ e.due ∨ awaited.any (fun id => !t.events.any (·.id == id)) then t
      else run deadline awaited fuel ({ t with events := rest }.runEvent e)

/-- No event comes back before the next millisecond, so each can run this often. -/
def work (t : Timeline) (deadline : Nat) : Nat :=
  t.events.foldr (deadline - ·.due + ·) 1

/-- Lets time pass for a script that sleeps until `deadline`. -/
def sleepUntil (t : Timeline) (deadline : Nat) : Timeline :=
  if deadline ≤ t.now then t
  else { run deadline none (t.work deadline) t with now := deadline }

def sleep (t : Timeline) (millis : Nat) : Timeline := t.sleepUntil (t.now + millis)

def isUnderWay (t : Timeline) (id : Nat) : Bool := t.events.any (·.id == id)

/-- Waits for an event until `deadline`, which may pass before the event has ended. -/
def awaitUntil (t : Timeline) (id deadline : Nat) : Timeline :=
  let t := run deadline (some id) (t.work deadline) t
  if t.isUnderWay id then { t with now := max t.now deadline } else t

/-- The number of cells and requests that anything under way could still have to send. -/
def backlog (t : Timeline) : Nat :=
  let pending : Writer → Nat
    | .batched w => w.counters.cells.size + w.maxima.cells.size
    | .direct _ => 0
  let size : Request → Nat
    | .increments _ rows => 1 + Increment.cellCount rows
    | _ => 1
  let sent (e : Event) : Nat :=
    match e.task with
    | .flush f => f.waiting.foldr (size · + ·) 0
    | .flusher ⟨_, _, _, some f, _, _⟩ => f.waiting.foldr (size · + ·) 0
    | _ => 1
  t.writers.values.foldr (pending · + ·) (t.events.foldr (sent · + ·) 0)

/-- A time by which a flush under way has ended: every request takes at most the latency, and no
cell is sent more than twice. -/
def horizon (t : Timeline) : Nat :=
  (t.events.map (·.due)).foldl max t.now + 2 * (t.backlog + 1) * (t.delay?.getD 0 + 1)

def await (t : Timeline) (id : Nat) : Timeline :=
  let deadline := t.horizon
  run deadline (some id) (t.work deadline) t

/-- Adds a task that runs when the script next sleeps. -/
def spawn (t : Timeline) (task : Task) : Nat × Timeline :=
  (t.nextId, { t with nextId := t.nextId + 1 }.addEvent ⟨t.now, t.nextId, task⟩)

/-- Runs a task until it has to wait, and leaves the rest of it beside the script. -/
def begin (t : Timeline) (task : Task) : Nat × Timeline :=
  let id := t.nextId
  (id, { t with nextId := id + 1 }.runEvent ⟨t.now, id, task⟩)

/-- Whether a request ends before whoever waits for it gives up. -/
def endsInTime (delay timeout : Nat) : Bool := delay < timeout

def reportTimeout (t : Timeline) (name : String) : Timeline :=
  { t with writers := t.writers.alter name fun
      | some (.direct w) => some (.direct { w with report := w.report.addTimeout })
      | other => other }

/-- Gives a change to a writer. A direct writer waits for its request, but not beyond its timeout;
a request that is given up runs on. -/
def mutate (t : Timeline) (name : String) (m : Mutation) : Timeline :=
  match t.writers.get? name with
  | none => t
  | some (.batched _) => t.updateBatched name fun w => w.mutate m
  | some (.direct w) =>
    match w.request? m with
    | none => t
    | some r =>
      let (id, t) := t.spawn (.arrive r)
      if w.timeout = 0 then t.reportTimeout name
      else
        let t := t.awaitUntil id (t.now + w.timeout)
        if t.isUnderWay id then t.reportTimeout name else t

/-- Sends a request and waits for its end. -/
def request (t : Timeline) (r : Request) : Except StoreError Unit × Timeline :=
  let t := { t with store := t.store.arrive }
  let t := match t.delay? with
    | some delay => t.sleep delay
    | none => t
  let (outcome, store) := t.store.carryOut r
  (outcome, { t with store })

/-- Flushes writers and waits for the end, while `during` runs beside the flush, and begins when it
has been under way for `lead` milliseconds. -/
def flushWhile (t : Timeline) (jobs : List (String × Flushing)) (lead : Nat)
    (during : Timeline → α × Timeline) : α × Timeline :=
  let (id, t) := t.begin (.flush ⟨"", .counters, [], 0, jobs⟩)
  let (answer, t) := during (t.sleep lead)
  (answer, t.await id)

def flush (t : Timeline) (jobs : List (String × Flushing)) : Timeline :=
  (t.flushWhile jobs 0 fun t => ((), t)).2

/-- The time for a first flush is an interval away. -/
def startFlusher (t : Timeline) (writers : List String) (interval : Nat) : Nat × Timeline :=
  t.spawn (.flusher ⟨writers, interval, t.now + interval, none, false, false⟩)

/-- Tells a flusher to stop, and waits for its last flush. -/
def stopFlusher (t : Timeline) (id : Nat) : Timeline :=
  match t.events.find? (·.id == id) with
  | some ⟨due, _, .flusher f⟩ =>
    let t := { t with events := t.events.filter fun e => e.id != id }
    let due := match f.flush with
      | some _ => due
      | none => t.now
    (t.addEvent ⟨due, id, .flusher { f with stopped := true }⟩).await id
  | _ => t

def reports (t : Timeline) : Reports := t.writers.map fun _ w => w.report

end Timeline

end CallTelemetry
