import CallTelemetry.Proofs.Pending.Accounting
import CallTelemetry.Proofs.Pending.Interleaving
import CallTelemetry.Proofs.Pending.Peaks
import CallTelemetry.Proofs.Pending.Reporting

/-! Scripts of batched writers. Whatever a script does to a timeline, one move after another, actions
on the writers and their store do too, so that an accepted change is stored, pending or on its way,
no writer holds more than it has room for, and what is raised is not lowered. -/
namespace CallTelemetry

open Pending

theorem Pending.Writing.along_flatMap {ι α β : Type} [DecidableEq ι]
    {f : Writing ι → Action ι → List α} {g : Writing ι → Action ι → List β} {h : α → List β}
    (each : ∀ s a, g s a = (f s a).flatMap h) (s : Writing ι) (actions : List (Action ι)) :
    along g s actions = (along f s actions).flatMap h := by
  induction actions generalizing s with
  | nil => rfl
  | cons a actions ih => rw [along, along, List.flatMap_append, each, ih]

/-- What an action tells a writer, with the writer as it then is. -/
def Pending.Writing.telling {ι : Type} [DecidableEq ι] (i : ι) (s : Writing ι) :
    Action ι → List (BatchedWriter × Mutation)
  | .mutate j m => if j = i then [(s.writers i, m)] else []
  | _ => []

namespace Timeline

/-- What is done to a timeline. -/
inductive Move where
  | act (name : String) (a : Act)
  | flush (jobs : List (String × Flushing))
  /-- A flush is begun, and goes on beside the moves that follow. -/
  | begin (jobs : List (String × Flushing))
  | startFlusher (writers : List String) (interval : Nat)
  /-- Somebody else asks something of the store. -/
  | request (r : Request)

def move (t : Timeline) : Move → Timeline
  | .act name a => t.act name a
  | .flush jobs => t.flush jobs
  | .begin jobs => (t.begin (.flush ⟨"", .counters, [], 0, jobs⟩)).2
  | .startFlusher writers interval => (t.startFlusher writers interval).2
  | .request r => (t.request r).2

def moves (t : Timeline) (l : List Move) : Timeline := l.foldl move t

theorem moves_act (t : Timeline) (name : String) (l : List Act) :
    t.moves (l.map (.act name)) = t.acts name l := List.foldl_map

/-- What a move tells a batched writer, with the writer as it then is. -/
def telling (name : String) (t : Timeline) : Move → List (BatchedWriter × Mutation)
  | .act name' (.mutate m) =>
    match t.writers.get? name' with
    | some (.batched w) => if name' = name then [(w, m)] else []
    | _ => []
  | _ => []

def told (name : String) : Timeline → List Move → List (BatchedWriter × Mutation)
  | _, [] => []
  | t, a :: l => t.telling name a ++ told name (t.move a) l

/-- The changes of a batched writer for which there is room when it is told them. -/
def accepted (t : Timeline) (name : String) (kind : Flushing) (l : List Move) :
    List (Cell × Int64) :=
  (t.told name l).flatMap fun e => e.1.admitted e.2 kind

/-- The changes of a writer that are on their way. -/
def onWay (t : Timeline) (name : String) (kind : Flushing) : List (Cell × Int64) :=
  (t.events.flatMap fun e => e.task.deliveries).flatMap fun d =>
    d.waiting.flatMap fun r => if d.writer = name then r.changes kind else []

/-- Whether a move tells only batched writers, and asks for others only what they may. -/
def Frame.Fits (frame : Frame) : Move → Prop
  | .act name (.mutate _) => frame.batches name
  | .request r => frame.asks r
  | _ => True

/-- Whether a move tells only batched writers, and changes a place in no other way than by a change of
one kind that its owner is told. -/
def Spares (t : Timeline) (owner : String × Flushing) (p : Cell) : Move → Prop
  | .act name (.mutate m) =>
    match t.writers.get? name with
    | some (.batched w) => (w.target m).salted w.salting = p → (name, m.kind) = owner
    | _ => False
  | .request r => p ∉ r.cells
  | _ => True

theorem Spares.fits {t : Timeline} {owner : String × Flushing} {p : Cell} {a : Move}
    (spares : t.Spares owner p a) : (t.frame fun r => p ∉ r.cells).Fits a := by
  cases a with
  | act name a =>
    cases a with
    | mutate m =>
      simp only [Spares] at spares
      split at spares
      next w found => exact ⟨w, found⟩
      next => exact absurd spares id
    | _ => trivial
  | request r => exact spares
  | _ => trivial

variable {frame : Frame}

/-- A move that tells nothing is made of actions that tell nothing. -/
theorem follows_move (t : Timeline) {a : Move} (fits : frame.Fits a)
    (silent : ∀ name m, a ≠ .act name (.mutate m)) : Follows frame t (t.move a) := by
  cases a with
  | act name a =>
    cases a with
    | mutate m => exact absurd rfl (silent name m)
    | flush => exact follows_flush t _
    | sleep millis => exact follows_sleep t millis
    | failNext count => exact follows_failNext t count
    | slow latency => exact follows_slow t latency
  | flush jobs => exact follows_flush t jobs
  | begin jobs => exact follows_begin t trivial rfl
  | startFlusher writers interval => exact follows_startFlusher t writers interval
  | request r => exact follows_request t fits

/-- Whether actions do what moves do, and tell the writers the same. -/
structure Plays (frame : Frame) (t : Timeline) (s : Writing String) (l : List Move)
    (actions : List (Writing.Action String)) : Prop where
  shows : Shows frame (t.moves l) [] (s.run actions)
  allowed : ∀ a ∈ actions, frame.Allows a ∨ ∃ name m, a = .mutate name m ∧ .act name (.mutate m) ∈ l
  told : ∀ name, Writing.along (Writing.telling name) s actions = t.told name l

section

variable {t : Timeline} {s : Writing String} {l : List Move}
  {actions : List (Writing.Action String)}

theorem Plays.append {l' : List Move} {actions' : List (Writing.Action String)}
    (first : Plays frame t s l actions) (rest : Plays frame (t.moves l) (s.run actions) l' actions') :
    Plays frame t s (l ++ l') (actions ++ actions') where
  shows := by
    rw [Writing.run_append, moves, List.foldl_append]
    exact rest.shows
  allowed a member := by
    have told {l'' : List Move} (inside : l'' ⊆ l ++ l')
        (allowed : frame.Allows a ∨ ∃ name m, a = .mutate name m ∧ .act name (.mutate m) ∈ l'') :
        frame.Allows a ∨ ∃ name m, a = .mutate name m ∧ .act name (.mutate m) ∈ l ++ l' :=
      allowed.imp_right fun ⟨name, m, same, member⟩ => ⟨name, m, same, inside member⟩
    rcases List.mem_append.1 member with member | member
    · exact told (List.subset_append_left l l') (first.allowed a member)
    · exact told (List.subset_append_right l l') (rest.allowed a member)
  told name := by
    rw [Writing.along_append, first.told, rest.told]
    clear first rest
    induction l generalizing t with
    | nil => rfl
    | cons a l ih => rw [List.cons_append, Timeline.told, Timeline.told, List.append_assoc, ← ih]; rfl

theorem along_telling_of_allows
    (allowed : ∀ a ∈ actions, frame.Allows a) (name : String) (s : Writing String) :
    Writing.along (Writing.telling name) s actions = [] := by
  induction actions generalizing s with
  | nil => rfl
  | cons a actions ih =>
    have none : Writing.telling name s a = [] := by
      cases a with
      | mutate name' m => exact absurd (allowed _ List.mem_cons_self) id
      | _ => rfl
    rw [Writing.along, none, ih fun a' member => allowed a' (List.mem_cons_of_mem a member)]
    rfl

theorem telling_of_silent {a : Move} (silent : ∀ name m, a ≠ .act name (.mutate m)) (name : String)
    (t : Timeline) : t.telling name a = [] := by
  unfold telling
  split
  next name' m => exact absurd rfl (silent name' m)
  next => rfl

theorem exists_plays_move {a : Move} (fits : frame.Fits a) (shows : Shows frame t [] s) :
    ∃ actions, Plays frame t s [a] actions := by
  by_cases silent : ∀ name m, a ≠ .act name (.mutate m)
  · obtain ⟨actions, allowed, shows'⟩ := follows_move t fits silent [] s shows
    refine ⟨actions, shows', fun a member => .inl (allowed a member), fun name => ?_⟩
    rw [along_telling_of_allows allowed, told, telling_of_silent silent]
    rfl
  · simp only [not_forall, not_not] at silent
    obtain ⟨name, m, rfl⟩ := silent
    refine ⟨[.mutate name m], shows_mutate shows fits m, fun a member => .inr ?_, fun name' => ?_⟩
    · exact ⟨name, m, List.mem_singleton.1 member, List.mem_singleton_self _⟩
    · obtain ⟨w, found⟩ := shows.batched name fits
      have shown := shows.writers name w found
      by_cases here : name = name'
      · subst here
        simp [Writing.along, Writing.telling, told, telling, found, shown]
      · simp [Writing.along, Writing.telling, told, telling, found, here]

/-- Every script of moves is played by some actions. -/
theorem exists_plays (fits : ∀ a ∈ l, frame.Fits a) (shows : Shows frame t [] s) :
    ∃ actions, Plays frame t s l actions := by
  induction l generalizing t s with
  | nil => exact ⟨[], shows, by simp, fun _ => rfl⟩
  | cons a l ih =>
    obtain ⟨first, plays⟩ := exists_plays_move (fits a List.mem_cons_self) shows
    obtain ⟨rest, plays'⟩ :=
      ih (fun a' member => fits a' (List.mem_cons_of_mem a member)) plays.shows
    exact ⟨first ++ rest, plays.append plays'⟩

theorem Plays.accepted (plays : Plays frame t s l actions) (name : String) (kind : Flushing) :
    Writing.along (Writing.accepted name kind) s actions = t.accepted name kind l := by
  rw [Timeline.accepted, ← plays.told name]
  refine Writing.along_flatMap (fun s a => ?_) s actions
  cases a with
  | mutate name' m => by_cases here : name' = name <;> simp [Writing.accepted, Writing.telling, here]
  | _ => rfl

theorem Plays.turnedAway (plays : Plays frame t s l actions) (name : String) :
    (Writing.along (Writing.turnedAway name) s actions).length =
      (t.told name l).countP fun e => !e.1.admits e.2 := by
  have away : Writing.along (Writing.turnedAway name) s actions =
      (Writing.along (Writing.telling name) s actions).flatMap fun e =>
        if e.1.admits e.2 then [] else [e.2] := by
    refine Writing.along_flatMap (fun s a => ?_) s actions
    cases a with
    | mutate name' m =>
      by_cases here : name' = name <;>
        cases room : (s.writers name).admits m <;> simp [Writing.turnedAway, Writing.telling, here, room]
    | _ => rfl
  rw [away, plays.told]
  generalize t.told name l = told
  induction told with
  | nil => rfl
  | cons e told ih => cases room : e.1.admits e.2 <;> simp [room, ih]

/-- Actions that play moves leave a place to its owner if the moves do. -/
theorem Plays.spares {owner : String × Flushing} {p : Cell}
    (plays : Plays (t.frame fun r => p ∉ r.cells) t s l actions)
    (start : Shows (t.frame fun r => p ∉ r.cells) t [] s) (spares : ∀ a ∈ l, t.Spares owner p a) :
    ∀ a ∈ actions, s.Spares (some owner) p a := by
  intro a member
  have allowed := plays.allowed a member
  cases a with
  | mutate name m =>
    intro here
    obtain ⟨_, _, same, inside⟩ := allowed.resolve_left id
    obtain ⟨rfl, rfl⟩ := Writing.Action.mutate.inj same
    have left := spares _ inside
    simp only [Spares] at left
    split at left
    next w found =>
      rw [start.place found, start.writers name w found] at here
      exact congrArg some (left here).symm
    next => exact absurd left id
  | carryOut r =>
    rcases allowed with asked | ⟨_, _, same, _⟩
    · exact asked
    · cases same
  | _ => trivial

theorem Shows.onWay {own : List (Delivery String)} (shows : Shows frame t own s)
    (alone : own = []) (name : String) (kind : Flushing) :
    (s.onWay name kind).Perm (t.onWay name kind) := by
  subst alone
  have same : s.onWay name kind = s.deliveries.flatMap fun d =>
      d.waiting.flatMap fun r => if d.writer = name then r.changes kind else [] := by
    rw [Writing.onWay, Writing.underWay, List.flatMap_assoc]
    simp only [List.flatMap_map]
  rw [same]
  exact shows.deliveries.flatMap_right _

end

/-- Whether nothing is under way in a timeline, and its batched writers are new. -/
structure New (t : Timeline) : Prop where
  events : t.events = []
  writers : ∀ name w, t.writers.get? name = some (.batched w) → w.bare = w

section

variable {t : Timeline} (new : t.New) {l : List Move}

include new

/-- Every script can be played by writers that start with nothing to write. -/
theorem New.exists_plays {asks : Request → Prop} (fits : ∀ a ∈ l, (t.frame asks).Fits a) :
    ∃ s actions, s.Idle ∧ Shows (t.frame asks) t [] s ∧ Plays (t.frame asks) t s l actions := by
  obtain ⟨s, start, idle⟩ := exists_idle asks new.events fun name w found kind => by
    rw [← new.writers name w found]
    cases kind <;> rfl
  obtain ⟨actions, plays⟩ := Timeline.exists_plays fits start
  exact ⟨s, actions, idle, start, plays⟩

variable {name : String} {w : BatchedWriter} (found : t.writers.get? name = some (.batched w))

include found

/-- However a script goes on, its writers do not hold more cells than they have room for, and refuse a
mutation only when they are full. -/
theorem bounded_of_moves {room : Flushing → Nat}
    (limited : ∀ kind, w.limit kind = some (room kind))
    (batched : ∀ name m, .act name (.mutate m) ∈ l →
      ∃ w, t.writers.get? name = some (.batched w)) :
    ∃ w', (t.moves l).writers.get? name = some (.batched w') ∧
      (∀ kind, w'.count kind = (w'.pending kind).size ∧ (w'.pending kind).size ≤ room kind) ∧
      (∀ m, w'.admits m = false ↔ (w'.pending m.kind).get? (w'.target m) = none ∧
        (w'.pending m.kind).size = room m.kind) ∧
      w'.report.incrementReject = (t.told name l).countP fun e => !e.1.admits e.2 := by
  have fits (a : Move) (member : a ∈ l) : (t.frame fun _ => True).Fits a := by
    cases a with
    | act name a =>
      cases a with
      | mutate m => exact batched name m member
      | _ => trivial
    | _ => trivial
  obtain ⟨s, actions, idle, start, plays⟩ := new.exists_plays fits
  obtain ⟨w', found'⟩ := plays.shows.batched name ⟨w, found⟩
  have shown := start.writers name w found
  have fresh : (s.writers name).bare = s.writers name := shown ▸ new.writers name w found
  have bounded := Writing.bounded_run fresh (shown ▸ limited) actions
  have reported := Writing.reported_of_idle idle fresh actions
  have rejected := reported.incrementReject
  rw [plays.turnedAway] at rejected
  rw [plays.shows.writers name w' found'] at bounded rejected
  exact ⟨w', found', bounded.1, bounded.2, rejected⟩

/-- As long as nothing had to be dropped when it was put back, an accepted change is stored, pending or
on its way. -/
theorem balance_of_moves (g : Ledger) {c : Cell}
    (spares : ∀ a ∈ l, t.Spares (name, g.kind) (c.salted w.salting) a) :
    ∃ w', (t.moves l).writers.get? name = some (.batched w') ∧ (w'.report.restoreReject = 0 →
      g.join (g.join (g.stored ((t.moves l).store.cell? (c.salted w.salting)))
          (g.held ((w'.pending g.kind).get? c)))
        (g.total (c.salted w.salting) ((t.moves l).onWay name g.kind)) =
      g.join (g.stored (t.store.cell? (c.salted w.salting)))
        (g.total c (t.accepted name g.kind l))) := by
  obtain ⟨s, actions, idle, start, plays⟩ := new.exists_plays fun a member => (spares a member).fits
  obtain ⟨w', found'⟩ := plays.shows.batched name ⟨w, found⟩
  have shown := start.writers name w found
  have shown' := plays.shows.writers name w' found'
  have place := start.place found c
  have balanced := g.balance_of_idle idle (i := name) (c := c) (place ▸ plays.spares start spares)
  have reported := Writing.reported_of_idle idle (shown ▸ new.writers name w found) actions
  refine ⟨w', found', fun none => ?_⟩
  have kept : Writing.along (Writing.refused name g.kind) s actions = [] := by
    have dropped := reported.restoreReject
    rw [shown', none] at dropped
    cases kind : g.kind <;> exact List.eq_nil_of_length_eq_zero (by omega)
  rw [kept, g.total_nil, g.join_nothing, plays.accepted, Ledger.balance, Writing.place_run, place,
    shown', plays.shows.store, start.store, g.total_perm (plays.shows.onWay rfl name g.kind)] at balanced
  exact balanced

theorem added_of_moves {c : Cell} (absent : t.store.cell? (c.salted w.salting) = none)
    (spares : ∀ a ∈ l, t.Spares (name, .counters) (c.salted w.salting) a) :
    ∃ w', (t.moves l).writers.get? name = some (.batched w') ∧ (w'.report.restoreReject = 0 →
      (t.moves l).store.counterAt (c.salted w.salting) + w'.counters.held c +
          amount (c.salted w.salting) ((t.moves l).onWay name .counters) =
        amount c (t.accepted name .counters l)) := by
  obtain ⟨w', found', balanced⟩ := balance_of_moves new found .counters spares
  refine ⟨w', found', fun none => ?_⟩
  have balanced := balanced none
  rw [absent] at balanced
  exact balanced.trans (Int64.zero_add _)

theorem peak_of_moves {c : Cell} (absent : t.store.cell? (c.salted w.salting) = none)
    (spares : ∀ a ∈ l, t.Spares (name, .maxima) (c.salted w.salting) a) :
    ∃ w', (t.moves l).writers.get? name = some (.batched w') ∧ (w'.report.restoreReject = 0 →
      Option.merge max (Option.merge max ((t.moves l).store.peakAt (c.salted w.salting))
          (w'.maxima.cells.get? c))
        (peak (c.salted w.salting) ((t.moves l).onWay name .maxima)) =
      peak c (t.accepted name .maxima l)) := by
  obtain ⟨w', found', balanced⟩ := balance_of_moves new found .maxima spares
  refine ⟨w', found', fun none => ?_⟩
  have balanced := balanced none
  rw [absent] at balanced
  exact balanced.trans Option.merge_none_left

/-- What the store has of a cell that is raised was accepted. -/
theorem accepted_of_moves {c : Cell} (absent : t.store.cell? (c.salted w.salting) = none)
    (spares : ∀ a ∈ l, t.Spares (name, .maxima) (c.salted w.salting) a) {bytes : Bytes}
    (stored : (t.moves l).store.cell? (c.salted w.salting) = some bytes) :
    ∃ v, (c, v) ∈ t.accepted name .maxima l ∧ bytes = Bytes.ofInt64 v := by
  obtain ⟨s, actions, idle, start, plays⟩ := new.exists_plays fun a member => (spares a member).fits
  have place := start.place found c
  have guarded := idle.guarded (place ▸ plays.spares start spares)
  have sourced := Writing.sourced_run (idle.sourced (by rw [place, start.store, absent]) _)
    guarded fun _ => id
  rw [plays.accepted] at sourced
  refine sourced.stored bytes ?_
  rwa [Writing.place_run, place, plays.shows.store]

/-- It only grows. -/
theorem raised_of_moves {c : Cell} {before after : List Move}
    (spares : ∀ a ∈ before ++ after, t.Spares (name, .maxima) (c.salted w.salting) a) {v : Int64}
    (stored : (t.moves before).store.peakAt (c.salted w.salting) = some v) :
    ∃ v', (t.moves (before ++ after)).store.peakAt (c.salted w.salting) = some v' ∧ v ≤ v' := by
  obtain ⟨s, actions, idle, start, plays⟩ := new.exists_plays fun a member =>
    (spares a (List.mem_append_left after member)).fits
  obtain ⟨rest, plays'⟩ := exists_plays
    (fun a member => (spares a (List.mem_append_right before member)).fits) plays.shows
  have whole := plays.append plays'
  have place := start.place found c
  have later := (idle.guarded (place ▸ whole.spares start spares)).rest
  rw [← Writing.place_run s actions name c] at later
  have here : (s.run actions).store.peakAt ((s.run actions).place name c) = some v := by
    rw [Writing.place_run, place, plays.shows.store, stored]
  obtain ⟨v', then_, le⟩ := Writing.peakAt_run later here
  rw [Writing.place_run, place, ← Writing.run_append, whole.shows.store] at then_
  exact ⟨v', then_, le⟩

end

/-- A writer is told more of a cell while a flush has what it was told first. -/
def twice : List Move :=
  let add (delta : Int64) : Move := .act "calls" (.mutate ⟨⟨[1], true⟩, [1], .add delta⟩)
  [.act "calls" (.slow (some 5)), add 2, .begin [("calls", .counters)], add 3]

example :
    let t := start [("calls", .batched (Writing.oneWriter.writers ()))]
    let place := Writing.oneWriter.place () ⟨⟨"t"⟩, [1], [0], [1]⟩
    (t.moves twice).onWay "calls" .counters = [(place, 2)] ∧
      (t.moves (twice ++ [.act "calls" (.sleep 9)])).store.counterAt place = 2 := by
  decide +kernel

end Timeline

end CallTelemetry
