import CallTelemetry.Proofs.Pending.Completion
import CallTelemetry.Proofs.Pending.Interleaving

/-! Calls of batched writers whose store answers at once. Every flush ends before the next call, so
after a last flush the store holds what the writers were told, cell by cell. -/
namespace CallTelemetry

open Pending

namespace Timeline

/-- What is asked of the writers of a timeline. -/
inductive Call where
  | mutate (name : String) (m : Mutation)
  | flush (jobs : List (String × Flushing))

/-- The mutations that calls give to one writer. -/
def Call.told (name : String) (calls : List Call) : List Mutation :=
  calls.filterMap fun
    | .mutate name' m => if name' = name then some m else none
    | .flush _ => none

theorem Call.told_mutate (name name' : String) (m : Mutation) (l : List Call) :
    Call.told name (.mutate name' m :: l) =
      if name' = name then m :: Call.told name l else Call.told name l := by
  by_cases same : name' = name <;> simp [told, same]

theorem Call.told_flush (name : String) (jobs : List (String × Flushing)) (l : List Call) :
    Call.told name (.flush jobs :: l) = Call.told name l := rfl

def call (t : Timeline) : Call → Timeline
  | .mutate name m => t.mutate name m
  | .flush jobs => t.flush jobs

def calls (t : Timeline) (l : List Call) : Timeline := l.foldl call t

/-- Whether requests neither take time nor fail. -/
structure Prompt (t : Timeline) : Prop where
  delay : t.delay? = none
  failures : t.store.dueFailures = 0

/-- Whether batched writers are those of before, up to what they report. -/
def Keeps (t t' : Timeline) : Prop :=
  ∀ name w, t.writers.get? name = some (.batched w) →
    ∃ report, t'.writers.get? name = some (.batched { w with report })

theorem Keeps.refl (t : Timeline) : t.Keeps t := fun _ w found => ⟨w.report, found⟩

theorem Keeps.trans {t t' t'' : Timeline} (first : t.Keeps t') (second : t'.Keeps t'') :
    t.Keeps t'' := by
  intro name w found
  obtain ⟨report, found'⟩ := first name w found
  obtain ⟨report', found''⟩ := second name _ found'
  exact ⟨report', found''⟩

theorem keeps_updateBatched (t : Timeline) (name : String) {f : BatchedWriter → BatchedWriter}
    (reports : ∀ w, ∃ report, f w = { w with report }) : t.Keeps (t.updateBatched name f) := by
  intro name' w found
  rw [updateBatched, SortedMap.get?_alter]
  by_cases same : name' = name
  · subst same
    obtain ⟨report, result⟩ := reports w
    exact ⟨report, by simp [found, result]⟩
  · exact ⟨w.report, by simp [same, found]⟩

theorem latency_apply (s : Store) (r : Request) : (s.apply r).latency = s.latency := by
  have rows (table : TableName) (l : List Increment) (s : Store) :
      (l.foldl (Store.increment table) s).latency = s.latency := by
    induction l generalizing s with
    | nil => rfl
    | cons i l ih => exact ih _
  cases r with
  | put => rfl
  | increments table l => exact rows table l s
  | maximum => rfl

theorem prompt_apply {t t' : Timeline} (prompt : t.Prompt) (r : Request)
    (store : t'.store = (t.store.arrive.apply r)) : t'.Prompt := by
  refine ⟨?_, ?_⟩
  · rw [delay?, store, latency_apply]
    exact prompt.delay
  · rw [store, Writing.dueFailures_apply]
    exact prompt.failures

theorem send_prompt (requests : List Request) {t : Timeline} (prompt : t.Prompt) (name : String)
    (kind : Flushing) (written : Nat) :
    let sent := send name kind requests written t
    sent.1 = [] ∧ sent.2.2.Prompt ∧ sent.2.2.events = t.events ∧ t.Keeps sent.2.2 := by
  induction requests generalizing t written with
  | nil => exact ⟨rfl, prompt, rfl, .refl t⟩
  | cons r rest ih =>
    have arrived : delay? { t with store := t.store.arrive } = none := prompt.delay
    have carried : t.store.arrive.carryOut r = (.ok (), t.store.arrive.apply r) :=
      Writing.dueFailures_carryOut prompt.failures
    let t' : Timeline := { t with store := t.store.arrive.apply r }.updateBatched name
      fun w => w.settle r (.ok ())
    have next := ih (t := t') (prompt_apply prompt r rfl) (countWritten kind (.ok ()) written)
    have kept : t.Keeps t' := keeps_updateBatched { t with store := t.store.arrive.apply r } name
      fun w => w.settle_ok r
    rw [send, arrived]
    simp only [carryOutFor, carried]
    exact ⟨next.1, next.2.1, next.2.2.1, kept.trans next.2.2.2⟩

/-- Whether batched writers are those of before, with nothing left of what the jobs flush. -/
def Flushed (jobs : List (String × Flushing)) (t t' : Timeline) : Prop :=
  ∀ name w, t.writers.get? name = some (.batched w) →
    ∃ w', t'.writers.get? name = some (.batched w') ∧ w'.bare = w.bare ∧
      ∀ kind, w'.pending kind = if (name, kind) ∈ jobs then .empty else w.pending kind

theorem flushed_beginFlush (t : Timeline) (name : String) (kind : Flushing) :
    Flushed [(name, kind)] t (t.beginFlush name kind).2 := by
  intro name' w found
  unfold beginFlush
  by_cases same : name' = name
  · subst same
    rw [found]
    refine ⟨(w.beginFlush kind).2, by simp [SortedMap.get?_insert], w.bare_beginFlush kind, ?_⟩
    intro kind'
    simp [w.pending_beginFlush]
  · have apart (kind' : Flushing) : (name', kind') ∉ [(name, kind)] := by simp [same]
    refine ⟨w, ?_, rfl, fun kind' => by rw [if_neg (apart kind')]⟩
    split
    · rw [SortedMap.get?_insert, if_neg same, found]
    · exact found

theorem Flushed.trans {jobs jobs' : List (String × Flushing)} {t t' t'' : Timeline}
    (first : Flushed jobs t t') (second : Flushed jobs' t' t'') :
    Flushed (jobs ++ jobs') t t'' := by
  intro name w found
  obtain ⟨w', found', bare', pending'⟩ := first name w found
  obtain ⟨w'', found'', bare'', pending''⟩ := second name w' found'
  refine ⟨w'', found'', bare''.trans bare', fun kind => ?_⟩
  rw [pending'', pending']
  by_cases early : (name, kind) ∈ jobs <;> by_cases late : (name, kind) ∈ jobs' <;>
    simp [early, late]

theorem Keeps.flushed {t t' : Timeline} (keeps : t.Keeps t') : Flushed [] t t' := by
  intro name w found
  obtain ⟨report, found'⟩ := keeps name w found
  exact ⟨_, found', rfl, fun kind => by cases kind <;> rfl⟩

theorem runFlushes_prompt (jobs : List (String × Flushing)) {t : Timeline} (prompt : t.Prompt) :
    let ran := runFlushes jobs t
    ran.1 = none ∧ ran.2.Prompt ∧ ran.2.events = t.events ∧ Flushed jobs t ran.2 := by
  induction jobs generalizing t with
  | nil => exact ⟨rfl, prompt, rfl, (Keeps.refl t).flushed⟩
  | cons job jobs ih =>
    obtain ⟨name, kind⟩ := job
    have begun := flushed_beginFlush t name kind
    have same : (t.beginFlush name kind).2.store = t.store ∧
        (t.beginFlush name kind).2.events = t.events := by
      unfold beginFlush
      split <;> exact ⟨rfl, rfl⟩
    have prompt' : (t.beginFlush name kind).2.Prompt := by
      refine ⟨?_, ?_⟩
      · rw [delay?, same.1]
        exact prompt.delay
      · rw [same.1]
        exact prompt.failures
    rw [runFlushes]
    split
    next t' result =>
      rw [result] at begun prompt' same
      have next := ih prompt'
      exact ⟨next.1, next.2.1, next.2.2.1.trans same.2, begun.trans next.2.2.2⟩
    next requests t' _ result =>
      rw [result] at begun prompt' same
      obtain ⟨empty, prompt'', events, kept⟩ := send_prompt requests prompt' name kind 0
      have ended : (send name kind requests 0 t').2.2.Keeps (endFlush name kind
          (send name kind requests 0 t').2.1 (send name kind requests 0 t').2.2) := by
        cases kind with
        | counters => exact .refl _
        | maxima => exact keeps_updateBatched _ name fun w => ⟨_, rfl⟩
      dsimp only
      rw [if_pos (by simp [empty])]
      have prompt''' : (endFlush name kind (send name kind requests 0 t').2.1
          (send name kind requests 0 t').2.2).Prompt := by
        cases kind <;> exact ⟨prompt''.delay, prompt''.failures⟩
      have events' : (endFlush name kind (send name kind requests 0 t').2.1
          (send name kind requests 0 t').2.2).events = t.events := by
        cases kind <;> exact events.trans same.2
      have next := ih prompt'''
      exact ⟨next.1, next.2.1, next.2.2.1.trans events',
        (begun.trans ((kept.trans ended).flushed.trans next.2.2.2))⟩

/-- Whether requests neither take time nor fail, and nothing is under way. -/
structure Calm (t : Timeline) : Prop extends t.Prompt where
  events : t.events = []

theorem run_nil {t : Timeline} (deadline : Nat) (awaited : Option Nat) (fuel : Nat)
    (quiet : t.events = []) : run deadline awaited fuel t = t := by
  cases fuel with
  | zero => rfl
  | succ fuel => simp [run, quiet]

theorem flush_eq {t : Timeline} (calm : t.Calm) (jobs : List (String × Flushing)) :
    t.flush jobs = (runFlushes jobs { t with nextId := t.nextId + 1 }).2 := by
  let t' : Timeline := { t with nextId := t.nextId + 1 }
  have ran := runFlushes_prompt jobs (t := t') ⟨calm.delay, calm.failures⟩
  have begun : t.begin (.flush ⟨"", .counters, [], 0, jobs⟩) =
      (t.nextId, (runFlushes jobs t').2) := by
    cases result : runFlushes jobs t' with
    | mk left after =>
      rw [result] at ran
      obtain rfl : left = none := ran.1
      simp [begin, runEvent, runTask, resumeFlush, t', result]
  have quiet : (runFlushes jobs t').2.events = [] := ran.2.2.1.trans calm.events
  rw [flush, flushWhile, begun]
  simp only [sleep, sleepUntil, Nat.add_zero, Nat.le_refl, ↓reduceIte]
  exact run_nil _ _ _ quiet

theorem calm_flush {t : Timeline} (calm : t.Calm) (jobs : List (String × Flushing)) :
    (t.flush jobs).Calm ∧ Flushed jobs t (t.flush jobs) := by
  rw [flush_eq calm]
  obtain ⟨_, prompt, events, flushed⟩ :=
    runFlushes_prompt jobs (t := { t with nextId := t.nextId + 1 }) ⟨calm.delay, calm.failures⟩
  exact ⟨⟨prompt, events.trans calm.events⟩, flushed⟩

theorem reached_flush {frame : Frame} {t : Timeline} (calm : t.Calm) {s : Writing String}
    (shows : Shows frame t [] s) (jobs : List (String × Flushing)) :
    Reached frame Writing.Action.Flushes s [] (t.flush jobs) := by
  rw [flush_eq calm]
  have ran := reached_runFlushes jobs (t := { t with nextId := t.nextId + 1 })
    ⟨shows.writers, shows.batched, shows.store, shows.deliveries, shows.admitted⟩
  rwa [(runFlushes_prompt jobs (t := { t with nextId := t.nextId + 1 })
    ⟨calm.delay, calm.failures⟩).1] at ran

theorem calm_mutate {t : Timeline} (calm : t.Calm) {name : String} {w : BatchedWriter}
    (found : t.writers.get? name = some (.batched w)) (m : Mutation) : (t.mutate name m).Calm := by
  rw [mutate, found]
  exact ⟨⟨calm.delay, calm.failures⟩, calm.events⟩

def hasRoom (t : Timeline) (name : String) (m : Mutation) : Bool :=
  match t.writers.get? name with
  | some (.batched w) => w.admits m
  | _ => true

/-- Whether there is room for every mutation when its turn comes. -/
def admits (t : Timeline) : List Call → Bool
  | [] => true
  | .mutate name m :: l => t.hasRoom name m && (t.mutate name m).admits l
  | .flush jobs :: l => (t.flush jobs).admits l

theorem batched_mutate {t : Timeline} {name : String} {w : BatchedWriter}
    (found : t.writers.get? name = some (.batched w)) (name' : String) (m : Mutation)
    {w' : BatchedWriter} (batched : t.writers.get? name' = some (.batched w')) :
    ∃ w'', (t.mutate name' m).writers.get? name = some (.batched w'') ∧ w''.bare = w.bare := by
  rw [mutate, batched]
  by_cases same : name = name'
  · subst same
    exact ⟨w.mutate m, by simp [updateBatched, SortedMap.get?_alter, found], w.bare_mutate m⟩
  · exact ⟨w, by simp [updateBatched, SortedMap.get?_alter, same, found], rfl⟩

/-- Whether all mutations are meant for batched writers that there are. -/
def Knows (t : Timeline) (l : List Call) : Prop :=
  ∀ name, ∀ m ∈ Call.told name l, ∃ w, t.writers.get? name = some (.batched w)

/-- Whether the batched writers of before are there still. -/
def Continues (t t' : Timeline) : Prop :=
  ∀ name w, t.writers.get? name = some (.batched w) →
    ∃ w', t'.writers.get? name = some (.batched w') ∧ w'.bare = w.bare

theorem Knows.of_continues {t t' : Timeline} {l l' : List Call} (knows : t.Knows l)
    (continues : t.Continues t') (told : ∀ name, ∀ m ∈ Call.told name l', m ∈ Call.told name l) :
    t'.Knows l' := by
  intro name m member
  obtain ⟨w, found⟩ := knows name m (told name m member)
  obtain ⟨w', found', _⟩ := continues name w found
  exact ⟨w', found'⟩

theorem told_cons {name : String} {call : Call} {l : List Call} {m : Mutation}
    (told : m ∈ Call.told name l) : m ∈ Call.told name (call :: l) := by
  cases call with
  | mutate name' m' =>
    rw [Call.told_mutate]
    split
    · exact List.mem_cons_of_mem _ told
    · exact told
  | flush jobs => exact told

theorem calm_call {call : Call} {l : List Call} {t : Timeline} (calm : t.Calm)
    (knows : t.Knows (call :: l)) : (t.call call).Calm ∧ t.Continues (t.call call) := by
  cases call with
  | mutate name m =>
    obtain ⟨w, found⟩ := knows name m (by simp [Call.told_mutate])
    exact ⟨calm_mutate calm found m, fun name' w' found' => batched_mutate found' name m found⟩
  | flush jobs =>
    refine ⟨(calm_flush calm jobs).1, fun name w found => ?_⟩
    obtain ⟨w', found', bare, _⟩ := (calm_flush calm jobs).2 name w found
    exact ⟨w', found', bare⟩

theorem Knows.tail {call : Call} {l : List Call} {t : Timeline} (calm : t.Calm)
    (knows : t.Knows (call :: l)) : (t.call call).Knows l :=
  knows.of_continues (calm_call calm knows).2 fun _ _ => told_cons

theorem calm_calls {l : List Call} {t : Timeline} (calm : t.Calm) (knows : t.Knows l) :
    (t.calls l).Calm ∧ t.Continues (t.calls l) := by
  induction l generalizing t with
  | nil => exact ⟨calm, fun name w found => ⟨w, found, rfl⟩⟩
  | cons call l ih =>
    obtain ⟨calm', continues⟩ := calm_call calm knows
    obtain ⟨calm'', continues'⟩ := ih calm' (knows.tail calm)
    refine ⟨calm'', fun name w found => ?_⟩
    obtain ⟨w', found', bare⟩ := continues name w found
    obtain ⟨w'', found'', bare'⟩ := continues' name w' found'
    exact ⟨w'', found'', bare'.trans bare⟩

/-- Whether actions on the writers do what calls do, the mutations among them in their order. -/
structure Enacts (frame : Frame) (t : Timeline) (s : Writing String) (l : List Call)
    (actions : List (Writing.Action String)) : Prop where
  quiet : ∀ a ∈ actions, a.Quiet
  shows : Shows frame (t.calls l) [] (s.run actions)
  only : ∀ name m, .mutate name m ∈ actions → m ∈ Call.told name l
  accepted : ∀ name w kind, t.writers.get? name = some (.batched w) →
    Writing.along (Writing.accepted name kind) s actions =
      (Call.told name l).flatMap fun m => w.changes m kind

section

variable {frame : Frame} {t : Timeline} {s : Writing String} {l : List Call}
  {actions : List (Writing.Action String)}

theorem Enacts.mutate (shows : Shows frame t [] s) {name : String} {w : BatchedWriter}
    (found : t.writers.get? name = some (.batched w)) {m : Mutation} (room : w.admits m)
    (enacts : Enacts frame (t.mutate name m) (s.mutate name m) l actions) :
    Enacts frame t s (.mutate name m :: l) (.mutate name m :: actions) where
  quiet a member := by
    rcases List.mem_cons.1 member with rfl | member
    · trivial
    · exact enacts.quiet a member
  shows := enacts.shows
  only name' m' member := by
    rcases List.mem_cons.1 member with same | member
    · obtain ⟨rfl, rfl⟩ := Writing.Action.mutate.inj same
      simp [Call.told_mutate]
    · exact told_cons (enacts.only name' m' member)
  accepted name' w' kind found' := by
    obtain ⟨w'', found'', bare⟩ := batched_mutate found' name m found
    have rest := enacts.accepted name' w'' kind found''
    rw [Writing.changes_of_bare bare] at rest
    rw [Writing.along, Call.told_mutate]
    by_cases same : name = name'
    · subst same
      obtain rfl : w = w' := by simpa using found.symm.trans found'
      have shown := shows.writers name w found
      simp [Writing.accepted, shown, BatchedWriter.admitted, room, ← rest, Writing.step]
    · simp [Writing.accepted, same, ← rest, Writing.step]

theorem Enacts.flush (calm : t.Calm) {first : List (Writing.Action String)}
    (flushes : ∀ a ∈ first, a.Flushes) {jobs : List (String × Flushing)}
    (enacts : Enacts frame (t.flush jobs) (s.run first) l actions) :
    Enacts frame t s (.flush jobs :: l) (first ++ actions) where
  quiet a member := by
    rcases List.mem_append.1 member with member | member
    · exact (flushes a member).quiet
    · exact enacts.quiet a member
  shows := by
    rw [Writing.run_append]
    exact enacts.shows
  only name m member := by
    rcases List.mem_append.1 member with member | member
    · exact absurd (flushes _ member) id
    · exact enacts.only name m member
  accepted name w kind found := by
    obtain ⟨w', found', bare, _⟩ := (calm_flush calm jobs).2 name w found
    rw [Writing.along_append, Writing.along_accepted_of_flushes flushes,
      enacts.accepted name w' kind found', Writing.changes_of_bare bare]
    rfl

theorem exists_enacts (calm : t.Calm) (shows : Shows frame t [] s) (knows : t.Knows l)
    (room : t.admits l) : ∃ actions, Enacts frame t s l actions := by
  induction l generalizing t s with
  | nil => exact ⟨[], by simp, shows, by simp, fun _ _ _ _ => rfl⟩
  | cons call l ih =>
    cases call with
    | mutate name m =>
      obtain ⟨here, later⟩ := Bool.and_eq_true_iff.1 room
      obtain ⟨w, found⟩ := knows name m (by simp [Call.told_mutate])
      have here : w.admits m := by simpa [hasRoom, found] using here
      have told : Shows frame (t.mutate name m) [] (s.mutate name m) := by
        rw [mutate, found]
        exact shows_updateBatched shows name _ rfl rfl rfl
      obtain ⟨actions, enacts⟩ := ih (calm_mutate calm found m) told (knows.tail calm) later
      exact ⟨_, enacts.mutate shows found here⟩
    | flush jobs =>
      obtain ⟨first, flushes, shows'⟩ := reached_flush calm shows jobs
      obtain ⟨actions, enacts⟩ := ih (calm_flush calm jobs).1 shows' (knows.tail calm) room
      exact ⟨_, enacts.flush calm flushes⟩

end

theorem calls_append (t : Timeline) (l l' : List Call) :
    t.calls (l ++ l') = (t.calls l).calls l' := List.foldl_append

/-- Whether nothing is under way, and batched writers have nothing to write. -/
structure Fresh (t : Timeline) : Prop extends t.Calm where
  pending : ∀ name w, t.writers.get? name = some (.batched w) → ∀ kind, w.pending kind = .empty

theorem Fresh.exists_idle {t : Timeline} (fresh : t.Fresh) :
    ∃ s, Shows (t.frame fun _ => False) t [] s ∧ s.Idle :=
  Timeline.exists_idle _ fresh.events fresh.pending

section

variable {t : Timeline} (fresh : t.Fresh) {l : List Call} (knows : t.Knows l) (room : t.admits l)

include fresh knows room

theorem words_of_calls (words : t.store.Words) : (t.calls l).store.Words := by
  obtain ⟨s, shows, idle⟩ := fresh.exists_idle
  obtain ⟨actions, enacts⟩ := exists_enacts fresh.toCalm shows knows room
  rw [← enacts.shows.store]
  exact Writing.words_run idle.sound (shows.store ▸ words) enacts.quiet

/-- Places that no mutation is meant for stay as they are. -/
theorem cell?_of_calls {p : Cell}
    (apart : ∀ name w, t.writers.get? name = some (.batched w) → ∀ m ∈ Call.told name l,
      (w.target m).salted w.salting ≠ p) :
    (t.calls l).store.cell? p = t.store.cell? p := by
  obtain ⟨s, shows, idle⟩ := fresh.exists_idle
  obtain ⟨actions, enacts⟩ := exists_enacts fresh.toCalm shows knows room
  rw [← enacts.shows.store, ← shows.store]
  refine Writing.cell?_run (idle.guarded fun a member => ?_)
  cases a with
  | mutate name m =>
    intro here
    have told := enacts.only name m member
    obtain ⟨w, found⟩ := knows name m told
    rw [shows.place found, shows.writers name w found] at here
    exact absurd here (apart name w found m told)
  | carryOut r => exact absurd (enacts.quiet _ member) id
  | _ => trivial

/-- After a last flush a cell of its own holds what its writer was told. -/
theorem stored_of_calls (g : Ledger) {name : String} {w : BatchedWriter}
    (found : t.writers.get? name = some (.batched w)) {c : Cell}
    (alone : ∀ name' w', t.writers.get? name' = some (.batched w') → ∀ m ∈ Call.told name' l,
      (w'.target m).salted w'.salting = c.salted w.salting → name' = name ∧ m.kind = g.kind)
    {before : List Call} {jobs : List (String × Flushing)} (last : l = before ++ [.flush jobs])
    (flushed : (name, g.kind) ∈ jobs) :
    g.stored ((t.calls l).store.cell? (c.salted w.salting)) =
      g.join (g.stored (t.store.cell? (c.salted w.salting)))
        (g.total c ((Call.told name l).flatMap fun m => w.changes m g.kind)) := by
  obtain ⟨s, shows, idle⟩ := fresh.exists_idle
  obtain ⟨actions, enacts⟩ := exists_enacts fresh.toCalm shows knows room
  have calm := (calm_calls fresh.toCalm knows).1
  have shown := shows.writers name w found
  have place := shows.place found c
  have done : (s.run actions).deliveries = [] := by
    simpa [calm.events] using enacts.shows.deliveries
  have empty : ((s.run actions).writers name).pending g.kind = .empty := by
    have knows' : t.Knows before := fun name m told => knows name m (by
      rw [last, Call.told, List.filterMap_append]
      exact List.mem_append_left _ told)
    obtain ⟨calm', continues⟩ := calm_calls fresh.toCalm knows'
    obtain ⟨w', found', _⟩ := continues name w found
    obtain ⟨w'', found'', _, pending⟩ := (calm_flush calm' jobs).2 name w' found'
    have final : t.calls l = (t.calls before).flush jobs := by
      rw [last, calls_append]
      rfl
    rw [enacts.shows.writers name w'' (final ▸ found''), pending, if_pos flushed]
  have spares : ∀ a ∈ actions, s.Spares (some (name, g.kind)) (s.place name c) a := by
    intro a member
    cases a with
    | mutate name' m =>
      intro here
      have told := enacts.only name' m member
      obtain ⟨w', found'⟩ := knows name' m told
      rw [shows.place found', shows.writers name' w' found', place] at here
      obtain ⟨rfl, same⟩ := alone name' w' found' m told here
      rw [same]
    | carryOut r => exact absurd (enacts.quiet _ member) id
    | _ => trivial
  have stored := Writing.stored_of_done g idle (shows.store ▸ fresh.failures) enacts.quiet spares
    (by rw [empty, SortedMap.get?_empty]) done
  rwa [enacts.shows.store, shows.store, place, enacts.accepted name w g.kind found] at stored

end

end Timeline

end CallTelemetry
