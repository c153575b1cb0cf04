import CallTelemetry.Proofs.Pending.Ledger

/-! A timeline is one of the orders in which the work of its writers can be done: whatever it does,
actions on writers and store do too. What holds of every run of such actions therefore holds of
timelines. -/
namespace CallTelemetry

open Pending

/-- The part of a flush that is under way. -/
def Flush.delivery (f : Flush) : List (Delivery String) :=
  if f.waiting.isEmpty then [] else [⟨f.writer, f.kind, f.waiting, f.written⟩]

def Task.deliveries : Task → List (Delivery String)
  | .flush f => f.delivery
  | .flusher f => f.flush.elim [] Flush.delivery
  | _ => []

namespace Timeline

/-- What stays as it is in a timeline: which of its writers batch, and what others may ask of the
store. -/
structure Frame where
  batches : String → Prop
  asks : Request → Prop

/-- The frame of a timeline in which others ask for nothing else. -/
def frame (t : Timeline) (asks : Request → Prop) : Frame :=
  ⟨fun name => ∃ w, t.writers.get? name = some (.batched w), asks⟩

/-- Whether a task is a flush, or a request that others may ask. -/
def Frame.Admits (frame : Frame) : Task → Prop
  | .arrive r | .carryOut r => frame.asks r
  | .flush _ | .flusher _ => True

/-- Whether an action tells no writer anything, and carries out only what others may ask. -/
def Frame.Allows (frame : Frame) : Writing.Action String → Prop
  | .mutate _ _ => False
  | .carryOut r => frame.asks r
  | _ => True

theorem Frame.allows_of_flushes (frame : Frame) {a : Writing.Action String} (flushes : a.Flushes) :
    frame.Allows a := by
  rcases flushes.eq_flush_or_answer with ⟨name, kind, rfl⟩ | ⟨n, rfl⟩ <;> trivial

/-- Whether writers and store are those of a timeline, and the deliveries those of its events,
besides the deliveries of a task that has been taken off the list. -/
structure Shows (frame : Frame) (t : Timeline) (own : List (Delivery String)) (s : Writing String) :
    Prop where
  writers : ∀ name w, t.writers.get? name = some (.batched w) → s.writers name = w
  batched : ∀ name, frame.batches name → ∃ w, t.writers.get? name = some (.batched w)
  store : s.store = t.store
  deliveries : s.deliveries.Perm (own ++ t.events.flatMap fun e => e.task.deliveries)
  admitted : ∀ e ∈ t.events, frame.Admits e.task

/-- Whether actions of a kind lead to what a timeline shows. -/
def Reached (frame : Frame) (allowed : Writing.Action String → Prop) (s : Writing String)
    (own : List (Delivery String)) (t : Timeline) : Prop :=
  ∃ actions, (∀ a ∈ actions, allowed a) ∧ Shows frame t own (s.run actions)

variable {frame : Frame}

theorem Shows.reached {allowed : Writing.Action String → Prop} {t : Timeline}
    {own : List (Delivery String)} {s : Writing String} (shows : Shows frame t own s) :
    Reached frame allowed s own t := ⟨[], by simp, shows⟩

theorem Reached.trans {allowed : Writing.Action String → Prop} {s : Writing String}
    {own own' : List (Delivery String)} {t t' : Timeline} (reached : Reached frame allowed s own t)
    (next : ∀ s', Shows frame t own s' → Reached frame allowed s' own' t') :
    Reached frame allowed s own' t' := by
  obtain ⟨actions, ok, shows⟩ := reached
  obtain ⟨actions', ok', shows'⟩ := next _ shows
  refine ⟨actions ++ actions', fun a member => ?_, by rwa [Writing.run_append]⟩
  exact (List.mem_append.1 member).elim (ok a) (ok' a)

theorem Reached.weaken {allowed allowed' : Writing.Action String → Prop} {s : Writing String}
    {own : List (Delivery String)} {t : Timeline} (reached : Reached frame allowed s own t)
    (weaker : ∀ a, allowed a → allowed' a) : Reached frame allowed' s own t := by
  obtain ⟨actions, ok, shows⟩ := reached
  exact ⟨actions, fun a member => weaker a (ok a member), shows⟩

theorem reached_step {allowed : Writing.Action String → Prop} {s : Writing String}
    {own : List (Delivery String)} {t : Timeline} (a : Writing.Action String)
    (ok : allowed a) (reached : Reached frame allowed (s.step a) own t) : Reached frame allowed s own t := by
  obtain ⟨actions, others, shows⟩ := reached
  exact ⟨a :: actions, by simpa using ⟨ok, others⟩, shows⟩

theorem get?_updateBatched (t : Timeline) (name name' : String)
    (f : BatchedWriter → BatchedWriter) {w : BatchedWriter}
    (found : (t.updateBatched name f).writers.get? name' = some (.batched w)) :
    ∃ w', t.writers.get? name' = some (.batched w') ∧ w = if name' = name then f w' else w' := by
  rw [updateBatched, SortedMap.get?_alter] at found
  by_cases same : name' = name
  · subst same
    rw [if_pos rfl] at found
    cases before : t.writers.get? name' with
    | none => simp [before] at found
    | some writer =>
      cases writer with
      | batched w' => exact ⟨w', rfl, by simp_all⟩
      | direct w' => simp [before] at found
  · rw [if_neg same] at found
    exact ⟨w, found, by simp [same]⟩

theorem batched_updateBatched {t : Timeline} {name' : String} {w : BatchedWriter}
    (found : t.writers.get? name' = some (.batched w)) (name : String)
    (f : BatchedWriter → BatchedWriter) :
    ∃ w', (t.updateBatched name f).writers.get? name' = some (.batched w') := by
  rw [updateBatched, SortedMap.get?_alter]
  by_cases same : name' = name
  · subst same
    exact ⟨f w, by simp [found]⟩
  · exact ⟨w, by simp [same, found]⟩

/-- Writers that are shown are still shown when the same is done to both. -/
theorem shows_updateBatched {t : Timeline} {own : List (Delivery String)} {s s' : Writing String}
    (shows : Shows frame t own s) (name : String) (f : BatchedWriter → BatchedWriter)
    (writers : s'.writers = Writing.replace s.writers name (f (s.writers name)))
    (store : s'.store = s.store) (deliveries : s'.deliveries = s.deliveries) :
    Shows frame (t.updateBatched name f) own s' := by
  refine ⟨fun name' w found => ?_, fun name' batches => ?_, store.trans shows.store,
    deliveries ▸ shows.deliveries, shows.admitted⟩
  · obtain ⟨w', before, rfl⟩ := get?_updateBatched t name name' f found
    have shown := shows.writers name' w' before
    rw [writers]
    by_cases same : name' = name
    · subst same
      simp [shown]
    · simp [Writing.replace_of_ne _ _ same, same, shown]
  · obtain ⟨w, found⟩ := shows.batched name' batches
    exact batched_updateBatched found name f

theorem shows_endFlush {t : Timeline} {own : List (Delivery String)} {s s' : Writing String}
    (shows : Shows frame t own s) (name : String) (kind : Flushing) (written : Nat)
    (writers : s'.writers =
      Writing.replace s.writers name (Writing.endFlush (s.writers name) kind written))
    (store : s'.store = s.store) (deliveries : s'.deliveries = s.deliveries) :
    Shows frame (endFlush name kind written t) own s' := by
  cases kind with
  | maxima => exact shows_updateBatched shows name _ writers store deliveries
  | counters =>
    refine ⟨fun name' w found => ?_, shows.batched, store.trans shows.store,
      deliveries ▸ shows.deliveries, shows.admitted⟩
    have shown := shows.writers name' w found
    rw [writers, ← shown]
    by_cases same : name' = name
    · subst same
      exact Writing.replace_self _ _ _
    · exact Writing.replace_of_ne _ _ same

/-- A delivery that is shown can be taken out of the machine's list. -/
theorem exists_delivery {s : Writing String} {d : Delivery String} {l : List (Delivery String)}
    (perm : s.deliveries.Perm (d :: l)) :
    ∃ n, s.deliveries[n]? = some d ∧ (s.deliveries.eraseIdx n).Perm l ∧
      ∀ d', (s.deliveries.set n d').Perm (d' :: l) := by
  obtain ⟨n, within, here⟩ := List.mem_iff_getElem.1 (perm.mem_iff.2 List.mem_cons_self)
  have parts : s.deliveries = s.deliveries.take n ++ d :: s.deliveries.drop (n + 1) := by
    rw [← here, List.getElem_cons_drop, List.take_append_drop]
  have rest : (s.deliveries.take n ++ s.deliveries.drop (n + 1)).Perm l := by
    refine List.Perm.cons_inv (List.perm_middle.symm.trans ?_) (a := d)
    rwa [← parts]
  refine ⟨n, by simp [within, here], ?_, fun d' => ?_⟩
  · rwa [List.eraseIdx_eq_take_drop_succ]
  · rw [List.set_eq_take_append_cons_drop, if_pos within]
    exact List.perm_middle.trans (rest.cons d')

/-- The store answers the first waiting request of a flush. -/
theorem shows_answer {t : Timeline} {own : List (Delivery String)} {s : Writing String}
    {name : String} {kind : Flushing} {r : Request} {rest : List Request} {written : Nat}
    (shows : Shows frame t (⟨name, kind, r :: rest, written⟩ :: own) s) :
    let t' := (t.carryOutFor name r).2
    let written := countWritten kind (t.carryOutFor name r).1 written
    ∃ n,
      (rest = [] → Shows frame (endFlush name kind written t') own (s.answer n)) ∧
      (rest ≠ [] → Shows frame { t' with store := t'.store.arrive }
        (⟨name, kind, rest, written⟩ :: own) (s.answer n)) := by
  obtain ⟨n, found, erased, set⟩ := exists_delivery shows.deliveries
  -- writer and store as the timeline has them between the answer and the next request
  have settled (deliveries : List (Delivery String))
      (perm : deliveries.Perm (own ++ t.events.flatMap fun e => e.task.deliveries)) :
      Shows frame (t.carryOutFor name r).2 own
        ⟨Writing.replace s.writers name ((s.writers name).settle r (s.store.carryOut r).1),
          (s.store.carryOut r).2, deliveries⟩ := by
    rw [shows.store]
    refine shows_updateBatched (s := ⟨s.writers, (t.store.carryOut r).2, deliveries⟩) ?_ name _
      rfl rfl rfl
    exact ⟨shows.writers, shows.batched, rfl, perm, shows.admitted⟩
  refine ⟨n, ?_, fun more => ?_⟩
  · rintro rfl
    refine shows_endFlush (settled _ erased) name kind _ ?_ ?_ ?_
    · simp [Writing.answer, found, shows.store, carryOutFor, Writing.replace_replace]
    · simp [Writing.answer, found]
    · simp [Writing.answer, found]
  · have between := settled _ erased
    have answered : s.answer n =
        ⟨Writing.replace s.writers name ((s.writers name).settle r (s.store.carryOut r).1),
          (s.store.carryOut r).2.arrive, s.deliveries.set n ⟨name, kind, rest,
            countWritten kind (s.store.carryOut r).1 written⟩⟩ := by
      simp [Writing.answer, found, more]
    rw [answered]
    refine ⟨between.writers, between.batched, congrArg Store.arrive between.store, ?_,
      between.admitted⟩
    rw [shows.store]
    exact set ⟨name, kind, rest, _⟩

/-- Sending goes on until a request has to wait, or the flush has ended. -/
theorem reached_send {requests : List Request} {t : Timeline} {own : List (Delivery String)}
    {s : Writing String} {name : String} {kind : Flushing} {written : Nat} (some_ : requests ≠ [])
    (shows : Shows frame { t with store := t.store.arrive } (⟨name, kind, requests, written⟩ :: own) s) :
    let sent := send name kind requests written t
    if sent.1.isEmpty then Reached frame Writing.Action.Flushes s own (endFlush name kind sent.2.1 sent.2.2)
    else Reached frame Writing.Action.Flushes s (⟨name, kind, sent.1, sent.2.1⟩ :: own) sent.2.2 := by
  induction requests generalizing t s written with
  | nil => exact absurd rfl some_
  | cons r rest ih =>
    rw [send]
    split
    next => exact shows.reached
    next =>
      obtain ⟨n, last, more⟩ := shows_answer shows
      by_cases none : rest = []
      · subst none
        exact reached_step (.answer n) trivial (last rfl).reached
      · have next := ih none (more none)
        dsimp only at next ⊢
        split
        next ended =>
          rw [if_pos ended] at next
          exact reached_step (.answer n) trivial next
        next waits =>
          rw [if_neg waits] at next
          exact reached_step (.answer n) trivial next

/-- The beginning of a flush shows one more delivery, unless there is nothing to flush. -/
theorem shows_beginFlush {t : Timeline} {own : List (Delivery String)} {s : Writing String}
    (shows : Shows frame t own s) (name : String) (kind : Flushing) :
    let begun := t.beginFlush name kind
    if begun.1.isEmpty then Reached frame Writing.Action.Flushes s own begun.2
    else Shows frame { begun.2 with store := begun.2.store.arrive }
      (⟨name, kind, begun.1, 0⟩ :: own) (s.flush name kind) := by
  cases found : t.writers.get? name with
  | none => simpa [beginFlush, found] using shows.reached
  | some writer =>
    cases writer with
    | direct w => simpa [beginFlush, found] using shows.reached
    | batched w =>
      have shown := shows.writers name w found
      have writers (name' : String) (w' : BatchedWriter)
          (found' : (t.writers.insert name (.batched (w.beginFlush kind).2)).get? name' =
            some (.batched w')) :
          (s.flush name kind).writers name' = w' := by
        rw [SortedMap.get?_insert] at found'
        rw [Writing.writers_flush, shown]
        by_cases same : name' = name
        · subst same
          rw [if_pos rfl] at found'
          simpa using found'
        · rw [if_neg same] at found'
          rw [Writing.replace_of_ne _ _ same]
          exact shows.writers name' w' found'
      have batched (name' : String) (batches : frame.batches name') :
          ∃ w', (t.writers.insert name (.batched (w.beginFlush kind).2)).get? name' =
            some (.batched w') := by
        rw [SortedMap.get?_insert]
        split
        · exact ⟨_, rfl⟩
        · exact shows.batched name' batches
      simp only [beginFlush, found]
      split
      next none =>
        refine reached_step (.flush name kind) trivial
          (Shows.reached ⟨writers, batched, ?_, ?_, shows.admitted⟩)
        · simpa [Writing.step, Writing.flush, shown, none] using shows.store
        · simpa [Writing.step, Writing.flush, shown, none] using shows.deliveries
      next some_ =>
        refine ⟨writers, batched, ?_, ?_, shows.admitted⟩
        · simpa [Writing.flush, shown, some_] using congrArg Store.arrive shows.store
        · let next : Delivery String := ⟨name, kind, (w.beginFlush kind).1, 0⟩
          have last : (s.deliveries ++ [next]).Perm (next :: s.deliveries) :=
            List.perm_append_comm
          have perm := last.trans (shows.deliveries.cons next)
          simpa [Writing.flush, shown, some_, next] using perm

theorem reached_runFlushes (jobs : List (String × Flushing)) {t : Timeline}
    {own : List (Delivery String)} {s : Writing String} (shows : Shows frame t own s) :
    Reached frame Writing.Action.Flushes s ((runFlushes jobs t).1.elim [] Flush.delivery ++ own)
      (runFlushes jobs t).2 := by
  induction jobs generalizing t s with
  | nil => exact shows.reached
  | cons job jobs ih =>
    obtain ⟨name, kind⟩ := job
    have begun := shows_beginFlush shows name kind
    dsimp only at begun
    rw [runFlushes]
    split
    next t' none =>
      rw [none] at begun
      exact begun.trans fun s' shows' => ih shows'
    next requests t' some_ same =>
      have waits : ¬requests.isEmpty := by simpa using some_
      rw [same, if_neg waits] at begun
      have sent := reached_send (by simpa using waits) begun
      dsimp only at sent ⊢
      split
      next ended =>
        rw [if_pos ended] at sent
        exact (reached_step (.flush name kind) trivial sent).trans fun s' shows' => ih shows'
      next rest =>
        rw [if_neg rest] at sent
        refine reached_step (.flush name kind) trivial ?_
        rw [Option.elim_some, Flush.delivery, if_neg rest]
        exact sent

theorem reached_resumeFlush {f : Flush} {t : Timeline} {own : List (Delivery String)}
    {s : Writing String} (shows : Shows frame t (f.delivery ++ own) s) :
    Reached frame Writing.Action.Flushes s ((resumeFlush f t).1.elim [] Flush.delivery ++ own)
      (resumeFlush f t).2 := by
  rw [resumeFlush]
  split
  next none =>
    rw [Flush.delivery, none] at shows
    exact reached_runFlushes f.rest shows
  next r requests some_ =>
    rw [Flush.delivery, some_] at shows
    obtain ⟨n, last, more⟩ := shows_answer shows
    by_cases none : requests = []
    · subst none
      exact reached_step (.answer n) trivial ((last rfl).reached.trans fun s' shows' =>
        reached_runFlushes f.rest shows')
    · have sent := reached_send none (more none)
      dsimp only at sent ⊢
      split
      next ended =>
        rw [if_pos ended] at sent
        exact (reached_step (.answer n) trivial sent).trans fun s' shows' =>
          reached_runFlushes f.rest shows'
      next rest =>
        rw [if_neg rest] at sent
        refine reached_step (.answer n) trivial ?_
        rw [Option.elim_some, Flush.delivery, if_neg rest]
        exact sent

theorem reached_tick (bound : Nat) {f : Flusher} (idle : f.flush = none) {t : Timeline}
    {own : List (Delivery String)} {s : Writing String} (shows : Shows frame t own s) :
    Reached frame Writing.Action.Flushes s
      ((tick bound f t).1.elim [] (fun f => (Task.flusher f).deliveries) ++ own)
      (tick bound f t).2 := by
  induction bound generalizing f t s with
  | zero => simpa [tick, Task.deliveries, idle] using shows.reached
  | succ bound ih =>
    have flushed := reached_runFlushes (flushings f.writers) shows
    rw [tick]
    split
    next => exact shows.reached
    split
    next =>
      split
      next same => rwa [same] at flushed
      next same => rwa [same] at flushed
    split
    next => simpa [Task.deliveries, idle] using shows.reached
    next =>
      dsimp only
      split
      next same => rwa [same] at flushed
      next same =>
        rw [same] at flushed
        exact flushed.trans fun s' shows' =>
          ih (f := { f with nextTick := f.nextTick + f.interval }) idle shows'

theorem reached_resumeFlusher {f : Flusher} {t : Timeline} {own : List (Delivery String)}
    {s : Writing String} (shows : Shows frame t ((Task.flusher f).deliveries ++ own) s) :
    Reached frame Writing.Action.Flushes s
      ((resumeFlusher f t).1.elim [] (fun f => (Task.flusher f).deliveries) ++ own)
      (resumeFlusher f t).2 := by
  unfold resumeFlusher
  split
  next idle =>
    have shows : Shows frame t own s := by simpa [Task.deliveries, idle] using shows
    exact reached_tick (t.now + 2) idle shows
  next flush under =>
    have shows : Shows frame t (flush.delivery ++ own) s := by
      simpa [Task.deliveries, under] using shows
    have resumed := reached_resumeFlush shows
    split
    next same => rwa [same] at resumed
    next same =>
      rw [same] at resumed
      exact resumed.trans fun s' shows' => reached_tick _ rfl shows'

/-- A store that is shown is still shown when the same becomes of both. -/
theorem Shows.storing {t : Timeline} {own : List (Delivery String)} {s : Writing String}
    (shows : Shows frame t own s) (change : Store → Store) :
    Shows frame { t with store := change t.store } own { s with store := change s.store } :=
  ⟨shows.writers, shows.batched, congrArg change shows.store, shows.deliveries, shows.admitted⟩

theorem reached_carryOut {t : Timeline} {own : List (Delivery String)} {s : Writing String}
    {r : Request} (asked : frame.asks r) (shows : Shows frame t own s) :
    Reached frame frame.Allows s own { t with store := (t.store.carryOut r).2 } :=
  reached_step (.carryOut r) asked (shows.storing fun s => (s.carryOut r).2).reached

/-- What is left of a task is of its kind. -/
theorem admits_runTask {task : Task} (admits : frame.Admits task) {t : Timeline}
    {left : Nat × Task} (some_ : (t.runTask task).1 = some left) : frame.Admits left.2 := by
  unfold runTask at some_
  cases task with
  | arrive r =>
    dsimp only at some_
    split at some_
    · obtain rfl := Option.some.inj some_
      exact admits
    · cases some_
  | carryOut r => cases some_
  | flush f =>
    dsimp only at some_
    split at some_
    · obtain rfl := Option.some.inj some_
      trivial
    · cases some_
  | flusher f =>
    dsimp only at some_
    split at some_
    · obtain rfl := Option.some.inj some_
      trivial
    · cases some_

theorem reached_runTask {task : Task} (admits : frame.Admits task) {t : Timeline}
    {own : List (Delivery String)} {s : Writing String}
    (shows : Shows frame t (task.deliveries ++ own) s) :
    Reached frame frame.Allows s
      ((t.runTask task).1.elim [] (fun left => left.2.deliveries) ++ own) (t.runTask task).2 := by
  cases task with
  | arrive r =>
    have arrived : Shows frame { t with store := t.store.arrive } own (s.step .arrive) :=
      shows.storing Store.arrive
    unfold runTask
    dsimp only
    split
    next => exact reached_step .arrive trivial arrived.reached
    next => exact reached_step .arrive trivial (reached_carryOut admits arrived)
  | carryOut r => exact reached_carryOut admits shows
  | flush f =>
    have resumed := (reached_resumeFlush shows).weaken fun _ => frame.allows_of_flushes
    unfold runTask
    dsimp only
    split
    next same => rwa [same] at resumed
    next same => rwa [same] at resumed
  | flusher f =>
    have resumed := (reached_resumeFlusher shows).weaken fun _ => frame.allows_of_flushes
    unfold runTask
    dsimp only
    split
    next same => rwa [same] at resumed
    next same => rwa [same] at resumed

theorem insertEvent_perm (e : Event) (l : List Event) : (insertEvent e l).Perm (e :: l) := by
  induction l with
  | nil => exact .refl _
  | cons e' l ih =>
    rw [insertEvent]
    split
    · exact .refl _
    · exact (ih.cons e').trans (.swap e e' l)

theorem shows_addEvent {t : Timeline} {own : List (Delivery String)} {s : Writing String}
    {e : Event} (admits : frame.Admits e.task) (shows : Shows frame t (e.task.deliveries ++ own) s) :
    Shows frame (t.addEvent e) own s := by
  have perm := insertEvent_perm e t.events
  refine ⟨shows.writers, shows.batched, shows.store, shows.deliveries.trans ?_, fun e' member => ?_⟩
  · have added := perm.flatMap_right fun e => e.task.deliveries
    rw [List.append_assoc, List.flatMap_cons] at *
    exact (List.perm_append_comm_assoc _ _ _).trans (added.symm.append_left own)
  · rcases List.mem_cons.1 (perm.mem_iff.1 member) with rfl | member
    · exact admits
    · exact shows.admitted e' member

theorem reached_runEvent {e : Event} (admits : frame.Admits e.task) {t : Timeline}
    {own : List (Delivery String)} {s : Writing String}
    (shows : Shows frame t (e.task.deliveries ++ own) s) :
    Reached frame frame.Allows s own (t.runEvent e) := by
  have ran := reached_runTask admits (t := { t with now := max t.now e.due })
    ⟨shows.writers, shows.batched, shows.store, shows.deliveries, shows.admitted⟩
  have left {left : Nat × Task}
      (some_ : ({ t with now := max t.now e.due }.runTask e.task).1 = some left) :
      frame.Admits left.2 := admits_runTask admits some_
  unfold runEvent
  split
  next due task t' same =>
    rw [same] at ran left
    exact ran.trans fun s' shows' => (shows_addEvent (left rfl) shows').reached
  next same => rwa [same] at ran

theorem reached_run (deadline : Nat) (awaited : Option Nat) (fuel : Nat) {t : Timeline}
    {own : List (Delivery String)} {s : Writing String} (shows : Shows frame t own s) :
    Reached frame frame.Allows s own (run deadline awaited fuel t) := by
  induction fuel generalizing t s with
  | zero => exact shows.reached
  | succ fuel ih =>
    rw [run]
    split
    next => exact shows.reached
    next e rest events =>
      split
      next => exact shows.reached
      next =>
        have popped : Shows frame { t with events := rest } (e.task.deliveries ++ own) s := by
          refine ⟨shows.writers, shows.batched, shows.store, shows.deliveries.trans ?_,
            fun e' member => shows.admitted e' (events ▸ List.mem_cons_of_mem e member)⟩
          rw [events, List.flatMap_cons, List.append_assoc]
          exact List.perm_append_comm_assoc _ _ _
        have admits := shows.admitted e (events ▸ List.mem_cons_self)
        exact (reached_runEvent admits popped).trans fun s' shows' => ih shows'

/-- Whether actions lead from all that one timeline shows to what another shows, and no writer is told
anything meanwhile. -/
def Follows (frame : Frame) (t t' : Timeline) : Prop :=
  ∀ own s, Shows frame t own s → Reached frame frame.Allows s own t'

theorem Follows.trans {t t' t'' : Timeline} (first : Follows frame t t')
    (second : Follows frame t' t'') : Follows frame t t'' := fun own s shows =>
  (first own s shows).trans fun s' shows' => second own s' shows'

theorem follows_run (t : Timeline) (deadline : Nat) (awaited : Option Nat) (fuel : Nat) :
    Follows frame t (run deadline awaited fuel t) := fun _ _ shows => reached_run _ _ _ shows

theorem follows_now (t : Timeline) (now : Nat) : Follows frame t { t with now } :=
  fun _ _ shows => Shows.reached
    ⟨shows.writers, shows.batched, shows.store, shows.deliveries, shows.admitted⟩

theorem follows_sleepUntil (t : Timeline) (deadline : Nat) :
    Follows frame t (t.sleepUntil deadline) := by
  unfold sleepUntil
  split
  · exact follows_now t t.now
  · exact (follows_run t _ _ _).trans (follows_now _ deadline)

theorem follows_sleep (t : Timeline) (millis : Nat) : Follows frame t (t.sleep millis) :=
  follows_sleepUntil t _

theorem follows_await (t : Timeline) (id : Nat) : Follows frame t (t.await id) :=
  follows_run t _ _ _

theorem follows_spawn (t : Timeline) {task : Task} (admits : frame.Admits task)
    (fresh : task.deliveries = []) : Follows frame t (t.spawn task).2 := fun own s shows =>
  (shows_addEvent (t := { t with nextId := t.nextId + 1 }) (e := ⟨t.now, t.nextId, task⟩) admits
    ⟨shows.writers, shows.batched, shows.store, by simpa [fresh] using shows.deliveries,
      shows.admitted⟩).reached

theorem follows_begin (t : Timeline) {task : Task} (admits : frame.Admits task)
    (fresh : task.deliveries = []) : Follows frame t (t.begin task).2 := fun own s shows =>
  reached_runEvent (t := { t with nextId := t.nextId + 1 }) (e := ⟨t.now, t.nextId, task⟩) admits
    ⟨shows.writers, shows.batched, shows.store, by simpa [fresh] using shows.deliveries,
      shows.admitted⟩

theorem follows_request (t : Timeline) {r : Request} (asked : frame.asks r) :
    Follows frame t (t.request r).2 := by
  intro own s shows
  have arrived : Shows frame { t with store := t.store.arrive } own (s.step .arrive) :=
    shows.storing Store.arrive
  have carried (t : Timeline) : Follows frame t { t with store := (t.store.carryOut r).2 } :=
    fun _ _ shows => reached_carryOut asked shows
  refine reached_step .arrive trivial ?_
  unfold request
  dsimp only
  split
  next => exact (follows_sleep _ _).trans (carried _) own _ arrived
  next => exact carried _ own _ arrived

theorem follows_flush (t : Timeline) (jobs : List (String × Flushing)) :
    Follows frame t (t.flush jobs) := by
  let task : Task := .flush ⟨"", .counters, [], 0, jobs⟩
  have begun : Follows frame t (t.begin task).2 := follows_begin t trivial rfl
  exact begun.trans ((follows_sleep _ 0).trans (follows_await _ _))

theorem follows_startFlusher (t : Timeline) (writers : List String) (interval : Nat) :
    Follows frame t (t.startFlusher writers interval).2 := follows_spawn t trivial rfl

theorem follows_failNext (t : Timeline) (count : Nat) :
    Follows frame t { t with store := { t.store with dueFailures := count } } := fun _ _ shows =>
  reached_step (.failNext count) trivial
    (shows.storing fun s => { s with dueFailures := count }).reached

theorem follows_slow (t : Timeline) (latency : Option Nat) :
    Follows frame t { t with store := { t.store with latency } } := fun _ _ shows =>
  reached_step (.slow latency) trivial (shows.storing fun s => { s with latency }).reached

/-- A mutation is an action of its writer. -/
theorem shows_mutate {t : Timeline} {own : List (Delivery String)} {s : Writing String}
    (shows : Shows frame t own s) {name : String} (batches : frame.batches name) (m : Mutation) :
    Shows frame (t.mutate name m) own (s.mutate name m) := by
  obtain ⟨w, found⟩ := shows.batched name batches
  rw [mutate, found]
  exact shows_updateBatched shows name _ rfl rfl rfl

/-- Idle writers show a timeline in which nothing is under way and nothing is pending. -/
theorem exists_idle {t : Timeline} (asks : Request → Prop) (events : t.events = [])
    (pending : ∀ name w, t.writers.get? name = some (.batched w) → ∀ kind, w.pending kind = .empty) :
    ∃ s, Shows (t.frame asks) t [] s ∧ s.Idle := by
  have each (name : String) : ∃ w : BatchedWriter,
      (∀ w', t.writers.get? name = some (.batched w') → w = w') ∧ ∀ kind, w.pending kind = .empty := by
    by_cases batches : ∃ w, t.writers.get? name = some (.batched w)
    · obtain ⟨w, found⟩ := batches
      refine ⟨w, fun w' found' => ?_, pending name w found⟩
      exact Writer.batched.inj (Option.some.inj (found.symm.trans found'))
    · -- a name under which nothing is batched can stand for any writer without work
      let blank : BatchedWriter :=
        ⟨⟨""⟩, [], ⟨1, by decide, by decide⟩, 1, none, none, .empty, .empty, .empty⟩
      exact ⟨blank, fun w' found => absurd ⟨w', found⟩ batches, fun kind => by cases kind <;> rfl⟩
  choose writers same blank using each
  exact ⟨⟨writers, t.store, []⟩,
    ⟨same, fun _ => id, rfl, by simp [events], by simp [events]⟩, blank, rfl⟩

theorem Shows.place {t : Timeline} {own : List (Delivery String)} {s : Writing String}
    (shows : Shows frame t own s) {name : String} {w : BatchedWriter}
    (found : t.writers.get? name = some (.batched w)) (c : Cell) :
    s.place name c = c.salted w.salting := by
  rw [Writing.place, shows.writers name w found]

end Timeline

end CallTelemetry
