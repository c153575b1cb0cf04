import CallTelemetry.Proofs.Pending.Settling

/-! Drains that race with additions. A drain goes from cell to cell and takes the value out of each;
then it looks again at the cells that it came across, removes those that still hold zero, and after
each of them lowers the number of cells. Between any two of these steps cells are added to and other
drains do their own. Whatever the order, an addition is taken by one drain or is still held. -/
namespace CallTelemetry.Pending

namespace Counters

/-- Removes a cell unless it holds something. The number of cells is lowered later. -/
def remove (c : Counters) (cell : Cell) : Bool × Counters :=
  if c.cells.get? cell = some 0 then (true, { c with cells := c.cells.erase cell }) else (false, c)

theorem remove_cases (c : Counters) (cell : Cell) :
    c.cells.get? cell = some 0 ∧ c.remove cell = (true, { c with cells := c.cells.erase cell }) ∨
      c.remove cell = (false, c) := by
  unfold remove
  split
  next zero => exact .inl ⟨zero, rfl⟩
  next => exact .inr rfl

def countDown (c : Counters) : Counters := { c with count := c.count - 1 }

theorem sweep_eq (c : Counters) (cell : Cell) :
    c.sweep cell = if (c.remove cell).1 then (c.remove cell).2.countDown else c := by
  unfold sweep remove
  split <;> rfl

/-- Taking a value out of a cell leaves all that the other cells hold. -/
theorem held_take (c : Counters) (cell x : Cell) :
    (c.take cell).2.held x = if x = cell then 0 else c.held x := by
  unfold held SortedMap.getD
  rw [take_snd]
  by_cases same : x = cell
  · cases c.cells.get? x <;> simp [same]
  · simp [same]

theorem count_take (c : Counters) (cell : Cell) : (c.take cell).2.count = c.count := by
  unfold take
  split <;> rfl

theorem size_take (c : Counters) (cell : Cell) : (c.take cell).2.cells.size = c.cells.size := by
  unfold take
  split
  next found => rw [SortedMap.size_insert, if_neg (by simp [found])]
  next => rfl

/-- A cell that holds zero may go: it is worth as much when it is absent. -/
theorem held_erase {c : Counters} {cell : Cell} (zero : c.cells.get? cell = some 0) (x : Cell) :
    ({ c with cells := c.cells.erase cell } : Counters).held x = c.held x := by
  unfold held SortedMap.getD
  rw [SortedMap.get?_erase]
  by_cases same : x = cell
  · simp [same, zero]
  · simp [same]

end Counters

/-- How far a drain has come. -/
inductive Phase where
  /-- It has taken the values out of some cells and goes on to others. -/
  | listing (listed : List Cell)
  /-- It has still to look again at some cells. -/
  | sweeping (left : List Cell)
  /-- It has just removed a cell, and the number of cells includes that one still. -/
  | counting (left : List Cell)
  deriving DecidableEq

structure Drain where
  phase : Phase
  taken : List (Cell × Int64)
  deriving DecidableEq

namespace Drain

def start : Drain := ⟨.listing [], []⟩

def Ended (d : Drain) : Prop := d.phase = .sweeping []

instance (d : Drain) : Decidable d.Ended := inferInstanceAs (Decidable (d.phase = _))

/-- Whether the number of cells includes a cell that the drain has removed. -/
def owes (d : Drain) : Bool :=
  match d.phase with
  | .counting _ => true
  | .listing _ | .sweeping _ => false

/-- A drain that is listing comes to a cell, if the cell is there. -/
def list (cell : Cell) (d : Drain) (c : Counters) : Drain × Counters :=
  match d.phase, c.cells.get? cell with
  | .listing listed, some value =>
    (⟨.listing (listed ++ [cell]), d.taken ++ if value = 0 then [] else [(cell, value)]⟩,
      (c.take cell).2)
  | _, _ => (d, c)

/-- The next step of a drain that lists no more cells. -/
def goOn (d : Drain) (c : Counters) : Drain × Counters :=
  match d.phase with
  | .listing listed => ({ d with phase := .sweeping listed }, c)
  | .sweeping [] => (d, c)
  | .sweeping (cell :: left) =>
    let (removed, c) := c.remove cell
    ({ d with phase := if removed then .counting left else .sweeping left }, c)
  | .counting left => ({ d with phase := .sweeping left }, c.countDown)

/-- What a drain takes out of a cell it has from then on. -/
theorem held_list (cell : Cell) (d : Drain) (c : Counters) (x : Cell) :
    (d.list cell c).2.held x + amount x (d.list cell c).1.taken = c.held x + amount x d.taken := by
  unfold list
  split
  next listed value _ found =>
    have value_eq : c.held cell = value := by simp [Counters.held, SortedMap.getD, found]
    rw [Counters.held_take, amount_append]
    by_cases same : x = cell
    · subst same
      by_cases zero : value = 0
      · simp [zero, value_eq]
      · simp [zero, value_eq, amount_cons, Int64.add_comm]
    · have apart : amount x (if value = 0 then [] else [(cell, value)]) = 0 := by
        split <;> simp [amount_cons, Ne.symm same]
      simp [same, apart]
  next => rfl

theorem held_goOn (d : Drain) (c : Counters) (x : Cell) :
    (d.goOn c).2.held x = c.held x ∧ (d.goOn c).1.taken = d.taken := by
  unfold goOn
  split
  next => exact ⟨rfl, rfl⟩
  next => exact ⟨rfl, rfl⟩
  next cell left _ =>
    rcases c.remove_cases cell with ⟨zero, same⟩ | same
    · rw [same]
      exact ⟨Counters.held_erase zero x, rfl⟩
    · rw [same]
      exact ⟨rfl, rfl⟩
  next => exact ⟨rfl, rfl⟩

theorem count_list {cell : Cell} {d : Drain} {c : Counters} {others : Nat}
    (counted : c.count = c.cells.size + d.owes.toNat + others) :
    (d.list cell c).2.count =
      (d.list cell c).2.cells.size + (d.list cell c).1.owes.toNat + others := by
  unfold list
  split
  next phase found =>
    rw [Counters.count_take, Counters.size_take, counted]
    simp [owes, phase]
  next => exact counted

/-- Each cell that goes is counted down once. -/
theorem count_goOn {d : Drain} {c : Counters} {others : Nat}
    (counted : c.count = c.cells.size + d.owes.toNat + others) :
    (d.goOn c).2.count = (d.goOn c).2.cells.size + (d.goOn c).1.owes.toNat + others := by
  unfold goOn
  split
  next phase => simpa [owes, phase] using counted
  next => exact counted
  next cell left phase =>
    rcases c.remove_cases cell with ⟨zero, same⟩ | same
    · have size := SortedMap.size_erase (m := c.cells) (k := cell) (by simp [zero])
      simp only [owes, phase, Bool.toNat_false] at counted
      simp only [same, owes, ↓reduceIte, Bool.toNat_true]
      omega
    · simpa [same, owes, phase] using counted
  next left phase =>
    simp only [owes, phase, Bool.toNat_true] at counted
    simp only [Counters.countDown, owes, Bool.toNat_false]
    omega

/-- What a drain does to a cell that holds something: it may take that out, but leaves the cell. -/
theorem present_list {cell : Cell} {d : Drain} {c : Counters} {x : Cell}
    (present : c.cells.get? x ≠ none) : (d.list cell c).2.cells.get? x ≠ none := by
  unfold list
  split
  next =>
    rw [Counters.take_snd]
    split
    · simpa using present
    · exact present
  next => exact present

theorem present_goOn {d : Drain} {c : Counters} {x : Cell} {v : Int64}
    (found : c.cells.get? x = some v) (something : v ≠ 0) :
    (d.goOn c).2.cells.get? x ≠ none := by
  have present : c.cells.get? x ≠ none := by simp [found]
  unfold goOn
  split
  next => exact present
  next => exact present
  next cell left _ =>
    rcases c.remove_cases cell with ⟨zero, same⟩ | same
    · have apart : x ≠ cell := by
        rintro rfl
        exact something (Option.some.inj (found.symm.trans zero))
      rw [same, SortedMap.get?_erase, if_neg apart]
      exact present
    · rwa [same]
  next => exact present

end Drain

/-- Pending cells, and all drains that were ever begun. -/
structure Racing where
  counters : Counters
  drains : List Drain
  deriving DecidableEq

namespace Racing

inductive Action where
  /-- Adds to a cell, be it something new or something that could not be written. -/
  | add (cell : Cell) (delta : Int64)
  | begin
  | list (n : Nat) (cell : Cell)
  | goOn (n : Nat)
  deriving DecidableEq

/-- Nothing pending, and no drain yet. -/
def idle : Racing := ⟨.empty, []⟩

/-- Lets one of the drains do a step. -/
def drive (s : Racing) (n : Nat) (f : Drain → Counters → Drain × Counters) : Racing :=
  match s.drains[n]? with
  | some d => let (d, counters) := f d s.counters; ⟨counters, s.drains.set n d⟩
  | none => s

def step (limit : Option Nat) (s : Racing) : Action → Racing
  | .add cell delta => { s with counters := (s.counters.add limit cell delta).2 }
  | .begin => { s with drains := s.drains ++ [.start] }
  | .list n cell => s.drive n (Drain.list cell)
  | .goOn n => s.drive n Drain.goOn

def run (limit : Option Nat) (s : Racing) (actions : List Action) : Racing :=
  actions.foldl (step limit) s

/-- What the drains have taken together. -/
def taken (s : Racing) : List (Cell × Int64) := s.drains.flatMap (·.taken)

/-- By how much the number of cells is too high. -/
def owed (s : Racing) : Nat := s.drains.countP (·.owes)

/-- What an action asks to be added. -/
def Action.addition : Action → List (Cell × Int64)
  | .add cell delta => [(cell, delta)]
  | _ => []

/-- What an action adds: all that it asks for, unless there is no room for it. -/
def made (limit : Option Nat) (s : Racing) : Action → List (Cell × Int64)
  | .add cell delta => if (s.counters.add limit cell delta).1 then [(cell, delta)] else []
  | _ => []

def additions (limit : Option Nat) : Racing → List Action → List (Cell × Int64)
  | _, [] => []
  | s, a :: actions => s.made limit a ++ additions limit (s.step limit a) actions

/-- A step of a drain changes the cells and that drain alone. -/
theorem drive_cases (s : Racing) (n : Nat) (f : Drain → Counters → Drain × Counters) :
    s.drive n f = s ∨ ∃ before d after, s.drains = before ++ d :: after ∧
      s.drive n f = ⟨(f d s.counters).2, before ++ (f d s.counters).1 :: after⟩ := by
  unfold drive
  split
  next d found =>
    right
    obtain ⟨within, rfl⟩ := List.getElem?_eq_some_iff.1 found
    obtain ⟨before, after, now, -, then_⟩ : ∃ before after,
        s.drains = before ++ s.drains[n] :: after ∧ before.length = n ∧
          s.drains.set n (f s.drains[n] s.counters).1 =
            before ++ (f s.drains[n] s.counters).1 :: after := List.exists_of_set within
    exact ⟨before, s.drains[n], after, now, congrArg (Racing.mk _) then_⟩
  next => exact .inl rfl

/-- What a step adds is held afterwards, or a drain has it. -/
theorem balance_step (limit : Option Nat) (s : Racing) (a : Action) (x : Cell) :
    (s.step limit a).counters.held x + amount x (s.step limit a).taken =
      s.counters.held x + amount x s.taken + amount x (s.made limit a) := by
  have driven (n : Nat) (f : Drain → Counters → Drain × Counters)
      (keeps : ∀ d c, (f d c).2.held x + amount x (f d c).1.taken = c.held x + amount x d.taken) :
      (s.drive n f).counters.held x + amount x (s.drive n f).taken =
        s.counters.held x + amount x s.taken := by
    rcases s.drive_cases n f with same | ⟨before, d, after, now, then_⟩
    · rw [same]
    · have kept := keeps d s.counters
      rw [then_, taken, taken, now]
      simp only [List.flatMap_append, List.flatMap_cons, amount_append]
      grind
  cases a with
  | add cell delta =>
    have added := Counters.held_add limit s.counters (cell, delta) x
    simp only [step, made, taken]
    split
    next accepted =>
      simp only [accepted, ↓reduceIte, amount_nil, Int64.add_zero] at added
      rw [added]
      ac_rfl
    next refused =>
      simp only [refused, Bool.false_eq_true, ↓reduceIte, Int64.add_left_inj] at added
      rw [added, amount_nil, Int64.add_zero]
  | begin => simp [step, taken, made, Drain.start]
  | list n cell =>
    rw [step, driven n _ fun d c => Drain.held_list cell d c x]
    simp [made]
  | goOn n =>
    rw [step, driven n _ fun d c => by rw [(Drain.held_goOn d c x).1, (Drain.held_goOn d c x).2]]
    simp [made]

theorem balance_run (limit : Option Nat) (s : Racing) (actions : List Action) (x : Cell) :
    (s.run limit actions).counters.held x + amount x (s.run limit actions).taken =
      s.counters.held x + amount x s.taken + amount x (additions limit s actions) := by
  induction actions generalizing s with
  | nil => simp [run, additions]
  | cons a actions ih =>
    have first := balance_step limit s a x
    have rest := ih (s.step limit a)
    rw [additions, amount_append]
    change ((s.step limit a).run limit actions).counters.held x +
      amount x ((s.step limit a).run limit actions).taken = _
    grind

theorem countP_between (before : List Drain) (d : Drain) (after : List Drain) :
    (before ++ d :: after).countP (·.owes) = d.owes.toNat + (before ++ after).countP (·.owes) := by
  cases owes : d.owes <;> simp [owes]
  omega

/-- The number of cells is too high by the cells that were removed and not yet counted down. -/
theorem counted_step {limit : Option Nat} {s : Racing}
    (counted : s.counters.count = s.counters.cells.size + s.owed) (a : Action) :
    (s.step limit a).counters.count = (s.step limit a).counters.cells.size +
      (s.step limit a).owed := by
  have driven (n : Nat) (f : Drain → Counters → Drain × Counters)
      (keeps : ∀ d c others, c.count = c.cells.size + d.owes.toNat + others →
        (f d c).2.count = (f d c).2.cells.size + (f d c).1.owes.toNat + others) :
      (s.drive n f).counters.count = (s.drive n f).counters.cells.size + (s.drive n f).owed := by
    rcases s.drive_cases n f with same | ⟨before, d, after, now, then_⟩
    · rw [same]
      exact counted
    · rw [owed, now, countP_between] at counted
      rw [then_, owed, countP_between, ← Nat.add_assoc]
      exact keeps d s.counters _ (by rw [counted, Nat.add_assoc])
  cases a with
  | add cell delta =>
    have same : (s.step limit (.add cell delta)).owed = s.owed := rfl
    rw [same, step]
    unfold Counters.add
    split
    next found =>
      rw [SortedMap.size_insert, if_neg (by simp [found])]
      exact counted
    next absent =>
      split
      next =>
        simp only [SortedMap.size_insert, absent, ↓reduceIte]
        omega
      next => exact counted
  | begin =>
    have same : (s.step limit .begin).owed = s.owed := by
      simp [owed, step, Drain.start, Drain.owes]
    rw [same]
    exact counted
  | list n cell => exact driven n _ fun _ _ _ => Drain.count_list
  | goOn n => exact driven n _ fun _ _ _ => Drain.count_goOn

theorem counted_run {limit : Option Nat} {s : Racing}
    (counted : s.counters.count = s.counters.cells.size + s.owed) (actions : List Action) :
    (s.run limit actions).counters.count = (s.run limit actions).counters.cells.size +
      (s.run limit actions).owed := by
  induction actions generalizing s with
  | nil => exact counted
  | cons a actions ih => exact ih (counted_step counted a)

theorem present_step {limit : Option Nat} {s : Racing} {a : Action} {x : Cell} {v : Int64}
    (found : s.counters.cells.get? x = some v) (something : v ≠ 0) :
    (s.step limit a).counters.cells.get? x ≠ none := by
  have present : s.counters.cells.get? x ≠ none := by simp [found]
  have driven (n : Nat) (f : Drain → Counters → Drain × Counters)
      (keeps : ∀ d, (f d s.counters).2.cells.get? x ≠ none) :
      (s.drive n f).counters.cells.get? x ≠ none := by
    rcases s.drive_cases n f with same | ⟨_, d, _, _, then_⟩
    · rwa [same]
    · rw [then_]
      exact keeps d
  cases a with
  | add cell delta =>
    by_cases same : x = cell
    · subst same
      simp [step, Counters.add, found, SortedMap.get?_insert]
    · rw [step, Counters.get?_add_of_ne limit s.counters delta same]
      exact present
  | begin => exact present
  | list n cell => exact driven n _ fun _ => Drain.present_list present
  | goOn n => exact driven n _ fun _ => Drain.present_goOn found something

theorem additions_unlimited (s : Racing) (actions : List Action) :
    additions none s actions = actions.flatMap Action.addition := by
  have accepted (c : Counters) (cell : Cell) (delta : Int64) :
      (c.add none cell delta).1 = true := by
    unfold Counters.add
    split <;> rfl
  induction actions generalizing s with
  | nil => rfl
  | cons a actions ih =>
    rw [additions, ih, List.flatMap_cons]
    cases a <;> simp [made, accepted, Action.addition]

/-! A drain that nothing interrupts. -/

theorem run_listing (limit : Option Nat) {l : List Cell} {c : Counters} (listed : List Cell)
    (taken : List (Cell × Int64)) (present : ∀ cell ∈ l, c.cells.get? cell ≠ none) :
    run limit ⟨c, [⟨.listing listed, taken⟩]⟩ (l.map (.list 0)) =
      ⟨(Counters.takeAll l c).2,
        [⟨.listing (listed ++ l), taken ++ (Counters.takeAll l c).1⟩]⟩ := by
  induction l generalizing c listed taken with
  | nil => simp [run, Counters.takeAll]
  | cons cell l ih =>
    obtain ⟨here, later⟩ := List.forall_mem_cons.1 present
    obtain ⟨value, found⟩ := Option.ne_none_iff_exists'.1 here
    have taken_eq : (c.take cell).1 = value := by
      rw [Counters.take_fst, Counters.held, SortedMap.getD, found]
      rfl
    have first : step limit ⟨c, [⟨.listing listed, taken⟩]⟩ (.list 0 cell) =
        ⟨(c.take cell).2, [⟨.listing (listed ++ [cell]),
          taken ++ if value = 0 then [] else [(cell, value)]⟩]⟩ := by
      simp [step, drive, Drain.list, found]
    have later' (cell' : Cell) (member : cell' ∈ l) :
        (c.take cell).2.cells.get? cell' ≠ none := by
      rw [Counters.take_snd]
      split
      · simpa using later cell' member
      · exact later cell' member
    have rest := ih (listed ++ [cell]) (taken ++ if value = 0 then [] else [(cell, value)]) later'
    rw [List.map_cons, run, List.foldl_cons, first]
    refine rest.trans ?_
    simp only [Counters.takeAll, taken_eq, List.append_assoc, List.singleton_append]
    split <;> rfl

theorem run_sweeping (limit : Option Nat) (l : List Cell) (c : Counters)
    (taken : List (Cell × Int64)) :
    ∃ steps, run limit ⟨c, [⟨.sweeping l, taken⟩]⟩ (List.replicate steps (.goOn 0)) =
      ⟨l.foldl Counters.sweep c, [⟨.sweeping [], taken⟩]⟩ := by
  induction l generalizing c with
  | nil => exact ⟨0, rfl⟩
  | cons cell l ih =>
    obtain ⟨steps, rest⟩ := ih (c.sweep cell)
    rw [List.foldl_cons, ← rest, Counters.sweep_eq]
    have looked : step limit ⟨c, [⟨.sweeping (cell :: l), taken⟩]⟩ (.goOn 0) =
        ⟨(c.remove cell).2,
          [⟨if (c.remove cell).1 then .counting l else .sweeping l, taken⟩]⟩ := rfl
    rcases c.remove_cases cell with ⟨-, same⟩ | same
    · refine ⟨steps + 2, ?_⟩
      rw [List.replicate_succ, run, List.foldl_cons, looked, same]
      rfl
    · refine ⟨steps + 1, ?_⟩
      rw [List.replicate_succ, run, List.foldl_cons, looked, same]
      rfl

/-- A drain that nothing interrupts is one of the orders. -/
theorem drain_alone (limit : Option Nat) (c : Counters) :
    ∃ steps, run limit ⟨c, []⟩
        (.begin :: (c.cells.keys.map (.list 0) ++ .goOn 0 :: List.replicate steps (.goOn 0))) =
      ⟨c.drain.2, [⟨.sweeping [], c.drain.1⟩]⟩ := by
  let cells := c.cells.keys
  obtain ⟨steps, swept⟩ := run_sweeping limit cells (Counters.takeAll cells c).2 c.drain.1
  have present (cell : Cell) (member : cell ∈ cells) : c.cells.get? cell ≠ none :=
    SortedMap.mem_keys_iff.1 member
  have listed := run_listing limit [] [] present
  refine ⟨steps, ?_⟩
  let sweep := List.replicate steps (Action.goOn 0)
  calc run limit ⟨c, []⟩ (.begin :: (cells.map (Action.list 0) ++ .goOn 0 :: sweep))
    _ = run limit (run limit ⟨c, [⟨.listing [], []⟩]⟩ (cells.map (Action.list 0)))
          (.goOn 0 :: sweep) := List.foldl_append
    _ = run limit ⟨(Counters.takeAll cells c).2, [⟨.sweeping cells, c.drain.1⟩]⟩ sweep := by
      rw [listed]
      rfl
    _ = ⟨c.drain.2, [⟨.sweeping [], c.drain.1⟩]⟩ := swept

/-- In every order of their steps, additions and drains come out even: what was added is held or was
taken once, and the next drain takes what is held; a cell that holds something is not removed; and
when no drain is under way the cells are counted right. The steps of a drain that nothing interrupts
are those of `Counters.drain`. -/
theorem taken_or_held (limit : Option Nat) (actions : List Action) :
    let t := idle.run limit actions
    let made := additions limit idle actions
    (∀ x, t.counters.held x + amount x t.taken = amount x made) ∧
      (∀ x, amount x t.taken + amount x t.counters.drain.1 = amount x made) ∧
      (∀ a x v, t.counters.cells.get? x = some v → v ≠ 0 →
        (t.step limit a).counters.cells.get? x ≠ none) ∧
      ((∀ d ∈ t.drains, d.Ended) → t.counters.count = t.counters.cells.size) ∧
      (limit = none → made = actions.flatMap Action.addition) ∧
      ∀ c : Counters, ∃ steps, run limit ⟨c, []⟩
          (.begin :: (c.cells.keys.map (.list 0) ++ .goOn 0 :: List.replicate steps (.goOn 0))) =
        ⟨c.drain.2, [⟨.sweeping [], c.drain.1⟩]⟩ := by
  intro t made
  have balanced (x : Cell) : t.counters.held x + amount x t.taken = amount x made := by
    have run := balance_run limit idle actions x
    have start : idle.counters.held x + amount x idle.taken = 0 := rfl
    rwa [start, Int64.zero_add] at run
  have counted : t.counters.count = t.counters.cells.size + t.owed := counted_run rfl actions
  refine ⟨balanced, fun x => ?_, fun a x v => present_step, fun ended => ?_, ?_, drain_alone limit⟩
  · rw [Counters.amount_drain, Int64.add_comm]
    exact balanced x
  · have none : t.owed = 0 := List.countP_eq_zero.2 fun d member => by
      simp [Drain.owes, show d.phase = _ from ended d member]
    rw [counted, none, Nat.add_zero]
  · rintro rfl
    exact additions_unlimited idle actions

/-- Two drains come to the same cell. The first one removes it after the second has taken what came
meanwhile, and an addition makes it anew before the second one looks again. -/
def twoDrains : List Action :=
  let cell : Cell := ⟨⟨"t"⟩, [1], [0], [1]⟩
  [.add cell 5, .begin, .list 0 cell, .add cell 2, .begin, .list 1 cell, .goOn 0, .goOn 0,
    .goOn 0, .add cell (-1), .goOn 1, .goOn 1]

theorem taken_or_held_twoDrains :
    let t := idle.run none twoDrains
    (t.taken.map (·.2) = [5, 2] ∧ t.counters.cells.values = [-1] ∧ ∀ d ∈ t.drains, d.Ended) ∧
      t.counters.count = t.counters.cells.size :=
  have ended : ∀ d ∈ (idle.run none twoDrains).drains, d.Ended := by decide
  ⟨⟨by decide, by decide, ended⟩, (taken_or_held none twoDrains).2.2.2.1 ended⟩

end Racing

end CallTelemetry.Pending
