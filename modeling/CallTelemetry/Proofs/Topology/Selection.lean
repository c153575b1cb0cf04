import CallTelemetry.Proofs.Failing
import CallTelemetry.Proofs.Topology.Links
import CallTelemetry.Storage.Store
import CallTelemetry.Topology.Selection

/-! What a search reads and gathers. An application is at a level if some chain of links read
outward or inward leads to it in so many steps; a search reads those at the levels below its depth,
each once, and gathers what they answer. -/
namespace CallTelemetry.Topology

inductive Direction where
  | outward
  | inward
  deriving DecidableEq

namespace Direction

def pick (out into : α) : Direction → α
  | outward => out
  | inward => into

theorem pick_self (f : Direction → α) : pick (f .outward) (f .inward) = f := by
  funext dir
  cases dir <;> rfl

/-- The end of a link that is read in this direction. -/
def far : Direction → Edge → Application := pick Edge.target Edge.source

/-- Whether an application has links to be read in this direction. -/
def leads : Direction → Application → Bool := pick Search.hasOutbound Search.hasInbound

end Direction

def Duplex.side (d : Duplex) : Direction → Links := Direction.pick d.outbound d.inbound

namespace Frontier

theorem mem_fresh {f : Frontier} {a : Application} : a ∈ f.fresh ↔ a ∈ f.found ∧ a ∉ f.seen := by
  have general (found fresh : List Application) :
      a ∈ found.foldl (fun fresh a =>
          if fresh.contains a || f.seen.contains a then fresh else fresh ++ [a]) fresh ↔
        a ∈ fresh ∨ a ∈ found ∧ a ∉ f.seen := by
    induction found generalizing fresh with
    | nil => simp
    | cons b found ih =>
      rw [List.foldl_cons, ih]
      by_cases same : a = b
      · subst same
        by_cases old : a ∈ fresh <;> by_cases seen : a ∈ f.seen <;> simp [old, seen]
      · split <;> simp [same]
  exact (general f.found []).trans (by simp)

theorem fresh_nodup (f : Frontier) : f.fresh.Nodup := by
  have general (found fresh : List Application) (once : fresh.Nodup) :
      (found.foldl (fun fresh a =>
        if fresh.contains a || f.seen.contains a then fresh else fresh ++ [a]) fresh).Nodup := by
    induction found generalizing fresh with
    | nil => exact once
    | cons b found ih =>
      rw [List.foldl_cons]
      refine ih _ ?_
      split
      · exact once
      · next new =>
        have apart : b ∉ fresh := by
          intro member
          simp [member] at new
        exact List.nodup_append.2 ⟨once, by simp, by
          intro x old y member same
          obtain rfl := List.mem_singleton.1 member
          exact apart (same ▸ old)⟩
  exact general f.found [] List.nodup_nil

end Frontier

namespace Search

/-- What reading an application answers, or why it fails. -/
abbrev Answers := Direction → Application → Except StoreError Links

def depth (s : Search) : Direction → Nat := Direction.pick s.outDepth s.inDepth

def keep (s : Search) : Direction → Links → Links := Direction.pick s.keepOutbound s.keepInbound

section

variable (s : Search) (answers : Answers) (sources : List Application)

/-- The applications at each level of the search in a direction. The links read for one level lead
to the next; what is found in the other direction belongs to it if the search is bidirectional. -/
inductive Found : Direction → Nat → Application → Prop
  | source {dir : Direction} {a : Application} (member : a ∈ sources) : Found dir 0 a
  | link {dir dir' : Direction} {d : Nat} {a : Application} {l : Links} {k : Link}
      (found : Found dir d a) (below : d < s.depth dir) (answered : answers dir a = .ok l)
      (member : k ∈ (s.keep dir l).links) (towards : dir' = dir ∨ s.bidirectional)
      (leads : dir'.leads (dir.far k.edge)) : Found dir' (d + 1) (dir.far k.edge)

/-- The applications that a search is to read in a direction. -/
def Within (dir : Direction) (a : Application) : Prop :=
  ∃ d < s.depth dir, s.Found answers sources dir d a

/-- The links that an application counts for; a failed answer has none. -/
def processed (dir : Direction) (a : Application) : Links :=
  match answers dir a with
  | .ok l => s.keep dir l
  | .error _ => .empty

end

section

variable {s : Search} {answers : Answers} {sources : List Application}

/-- A level holds what the links read for the level before lead to. -/
theorem found_succ {dir : Direction} {d : Nat} {b : Application} :
    s.Found answers sources dir (d + 1) b ↔ ∃ from_ a k, s.Found answers sources from_ d a ∧
      d < s.depth from_ ∧ k ∈ (s.processed answers from_ a).links ∧
      (dir = from_ ∨ s.bidirectional) ∧ dir.leads b ∧ from_.far k.edge = b := by
  constructor
  · rintro (_ | @⟨dir, _, _, a, l, k, found, below, answered, member, towards, leads⟩)
    refine ⟨dir, a, k, found, below, ?_, towards, leads, rfl⟩
    rwa [processed, answered]
  · rintro ⟨dir', a, k, found, below, member, towards, leads, rfl⟩
    unfold processed at member
    split at member
    next l answered => exact .link found below answered member towards leads
    next => simp [Links.links, SortedMap.empty] at member

end

/-- What the links told in each direction lead to in one of them. -/
def following (s : Search) (told : Direction → List (List Link)) (dir : Direction) :
    List Application :=
  [Direction.outward, Direction.inward].flatMap fun dir' =>
    if dir = dir' ∨ s.bidirectional then
      ((told dir').flatten.map fun k => dir'.far k.edge).filter dir.leads
    else []

/-- The applications to be read for a level, each once. -/
def reading (s : Search) (d : Nat) (frontier : Direction → Frontier) (dir : Direction) :
    List Application :=
  if d < s.depth dir then (frontier dir).fresh else []

/-- The search with its two directions alike. What is read for an application is told as a list of
links, which may be in any order. -/
def walk [Monad m] (s : Search)
    (read : (Direction → List Application) → m (Direction → List (List Link))) :
    Nat → Nat → (Direction → Frontier) → (Direction → Links) → m (Direction → Links)
  | 0, _, _, gathered => return gathered
  | levels + 1, d, frontier, gathered => do
    let fresh := s.reading d frontier
    if (fresh .outward).isEmpty && (fresh .inward).isEmpty then return gathered
    let told ← read fresh
    s.walk read levels (d + 1)
      (fun dir => (frontier dir).next (fresh dir) (s.following told dir))
      (fun dir => (told dir).flatten.foldl Links.join (gathered dir))

/-- The links that count of one level of answers, as they are listed. -/
def listing (s : Search) (answers : List Links × List Links) (dir : Direction) :
    List (List Link) :=
  (dir.pick answers.1 answers.2).map fun l => (s.keep dir l).links

theorem following_listing (s : Search) (answers : List Links × List Links) :
    s.following (s.listing answers) = Direction.pick
      (s.nextOut (answers.1.map s.keepOutbound) (answers.2.map s.keepInbound))
      (s.nextIn (answers.1.map s.keepOutbound) (answers.2.map s.keepInbound)) := by
  funext dir
  cases dir <;> simp [following, listing, nextOut, nextIn, Direction.pick, Direction.far,
    Direction.leads, keep, callees, callers, List.flatMap_def, List.map_flatten, Function.comp_def]

theorem foldl_addOutbound (d : Duplex) (ls : List Links) :
    ls.foldl Duplex.addOutbound d = { d with outbound := ls.foldl Links.merge d.outbound } := by
  induction ls generalizing d with
  | nil => rfl
  | cons l ls ih => exact ih _

theorem foldl_addInbound (d : Duplex) (ls : List Links) :
    ls.foldl Duplex.addInbound d = { d with inbound := ls.foldl Links.merge d.inbound } := by
  induction ls generalizing d with
  | nil => rfl
  | cons l ls ih => exact ih _

theorem run_eq_walk [Monad m] [LawfulMonad m] (s : Search)
    (readLevel : List Application → List Application → m (List Links × List Links))
    (levels d : Nat) (frontier : Direction → Frontier) (gathered : Direction → Links) :
    s.run readLevel levels (s.outDepth - d) (s.inDepth - d) (frontier .outward)
        (frontier .inward) ⟨gathered .outward, gathered .inward⟩ =
      (fun gathered => ⟨gathered .outward, gathered .inward⟩) <$>
        s.walk (fun fresh => s.listing <$> readLevel (fresh .outward) (fresh .inward)) levels d
          frontier gathered := by
  induction levels generalizing d frontier gathered with
  | zero => simp [run, walk]
  | succ levels ih =>
    have left (depth : Nat) (f : Frontier) : (if 0 < depth - d then f.fresh else []) =
        if d < depth then f.fresh else [] := by
      by_cases below : d < depth
      · rw [if_pos below, if_pos (Nat.sub_pos_of_lt below)]
      · rw [if_neg below, if_neg (by omega)]
    have outs : (if 0 < s.outDepth - d then (frontier .outward).fresh else []) =
        s.reading d frontier .outward := left s.outDepth _
    have ins : (if 0 < s.inDepth - d then (frontier .inward).fresh else []) =
        s.reading d frontier .inward := left s.inDepth _
    rw [run, walk, outs, ins]
    by_cases none : ((s.reading d frontier .outward).isEmpty &&
      (s.reading d frontier .inward).isEmpty) = true
    · rw [if_pos none, if_pos none, map_pure]
    · rw [if_neg none, if_neg none, map_bind, bind_map_left]
      refine bind_congr fun ⟨outLinks, inLinks⟩ => ?_
      simp only []
      rw [← ih, following_listing, foldl_addOutbound, foldl_addInbound, Links.foldl_merge,
        Links.foldl_merge]
      simp [listing, keep, Direction.pick, List.flatMap_def, Nat.sub_sub, Function.comp_def]

/-- Reading while it is noted which applications are asked for, also if it fails. -/
abbrev Asking := ExceptT StoreError (StateM (Direction → List Application))

/-- What comes of a reading after some applications were asked for. -/
def outcome (reading : Asking α) (asked : Direction → List Application) :
    Except StoreError α × (Direction → List Application) :=
  (reading.run.run asked).run

/-- Asks for one level at once. -/
def ask (answers : Answers) (outs ins : List Application) : Asking (List Links × List Links) :=
  ExceptT.mk do
    modify fun asked dir => asked dir ++ dir.pick outs ins
    return do return (← outs.mapM (answers .outward), ← ins.mapM (answers .inward))

/-- Asks for one level and lists the links of every answer. -/
def askListed (answers : Answers) (listed : Direction → Application → Links → List Link)
    (fresh : Direction → List Application) : Asking (Direction → List (List Link)) :=
  ExceptT.mk do
    modify fun asked dir => asked dir ++ fresh dir
    return do
      let outs ← (fresh .outward).mapM fun a => listed .outward a <$> answers .outward a
      let ins ← (fresh .inward).mapM fun a => listed .inward a <$> answers .inward a
      return Direction.pick outs ins

theorem listing_ask (s : Search) (answers : Answers) (fresh : Direction → List Application) :
    s.listing <$> ask answers (fresh .outward) (fresh .inward) =
      askListed answers (fun dir _ l => (s.keep dir l).links) fresh := by
  unfold ask askListed
  simp only [Direction.pick_self, mapM_map_left]
  refine ExceptT.ext ?_
  rw [ExceptT.run_map, ExceptT.run_mk, ExceptT.run_mk, map_bind]
  refine congrArg (bind _) (funext fun _ => ?_)
  rw [map_pure]
  cases (fresh .outward).mapM (answers .outward) with
  | error e => rfl
  | ok outs =>
    cases (fresh .inward).mapM (answers .inward) with
    | error e => rfl
    | ok ins =>
      have listed : s.listing (outs, ins) = Direction.pick
          (outs.map fun l => (s.keep .outward l).links)
          (ins.map fun l => (s.keep .inward l).links) := by
        funext dir
        cases dir <;> rfl
      exact congrArg (fun told => pure (Except.ok told)) listed

theorem outcome_bind_ok {reading : Asking α} {next : α → Asking β}
    {asked asked' : Direction → List Application} {a : α}
    (read : outcome reading asked = (.ok a, asked')) :
    outcome (reading >>= next) asked = outcome (next a) asked' := by
  simp only [outcome, ExceptT.run_bind, StateT.run_bind] at read ⊢
  simp [read]

theorem outcome_bind_error {reading : Asking α} {next : α → Asking β}
    {asked asked' : Direction → List Application} {e : StoreError}
    (read : outcome reading asked = (.error e, asked')) :
    outcome (reading >>= next) asked = (.error e, asked') := by
  simp only [outcome, ExceptT.run_bind, StateT.run_bind] at read ⊢
  simp [read]

/-- The links that an application counts for, as they are listed. -/
def told (answers : Answers) (listed : Direction → Application → Links → List Link)
    (dir : Direction) (a : Application) : List Link :=
  match answers dir a with
  | .ok l => listed dir a l
  | .error _ => []

/-- Either everything that is asked for is answered, or the reading fails as one answer does. -/
theorem outcome_askListed (answers : Answers)
    (listed : Direction → Application → Links → List Link)
    (fresh asked : Direction → List Application) :
    ((∀ dir, ∀ a ∈ fresh dir, ∃ l, answers dir a = .ok l) ∧
      outcome (askListed answers listed fresh) asked =
        (.ok fun dir => (fresh dir).map (told answers listed dir),
          fun dir => asked dir ++ fresh dir)) ∨
    ∃ dir, ∃ a ∈ fresh dir, ∃ e, answers dir a = .error e ∧
      outcome (askListed answers listed fresh) asked =
        (.error e, fun dir => asked dir ++ fresh dir) := by
  have reads (dir : Direction) :
      (∃ a ∈ fresh dir, ∃ e, answers dir a = .error e ∧
        ((fresh dir).mapM fun a => listed dir a <$> answers dir a) = .error e) ∨
      (∀ a ∈ fresh dir, ∃ l, answers dir a = .ok l) ∧
        ((fresh dir).mapM fun a => listed dir a <$> answers dir a) =
          .ok ((fresh dir).map (told answers listed dir)) := by
    rcases mapM_cases (answers dir) (listed dir) (fresh dir) with failed | answered
    · exact .inl failed
    · refine .inr ⟨answered, mapM_ok fun a member => ?_⟩
      obtain ⟨l, answer⟩ := answered a member
      rw [told, answer]
      rfl
  rcases reads .outward with ⟨a, member, e, failed, outs⟩ | ⟨outAnswered, outs⟩
  · exact .inr ⟨.outward, a, member, e, failed, by simp [outcome, askListed, outs]; rfl⟩
  · rcases reads .inward with ⟨a, member, e, failed, ins⟩ | ⟨inAnswered, ins⟩
    · exact .inr ⟨.inward, a, member, e, failed, by simp [outcome, askListed, outs, ins]; rfl⟩
    · refine .inl ⟨fun dir => ?_, ?_⟩
      · cases dir
        · exact outAnswered
        · exact inAnswered
      · have each : Direction.pick ((fresh .outward).map (told answers listed .outward))
            ((fresh .inward).map (told answers listed .inward)) =
            fun dir => (fresh dir).map (told answers listed dir) :=
          Direction.pick_self fun dir => (fresh dir).map (told answers listed dir)
        simp only [outcome, askListed, outs, ins]
        exact congrArg (fun t => (Except.ok t, _)) each

theorem mem_following {s : Search} {told : Direction → List (List Link)} {dir : Direction}
    {b : Application} : b ∈ s.following told dir ↔ ∃ dir', (dir = dir' ∨ s.bidirectional) ∧
      dir.leads b ∧ ∃ k ∈ (told dir').flatten, dir'.far k.edge = b := by
  simp only [following, List.mem_flatMap]
  constructor
  · rintro ⟨dir', -, member⟩
    split at member
    next towards =>
      obtain ⟨member, leads⟩ := List.mem_filter.1 member
      obtain ⟨k, member, far⟩ := List.mem_map.1 member
      exact ⟨dir', towards, leads, k, member, far⟩
    next => simp at member
  · rintro ⟨dir', towards, leads, k, member, far⟩
    refine ⟨dir', by cases dir' <;> simp, ?_⟩
    rw [if_pos towards]
    exact List.mem_filter.2 ⟨List.mem_map.2 ⟨k, member, far⟩, leads⟩

section

variable {s : Search} {answers : Answers} {sources : List Application}
  {listed : Direction → Application → Links → List Link}

/-- The links of every answer that count are listed, each once, in whatever order. -/
def Fair (s : Search) (answers : Answers)
    (listed : Direction → Application → Links → List Link) : Prop :=
  ∀ dir a l, answers dir a = .ok l → (listed dir a l).Perm (s.keep dir l).links

theorem told_perm (fair : s.Fair answers listed) (dir : Direction) (a : Application) :
    (told answers listed dir a).Perm (s.processed answers dir a).links := by
  cases answer : answers dir a with
  | error e =>
    rw [told, processed, answer]
    exact .nil
  | ok l =>
    rw [told, processed, answer]
    exact fair dir a l answer

variable (s answers sources listed) in
/-- Where a search stands when it has read the levels below `d`: what it has found since is the
level `d`, but for applications that are on a level before. -/
structure Stage (d : Nat) (frontier : Direction → Frontier)
    (asked : Direction → List Application) (gathered : Direction → Links) : Prop where
  seen (dir : Direction) (a : Application) : a ∈ (frontier dir).seen ↔
    ∃ e < d, e < s.depth dir ∧ s.Found answers sources dir e a
  sound (dir : Direction) : ∀ a ∈ (frontier dir).found, s.Found answers sources dir d a
  complete (dir : Direction) (a : Application) : s.Found answers sources dir d a →
    a ∈ (frontier dir).found ∨ ∃ e < d, s.Found answers sources dir e a
  noted (dir : Direction) (a : Application) : a ∈ asked dir ↔ a ∈ (frontier dir).seen
  once (dir : Direction) : (asked dir).Nodup
  answered (dir : Direction) : ∀ a ∈ asked dir, ∃ l, answers dir a = .ok l
  gathers (dir : Direction) : gathered dir =
    ((asked dir).flatMap (told answers listed dir)).foldl Links.join .empty

namespace Stage

theorem start : s.Stage answers sources listed 0 (fun _ => ⟨[], sources⟩) (fun _ => [])
    (fun _ => .empty) where
  seen dir a := by simp
  sound dir a member := .source member
  complete dir a found := by
    cases found with
    | source member => exact .inl member
  noted dir a := Iff.rfl
  once dir := List.nodup_nil
  answered dir a member := by simp at member
  gathers dir := rfl

variable {d : Nat} {frontier : Direction → Frontier} {asked : Direction → List Application}
  {gathered : Direction → Links}

/-- A level is read where it is not one too many, but for what was read before. -/
theorem mem_reading (stage : s.Stage answers sources listed d frontier asked gathered)
    {dir : Direction} {a : Application} : a ∈ s.reading d frontier dir ↔
      d < s.depth dir ∧ s.Found answers sources dir d a ∧
        ¬∃ e < d, s.Found answers sources dir e a := by
  unfold reading
  by_cases below : d < s.depth dir
  · rw [if_pos below, Frontier.mem_fresh, stage.seen]
    constructor
    · rintro ⟨found, new⟩
      refine ⟨below, stage.sound dir a found, ?_⟩
      rintro ⟨e, before, old⟩
      exact new ⟨e, before, Nat.lt_trans before below, old⟩
    · rintro ⟨-, found, new⟩
      refine ⟨(stage.complete dir a found).resolve_right new, ?_⟩
      rintro ⟨e, before, -, old⟩
      exact new ⟨e, before, old⟩
  · simp [below]

theorem within_of_mem (stage : s.Stage answers sources listed d frontier asked gathered)
    {dir : Direction} {a : Application} (member : a ∈ asked dir ++ s.reading d frontier dir) :
    s.Within answers sources dir a := by
  rcases List.mem_append.1 member with member | member
  · obtain ⟨e, -, below, found⟩ := (stage.seen dir a).1 ((stage.noted dir a).1 member)
    exact ⟨e, below, found⟩
  · obtain ⟨below, found, -⟩ := stage.mem_reading.1 member
    exact ⟨d, below, found⟩

theorem once_append (stage : s.Stage answers sources listed d frontier asked gathered)
    (dir : Direction) : (asked dir ++ s.reading d frontier dir).Nodup := by
  refine List.nodup_append.2 ⟨stage.once dir, ?_, ?_⟩
  · unfold reading
    split
    · exact Frontier.fresh_nodup _
    · exact List.nodup_nil
  · rintro a old _ member rfl
    obtain ⟨e, before, -, found⟩ := (stage.seen dir a).1 ((stage.noted dir a).1 old)
    exact (stage.mem_reading.1 member).2.2 ⟨e, before, found⟩

/-- Reading one level leads to the next. A link of an application that was read before leads to a
level before the next one, so nothing is missed by not reading it again. -/
theorem step (fair : s.Fair answers listed)
    (stage : s.Stage answers sources listed d frontier asked gathered)
    (answered : ∀ dir, ∀ a ∈ s.reading d frontier dir, ∃ l, answers dir a = .ok l) :
    s.Stage answers sources listed (d + 1)
      (fun dir => (frontier dir).next (s.reading d frontier dir) (s.following
        (fun dir => (s.reading d frontier dir).map (told answers listed dir)) dir))
      (fun dir => asked dir ++ s.reading d frontier dir)
      (fun dir => ((s.reading d frontier dir).map (told answers listed dir)).flatten.foldl
        Links.join (gathered dir)) where
  seen dir a := by
    simp only [Frontier.next, List.mem_append, stage.seen, stage.mem_reading]
    constructor
    · rintro (⟨below, found, -⟩ | ⟨e, before, below, found⟩)
      · exact ⟨d, Nat.lt_succ_self d, below, found⟩
      · exact ⟨e, Nat.lt_succ_of_lt before, below, found⟩
    · rintro ⟨e, before, below, found⟩
      by_cases old : ∃ e < d, s.Found answers sources dir e a
      · obtain ⟨e', before', found'⟩ := old
        by_cases here : e = d
        · exact .inr ⟨e', before', by omega, found'⟩
        · exact .inr ⟨e, by omega, below, found⟩
      · by_cases here : e = d
        · subst here
          exact .inl ⟨below, found, old⟩
        · exact absurd ⟨e, by omega, found⟩ old
  sound dir b member := by
    simp only [Frontier.next] at member
    obtain ⟨dir', towards, leads, k, member, far⟩ := mem_following.1 member
    obtain ⟨_, whole, member⟩ := List.mem_flatten.1 member
    obtain ⟨a, read, rfl⟩ := List.mem_map.1 whole
    obtain ⟨below, found, -⟩ := stage.mem_reading.1 read
    exact found_succ.2 ⟨dir', a, k, found, below, (told_perm fair dir' a).mem_iff.1 member,
      towards, leads, far⟩
  complete dir b found := by
    simp only [Frontier.next]
    obtain ⟨dir', a, k, found, below, member, towards, leads, far⟩ := found_succ.1 found
    by_cases old : ∃ e < d, s.Found answers sources dir' e a
    · obtain ⟨e, before, found⟩ := old
      exact .inr ⟨e + 1, Nat.succ_lt_succ before, found_succ.2
        ⟨dir', a, k, found, Nat.lt_trans before below, member, towards, leads, far⟩⟩
    · refine .inl (mem_following.2 ⟨dir', towards, leads, k, ?_, far⟩)
      exact List.mem_flatten.2 ⟨_, List.mem_map.2 ⟨a, stage.mem_reading.2 ⟨below, found, old⟩, rfl⟩,
        (told_perm fair dir' a).mem_iff.2 member⟩
  noted dir a := by
    simp only [Frontier.next, List.mem_append, stage.noted]
    exact Or.comm
  once := stage.once_append
  answered dir a member := by
    rcases List.mem_append.1 member with member | member
    · exact stage.answered dir a member
    · exact answered dir a member
  gathers dir := by
    rw [List.flatMap_append, List.foldl_append, ← stage.gathers, List.flatMap_def]

/-- What no link that is read leads to is not on any level. -/
theorem complete_of_none (stage : s.Stage answers sources listed d frontier asked gathered)
    (none : ∀ dir, s.reading d frontier dir = []) {dir : Direction} {a : Application}
    (within : s.Within answers sources dir a) : a ∈ asked dir := by
  have earlier (e : Nat) : ∀ dir a, d ≤ e → e < s.depth dir → s.Found answers sources dir e a →
      ∃ e < d, s.Found answers sources dir e a := by
    have here (dir : Direction) (a : Application) (below : d < s.depth dir)
        (found : s.Found answers sources dir d a) : ∃ e < d, s.Found answers sources dir e a := by
      by_cases old : ∃ e < d, s.Found answers sources dir e a
      · exact old
      · have member := stage.mem_reading.2 ⟨below, found, old⟩
        simp [none] at member
    induction e with
    | zero =>
      intro dir a reached below found
      obtain rfl : d = 0 := by omega
      exact here dir a below found
    | succ e ih =>
      intro dir a reached below found
      by_cases last : d = e + 1
      · subst last
        exact here dir a below found
      · obtain ⟨dir', b, k, before, lower, member, towards, leads, far⟩ := found_succ.1 found
        obtain ⟨e', less, found'⟩ := ih dir' b (by omega) lower before
        have next : s.Found answers sources dir (e' + 1) a := found_succ.2
          ⟨dir', b, k, found', by omega, member, towards, leads, far⟩
        by_cases top : e' + 1 = d
        · subst top
          exact here dir a (by omega) next
        · exact ⟨e' + 1, by omega, next⟩
  obtain ⟨e, below, found⟩ := within
  refine (stage.noted dir a).2 ((stage.seen dir a).2 ?_)
  by_cases before : e < d
  · exact ⟨e, before, below, found⟩
  · obtain ⟨e', before, found'⟩ := earlier e dir a (by omega) below found
    exact ⟨e', before, by omega, found'⟩

theorem complete_of_depth (stage : s.Stage answers sources listed d frontier asked gathered)
    (enough : ∀ dir, s.depth dir ≤ d) {dir : Direction} {a : Application}
    (within : s.Within answers sources dir a) : a ∈ asked dir := by
  obtain ⟨e, below, found⟩ := within
  exact (stage.noted dir a).2
    ((stage.seen dir a).2 ⟨e, Nat.lt_of_lt_of_le below (enough dir), below, found⟩)

end Stage

variable (s answers sources) in
/-- The result of a search, and the applications that were asked for. -/
structure Exact (result : Except StoreError Duplex)
    (asked : Direction → List Application) : Prop where
  /-- No application is asked for twice in one direction. -/
  once (dir : Direction) : (asked dir).Nodup
  /-- None is asked for that is not on a level below the depth. -/
  within (dir : Direction) : ∀ a ∈ asked dir, s.Within answers sources dir a
  /-- Unless the search fails, all of them are. -/
  complete : ∀ found, result = .ok found → ∀ dir a, s.Within answers sources dir a → a ∈ asked dir
  /-- The result is what they answer, merged in any order. -/
  merged : ∀ found, result = .ok found → ∀ dir (order : List Application), order.Nodup →
    (∀ a, a ∈ order ↔ s.Within answers sources dir a) →
    found.side dir = Links.mergeAll (order.map (s.processed answers dir))
  /-- The search fails if and only if one of them does. -/
  fails : (∃ e, result = .error e) ↔
    ∃ dir a e, s.Within answers sources dir a ∧ answers dir a = .error e

theorem outcome_map (f : α → β) (reading : Asking α) (asked : Direction → List Application) :
    outcome (f <$> reading) asked =
      ((outcome reading asked).1.map f, (outcome reading asked).2) := by
  simp only [outcome, ExceptT.run_map]
  rfl

/-- However the links are listed, what a search gathers is what it is told. -/
theorem told_eq_mergeAll (fair : s.Fair answers listed)
    (formed : ∀ dir a, (s.processed answers dir a).Formed) (dir : Direction)
    {order order' : List Application} (perm : order.Perm order') :
    (order.flatMap (told answers listed dir)).foldl Links.join .empty =
      Links.mergeAll (order'.map (s.processed answers dir)) := by
  have each (l : List Application) : (l.flatMap (told answers listed dir)).Perm
      ((l.map (s.processed answers dir)).flatMap Links.links) := by
    induction l with
    | nil => exact .nil
    | cons a l ih => exact (told_perm fair dir a).append ih
  rw [Links.mergeAll, Links.foldl_merge]
  refine Links.foldl_join_perm .empty ((each order).trans ?_) fun k member => ?_
  · exact (perm.map _).flatMap_right _
  obtain ⟨a, -, member⟩ := List.mem_flatMap.1 member
  exact Links.formed_links (formed dir a) ((told_perm fair dir a).mem_iff.1 member)

theorem Stage.exact {d : Nat} {frontier : Direction → Frontier}
    {asked : Direction → List Application} {gathered : Direction → Links}
    (fair : s.Fair answers listed) (formed : ∀ dir a, (s.processed answers dir a).Formed)
    (stage : s.Stage answers sources listed d frontier asked gathered)
    (complete : ∀ dir a, s.Within answers sources dir a → a ∈ asked dir) :
    s.Exact answers sources (.ok ⟨gathered .outward, gathered .inward⟩) asked where
  once := stage.once
  within dir a member := stage.within_of_mem (List.mem_append_left _ member)
  complete _ _ := complete
  merged found same dir order once whole := by
    obtain rfl := Except.ok.inj same
    have side : Duplex.side ⟨gathered .outward, gathered .inward⟩ dir = gathered dir := by
      cases dir <;> rfl
    rw [side, stage.gathers]
    refine told_eq_mergeAll fair formed dir ((List.perm_ext_iff_of_nodup (stage.once dir) once).2
      fun a => ?_)
    rw [whole a]
    exact ⟨fun member => stage.within_of_mem (List.mem_append_left _ member), complete dir a⟩
  fails := by
    constructor
    · rintro ⟨e, failed⟩
      cases failed
    · rintro ⟨dir, a, e, within, failed⟩
      obtain ⟨l, answer⟩ := stage.answered dir a (complete dir a within)
      rw [answer] at failed
      cases failed

theorem exact_of_failed {asked : Direction → List Application} {e : StoreError}
    (once : ∀ dir, (asked dir).Nodup)
    (within : ∀ dir, ∀ a ∈ asked dir, s.Within answers sources dir a)
    {dir : Direction} {a : Application} (member : a ∈ asked dir)
    (failed : answers dir a = .error e) : s.Exact answers sources (.error e) asked where
  once := once
  within := within
  complete _ same := by cases same
  merged _ same := by cases same
  fails := ⟨fun _ => ⟨dir, a, e, within dir a member, failed⟩, fun _ => ⟨e, rfl⟩⟩

theorem exact_walk (fair : s.Fair answers listed)
    (formed : ∀ dir a, (s.processed answers dir a).Formed) {d : Nat}
    {frontier : Direction → Frontier} {asked : Direction → List Application}
    {gathered : Direction → Links}
    (stage : s.Stage answers sources listed d frontier asked gathered) {levels : Nat}
    (enough : ∀ dir, s.depth dir ≤ d + levels) :
    s.Exact answers sources
      ((outcome (s.walk (askListed answers listed) levels d frontier gathered) asked).1.map
        fun gathered => ⟨gathered .outward, gathered .inward⟩)
      (outcome (s.walk (askListed answers listed) levels d frontier gathered) asked).2 := by
  induction levels generalizing d frontier asked gathered with
  | zero => exact stage.exact fair formed fun dir a => stage.complete_of_depth enough
  | succ levels ih =>
    rw [walk]
    by_cases none : ((s.reading d frontier .outward).isEmpty &&
      (s.reading d frontier .inward).isEmpty) = true
    · rw [if_pos none]
      refine stage.exact fair formed fun dir a => stage.complete_of_none fun dir => ?_
      obtain ⟨outs, ins⟩ := by simpa using none
      cases dir
      · exact outs
      · exact ins
    · rw [if_neg none]
      rcases outcome_askListed answers listed (s.reading d frontier) asked with
        ⟨answered, told⟩ | ⟨dir, a, member, e, failed, whole⟩
      · rw [outcome_bind_ok told]
        exact ih (stage.step fair answered) fun dir => by
          have := enough dir
          omega
      · rw [outcome_bind_error whole]
        exact exact_of_failed stage.once_append (fun dir a => stage.within_of_mem)
          (List.mem_append_right _ member) failed

/-- Two searches that read the same levels give the same, or both fail. -/
theorem Exact.result_eq {result result' : Except StoreError Duplex}
    {asked asked' : Direction → List Application} (exact : s.Exact answers sources result asked)
    (exact' : s.Exact answers sources result' asked') :
    (∃ found, result = .ok found ∧ result' = .ok found) ∨
      ∃ e e', result = .error e ∧ result' = .error e' := by
  cases result with
  | error e =>
    obtain ⟨e', failed⟩ := exact'.fails.2 (exact.fails.1 ⟨e, rfl⟩)
    exact .inr ⟨e, e', rfl, failed⟩
  | ok found =>
    cases result' with
    | error e =>
      obtain ⟨e', failed⟩ := exact.fails.2 (exact'.fails.1 ⟨e, rfl⟩)
      cases failed
    | ok found' =>
      have sides (dir : Direction) : found.side dir = found'.side dir := by
        have whole (a : Application) : a ∈ asked dir ↔ s.Within answers sources dir a :=
          ⟨exact.within dir a, exact.complete found rfl dir a⟩
        rw [exact.merged found rfl dir (asked dir) (exact.once dir) whole,
          exact'.merged found' rfl dir (asked dir) (exact.once dir) whole]
      have same : found = found' := by
        cases found
        cases found'
        rw [Duplex.mk.injEq]
        exact ⟨sides .outward, sides .inward⟩
      exact .inl ⟨found, rfl, by rw [same]⟩

end

/-- A selection that goes through the links of every answer as they are listed. -/
def selectListed (s : Search) (answers : Answers)
    (listed : Direction → Application → Links → List Link) (sources : List Application) :
    Asking Duplex :=
  (fun gathered => ⟨gathered .outward, gathered .inward⟩) <$>
    s.walk (askListed answers listed) (max s.outDepth s.inDepth) 0 (fun _ => ⟨[], sources⟩)
      fun _ => .empty

theorem select_eq_selectListed (s : Search) (answers : Answers) (sources : List Application) :
    s.select (ask answers) sources =
      s.selectListed answers (fun dir _ l => (s.keep dir l).links) sources := by
  have run := s.run_eq_walk (ask answers) (max s.outDepth s.inDepth) 0 (fun _ => ⟨[], sources⟩)
    fun _ => .empty
  simp only [listing_ask] at run
  exact run

/-- A selection reads the applications on the levels below its depths, each once in a direction, and
gathers what they answer; in which order the links of an answer are gone through does not matter. -/
theorem select_reads_levels (s : Search) (answers : Answers) (sources : List Application)
    (listed : Direction → Application → Links → List Link) (fair : s.Fair answers listed)
    (formed : ∀ dir a l, answers dir a = .ok l → (s.keep dir l).Formed) :
    (let (result, asked) := outcome (s.select (ask answers) sources) fun _ => []
     s.Exact answers sources result asked) ∧
    (let (result, asked) := outcome (s.selectListed answers listed sources) fun _ => []
     s.Exact answers sources result asked) := by
  have processed (dir : Direction) (a : Application) : (s.processed answers dir a).Formed := by
    unfold processed
    split
    next l answer => exact formed dir a l answer
    next => exact Links.formed_empty
  have exact (listed : Direction → Application → Links → List Link)
      (fair : s.Fair answers listed) : s.Exact answers sources
        (outcome (s.selectListed answers listed sources) fun _ => []).1
        (outcome (s.selectListed answers listed sources) fun _ => []).2 := by
    rw [selectListed, outcome_map]
    refine exact_walk fair processed Stage.start fun dir => ?_
    rw [Nat.zero_add]
    cases dir
    · exact Nat.le_max_left _ _
    · exact Nat.le_max_right _ _
  rw [select_eq_selectListed]
  exact ⟨exact _ fun _ _ _ _ => .refl _, exact listed fair⟩

/-- Two applications that call each other, one of them a database as well. -/
def mutualCalls : Answers := fun dir a =>
  let shop : Application := ⟨"shop", .springBoot⟩
  let stock : Application := ⟨"stock", .tomcat⟩
  let tally (source target : Application) : Tally :=
    ⟨⟨source, target⟩, "agent-1", "host:80", 60000, 1000, 2⟩
  .ok (Links.addAll .empty (match dir with
    | .outward =>
      if a = shop then [tally shop stock]
      else if a = stock then [tally stock shop, tally stock ⟨"table", .mysql⟩]
      else []
    | .inward =>
      if a = shop then [tally stock shop, tally ⟨"shop", .user⟩ shop]
      else if a = stock then [tally shop stock]
      else []))

/-- With a depth of two, the search comes back to the application it starts from and does not read
it again; the database and the user are not searched. -/
theorem select_reads_levels_mutual :
    let s : Search := ⟨2, 1, true, id, Links.betweenServers⟩
    let shop : Application := ⟨"shop", .springBoot⟩
    let (result, asked) := outcome (s.select (ask mutualCalls) [shop, shop]) fun _ => []
    asked .outward = [shop, ⟨"stock", .tomcat⟩] ∧ asked .inward = [shop] ∧
      s.Exact mutualCalls [shop, shop] result asked := by
  refine ⟨by decide, by decide, ?_⟩
  refine (select_reads_levels ⟨2, 1, true, id, Links.betweenServers⟩ mutualCalls _
    (fun dir _ l => (dir.pick l l.betweenServers).links.reverse) ?_ ?_).1
  · intro dir a l _
    cases dir <;> exact List.reverse_perm _
  · intro dir a l answer
    have formed : l.Formed := Except.ok.inj answer ▸ Links.formed_addAll Links.formed_empty _
    cases dir
    · exact formed
    · exact Links.formed_betweenServers formed

end Search

end CallTelemetry.Topology
