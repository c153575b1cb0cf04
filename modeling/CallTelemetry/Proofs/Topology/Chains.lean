import Mathlib.Logic.Relation
import CallTelemetry.Proofs.Topology.Selection
import CallTelemetry.Topology.Query
import CallTelemetry.Topology.SearchOption

/-! Chains of links. What is read for an application touches it, and only applications that were found
by a link are read on, so that whatever a search gathers is joined to where it started. -/
namespace CallTelemetry.Topology

/-- Whether an edge joins two applications, whichever of them calls. -/
def Joined (edges : List Edge) (a b : Application) : Prop :=
  ∃ e ∈ edges, e.source = a ∧ e.target = b ∨ e.source = b ∧ e.target = a

/-- Whether a chain of edges joins two applications. -/
def Chained (edges : List Edge) : Application → Application → Prop :=
  Relation.ReflTransGen (Joined edges)

namespace Chained

variable {edges : List Edge} {a b : Application}

theorem mono {edges' : List Edge} (more : ∀ e ∈ edges, e ∈ edges') (chained : Chained edges a b) :
    Chained edges' a b :=
  Relation.ReflTransGen.mono (fun _ _ ⟨e, member, ends⟩ => ⟨e, more e member, ends⟩) a b chained

theorem target {e : Edge} (chained : Chained edges a e.source) (member : e ∈ edges) :
    Chained edges a e.target :=
  chained.tail ⟨e, member, .inl ⟨rfl, rfl⟩⟩

theorem source {e : Edge} (chained : Chained edges a e.target) (member : e ∈ edges) :
    Chained edges a e.source :=
  chained.tail ⟨e, member, .inr ⟨rfl, rfl⟩⟩

/-- A chain that leads anywhere begins with an edge of where it starts. -/
theorem start (chained : Chained edges a b) :
    a = b ∨ ∃ e ∈ edges, e.source = a ∨ e.target = a := by
  rcases Relation.ReflTransGen.cases_head chained with same | ⟨_, ⟨e, member, ends⟩, _⟩
  · exact .inl same
  · rcases ends with ⟨source, _⟩ | ⟨_, target⟩
    · exact .inr ⟨e, member, .inl source⟩
    · exact .inr ⟨e, member, .inr target⟩

end Chained

namespace Links

theorem mem_keys_join {l : Links} {k : Link} {e : Edge} :
    e ∈ SortedMap.keys (l.join k) ↔ e ∈ SortedMap.keys l ∨ e = k.edge := by
  rw [SortedMap.mem_keys_iff, SortedMap.mem_keys_iff, join, SortedMap.get?_alter]
  by_cases same : e = k.edge
  · cases SortedMap.get? l k.edge <;> simp [same]
  · simp [same]

theorem mem_keys_foldl_join {l : Links} {ks : List Link} {e : Edge} :
    e ∈ SortedMap.keys (ks.foldl join l) ↔ e ∈ SortedMap.keys l ∨ ∃ k ∈ ks, k.edge = e := by
  induction ks generalizing l with
  | nil => simp
  | cons k ks ih =>
    rw [List.foldl_cons, ih, mem_keys_join]
    grind

theorem mem_keys_iff {l : Links} {e : Edge} : e ∈ SortedMap.keys l ↔ ∃ k ∈ l.links, k.edge = e := by
  simp only [SortedMap.keys, links, List.mem_map]
  constructor
  · rintro ⟨entry, member, rfl⟩
    exact ⟨_, ⟨entry, member, rfl⟩, rfl⟩
  · rintro ⟨_, ⟨entry, member, rfl⟩, rfl⟩
    exact ⟨entry, member, rfl⟩

/-- Merging answers keeps the edges of each of them. -/
theorem mem_keys_foldl_merge {l : Links} {answers : List Links} {e : Edge} :
    e ∈ SortedMap.keys (answers.foldl merge l) ↔
      e ∈ SortedMap.keys l ∨ ∃ answer ∈ answers, e ∈ SortedMap.keys answer := by
  rw [foldl_merge, mem_keys_foldl_join]
  simp only [mem_keys_iff, List.mem_flatMap]
  grind

theorem mem_callees {l : Links} {b : Application} :
    b ∈ Search.callees l ↔ ∃ e ∈ SortedMap.keys l, e.target = b := by
  simp [Search.callees, links, SortedMap.keys]

theorem mem_callers {l : Links} {b : Application} :
    b ∈ Search.callers l ↔ ∃ e ∈ SortedMap.keys l, e.source = b := by
  simp [Search.callers, links, SortedMap.keys]

end Links

/-- The edges that either side tells of. -/
def Duplex.edges (d : Duplex) : List Edge := d.outbound.keys ++ d.inbound.keys

theorem Duplex.mem_edges_addAll {d : Duplex} {outs ins : List Links} {e : Edge} :
    e ∈ (ins.foldl addInbound (outs.foldl addOutbound d)).edges ↔
      e ∈ d.edges ∨ ∃ l ∈ outs ++ ins, e ∈ SortedMap.keys l := by
  rw [Search.foldl_addOutbound, Search.foldl_addInbound]
  simp only [edges, List.mem_append, Links.mem_keys_foldl_merge]
  grind

namespace Search

/-- Whether what is read outward for some applications starts at them, and what is read inward ends at
them. -/
structure Touching (outs ins : List Application) (answers : List Links × List Links) : Prop where
  outward : ∀ l ∈ answers.1, ∃ a ∈ outs, ∀ e ∈ SortedMap.keys l, e.source = a
  inward : ∀ l ∈ answers.2, ∃ a ∈ ins, ∀ e ∈ SortedMap.keys l, e.target = a

/-- Whether a search counts nothing but what is read. -/
structure Withholds (s : Search) : Prop where
  outbound : ∀ l, ∀ e ∈ SortedMap.keys (s.keepOutbound l), e ∈ SortedMap.keys l
  inbound : ∀ l, ∀ e ∈ SortedMap.keys (s.keepInbound l), e ∈ SortedMap.keys l

theorem Touching.kept {s : Search} (withholds : s.Withholds) {outs ins : List Application}
    {answers : List Links × List Links} (touching : Touching outs ins answers) :
    Touching outs ins (answers.1.map s.keepOutbound, answers.2.map s.keepInbound) := by
  constructor
  · intro l member
    obtain ⟨answer, told, rfl⟩ := List.mem_map.1 member
    obtain ⟨a, asked, starts⟩ := touching.outward answer told
    exact ⟨a, asked, fun e inside => starts e (withholds.outbound answer e inside)⟩
  · intro l member
    obtain ⟨answer, told, rfl⟩ := List.mem_map.1 member
    obtain ⟨a, asked, ends⟩ := touching.inward answer told
    exact ⟨a, asked, fun e inside => ends e (withholds.inbound answer e inside)⟩

/-- What a search has gathered and found is joined to where it started. -/
structure Rooted (a : Application) (d : Duplex) (found : List Application) : Prop where
  gathered : ∀ e ∈ d.edges, Chained d.edges a e.source
  found : ∀ b ∈ found, Chained d.edges a b

theorem Rooted.gathered_target {a : Application} {d : Duplex} {found : List Application}
    (rooted : Rooted a d found) {e : Edge} (member : e ∈ d.edges) : Chained d.edges a e.target :=
  (rooted.gathered e member).target member

/-- What is found next is an end of what has just been read. -/
theorem mem_next {s : Search} {outs ins : List Links} {b : Application}
    (found : b ∈ s.nextOut outs ins ++ s.nextIn outs ins) :
    ∃ l ∈ outs ++ ins, ∃ e ∈ SortedMap.keys l, e.target = b ∨ e.source = b := by
  have told : b ∈ outs.flatMap callees ∨ b ∈ ins.flatMap callers := by
    unfold nextOut nextIn at found
    grind
  rcases told with told | told
  · obtain ⟨l, member, callee⟩ := List.mem_flatMap.1 told
    obtain ⟨e, inside, target⟩ := Links.mem_callees.1 callee
    exact ⟨l, List.mem_append_left _ member, e, inside, .inl target⟩
  · obtain ⟨l, member, caller⟩ := List.mem_flatMap.1 told
    obtain ⟨e, inside, source⟩ := Links.mem_callers.1 caller
    exact ⟨l, List.mem_append_right _ member, e, inside, .inr source⟩

/-- One level joins what it reads to where the search started. -/
theorem Rooted.level {s : Search} {a : Application} {d : Duplex} {found : List Application}
    (rooted : Rooted a d found) {outs ins : List Application} (outward : ∀ b ∈ outs, b ∈ found)
    (inward : ∀ b ∈ ins, b ∈ found) {outLinks inLinks : List Links}
    (touching : Touching outs ins (outLinks, inLinks)) :
    Rooted a (inLinks.foldl Duplex.addInbound (outLinks.foldl Duplex.addOutbound d))
      (s.nextOut outLinks inLinks ++ s.nextIn outLinks inLinks) := by
  let d' := inLinks.foldl Duplex.addInbound (outLinks.foldl Duplex.addOutbound d)
  have more (e : Edge) (member : e ∈ d.edges) : e ∈ d'.edges :=
    Duplex.mem_edges_addAll.2 (.inl member)
  have read (l : Links) (member : l ∈ outLinks ++ inLinks) (e : Edge)
      (inside : e ∈ SortedMap.keys l) : e ∈ d'.edges ∧ Chained d'.edges a e.source := by
    have new : e ∈ d'.edges := Duplex.mem_edges_addAll.2 (.inr ⟨l, member, inside⟩)
    refine ⟨new, ?_⟩
    rcases List.mem_append.1 member with member | member
    · obtain ⟨b, asked, starts⟩ := touching.outward l member
      rw [starts e inside]
      exact (rooted.found b (outward b asked)).mono more
    · obtain ⟨b, asked, ends⟩ := touching.inward l member
      refine Chained.source ?_ new
      rw [ends e inside]
      exact (rooted.found b (inward b asked)).mono more
  constructor
  · intro e member
    rcases Duplex.mem_edges_addAll.1 member with old | ⟨l, told, inside⟩
    · exact (rooted.gathered e old).mono more
    · exact (read l told e inside).2
  · intro b found
    obtain ⟨l, told, e, inside, far⟩ := mem_next found
    obtain ⟨new, chained⟩ := read l told e inside
    rcases far with rfl | rfl
    · exact chained.target new
    · exact chained

section

variable {σ : Type} {ε : Type}
  {readLevel : List Application → List Application → ExceptT ε (StateM σ) (List Links × List Links)}
  (touching : ∀ outs ins, Yields (readLevel outs ins) (Touching outs ins))

include touching

theorem rooted_run {s : Search} (withholds : s.Withholds) {a : Application} (levels outLeft inLeft : Nat)
    {outward inward : Frontier} {d : Duplex} (rooted : Rooted a d (outward.found ++ inward.found)) :
    Yields (s.run readLevel levels outLeft inLeft outward inward d) (Rooted a · []) := by
  induction levels generalizing outLeft inLeft outward inward d with
  | zero => exact .pure ⟨rooted.gathered, by simp⟩
  | succ levels ih =>
    have asked (left : Nat) (f : Frontier) :
        ∀ b ∈ (if 0 < left then f.fresh else []), b ∈ f.found := by
      intro b member
      split at member
      · exact (Frontier.mem_fresh.1 member).1
      · simp at member
    have outs := asked outLeft outward
    have ins := asked inLeft inward
    rw [run]
    dsimp only
    generalize (if 0 < outLeft then outward.fresh else []) = outwardly at *
    generalize (if 0 < inLeft then inward.fresh else []) = inwardly at *
    split
    · exact .pure ⟨rooted.gathered, by simp⟩
    · refine .bind (touching outwardly inwardly) fun answers touched => ih _ _ ?_
      exact rooted.level (fun b member => List.mem_append_left _ (outs b member))
        (fun b member => List.mem_append_right _ (ins b member)) (touched.kept withholds)

theorem rooted_select {s : Search} (withholds : s.Withholds) (a : Application) :
    Yields (s.select readLevel [a]) (Rooted a · []) := by
  refine rooted_run touching withholds _ _ _ ⟨?_, ?_⟩
  · simp [Duplex.edges, Duplex.empty, SortedMap.keys, SortedMap.empty]
  · intro b member
    obtain rfl : b = a := by simpa using member
    exact .refl

end

end Search

theorem SearchOption.withholds (o : SearchOption) : o.search.Withholds := by
  constructor
  · intro l e member
    unfold search at member
    dsimp only at member
    split at member
    · rw [SortedMap.mem_keys_iff, Links.betweenServers, SortedMap.get?_filter] at member
      rw [SortedMap.mem_keys_iff]
      intro none
      simp [none] at member
    · exact member
  · exact fun _ _ => id

/-- Reads one level at once from answers that may fail. -/
def Search.readAll (outward inward : Application → Except StoreError Links)
    (outs ins : List Application) : Except StoreError (List Links × List Links) := do
  return (← outs.mapM outward, ← ins.mapM inward)

theorem Search.touching_readAll {outward inward : Application → Except StoreError Links}
    (starts : ∀ a l, outward a = .ok l → ∀ e ∈ SortedMap.keys l, e.source = a)
    (ends : ∀ a l, inward a = .ok l → ∀ e ∈ SortedMap.keys l, e.target = a)
    {outs ins : List Application} {told : List Links × List Links}
    (read : readAll outward inward outs ins = .ok told) : Search.Touching outs ins told := by
  obtain ⟨out, called, read⟩ := answered_of_bind read
  obtain ⟨into, calling, read⟩ := answered_of_bind read
  obtain rfl := Except.ok.inj read
  constructor
  · intro l member
    obtain ⟨a, asked, answer⟩ := (answers_of_mapM called).1 l member
    exact ⟨a, asked, starts a l answer⟩
  · intro l member
    obtain ⟨a, asked, answer⟩ := (answers_of_mapM calling).1 l member
    exact ⟨a, asked, ends a l answer⟩

theorem Links.mem_keys_addAll {l : Links} {tallies : List Tally} {e : Edge} :
    e ∈ SortedMap.keys (l.addAll tallies) ↔ e ∈ SortedMap.keys l ∨ ∃ t ∈ tallies, t.edge = e := by
  unfold addAll
  induction tallies generalizing l with
  | nil => simp
  | cons t tallies ih =>
    rw [List.foldl_cons, ih, add, SortedMap.mem_keys_update, or_comm (a := e = t.edge), or_assoc]
    simp only [List.mem_cons, exists_eq_or_imp, eq_comm (a := e)]

namespace Query

/-- What holds of the edge of every tally holds of the edges of their links. -/
theorem edges_of_tallies {decode : Bytes → Except RowError α}
    (tally : α → Int → Int64 → Tally) {p : Edge → Prop}
    (each : ∀ c time count, p (tally c time count).edge) (w : TimeWindow) (aggregated : Bool)
    (rows : List (Statistics.RowKey × Row)) :
    ∀ e ∈ SortedMap.keys (Links.addAll .empty (rows.flatMap (tallies decode tally w aggregated))),
      p e := by
  intro e member
  rcases Links.mem_keys_addAll.1 member with none | ⟨t, told, rfl⟩
  · simp [SortedMap.keys, SortedMap.empty] at none
  · obtain ⟨row, _, told⟩ := List.mem_flatMap.1 told
    obtain ⟨⟨c, count⟩, _, rfl⟩ := List.mem_map.1 told
    exact each c _ count

variable {s : Store} {t : Tables} {a : Application} {w : TimeWindow} {aggregated : Bool} {l : Links}

theorem source_of_outbound (read : outbound s t a w aggregated = .ok l) :
    ∀ e ∈ SortedMap.keys l, e.source = a := by
  obtain ⟨rows, -, read⟩ := answered_of_bind read
  obtain rfl := Except.ok.inj read
  exact edges_of_tallies (outboundTally a) (fun _ _ _ => rfl) w aggregated rows

theorem target_of_inbound (read : inbound s t a w aggregated = .ok l) :
    ∀ e ∈ SortedMap.keys l, e.target = a := by
  obtain ⟨rows, -, read⟩ := answered_of_bind read
  obtain rfl := Except.ok.inj read
  exact edges_of_tallies (inboundTally a) (fun _ _ _ => rfl) w aggregated rows

end Query

end CallTelemetry.Topology
