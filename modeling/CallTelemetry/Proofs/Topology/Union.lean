import CallTelemetry.Proofs.Topology.Chains
import CallTelemetry.Topology.ApplicationMap

/-! The graph of a map is the union of the graphs of both sides. A map may be filled by a walk over
the edges of both sides, which adds what is not there yet; it is the same map for every order of the
walk, as an edge is drawn from what both sides tell of it wherever the walk meets it first. -/
namespace CallTelemetry.Topology

theorem Links.link?_eq_none_iff {l : Links} {e : Edge} : l.link? e = none ↔ e ∉ SortedMap.keys l := by
  simp [link?, SortedMap.mem_keys_iff]

theorem Duplex.mem_edges_iff {d : Duplex} {e : Edge} :
    e ∈ d.edges ↔ d.outbound.link? e ≠ none ∨ d.inbound.link? e ≠ none := by
  simp [edges, Links.link?_eq_none_iff]

namespace MapLink

theorem ofSides_eq_none_iff {out into : Option Link} :
    ofSides out into = none ↔ out = none ∧ into = none := by
  cases out <;> cases into <;> simp [ofSides]

/-- Whether a link shows what either side tells of its edge. -/
structure Shows (out into : Option Link) (k : MapLink) : Prop where
  both : k.sighting = .both ↔ out ≠ none ∧ into ≠ none
  outbound : k.sighting = .outbound ↔ out ≠ none ∧ into = none
  inbound : k.sighting = .inbound ↔ out = none ∧ into ≠ none
  caller : ∀ l, out = some l → k.histogram = l.histogram ∧ k.series = l.series
  callee : ∀ l, out = none → into = some l → k.histogram = l.histogram ∧ k.series = l.series

theorem shows_ofSides {out into : Option Link} {k : MapLink} (made : ofSides out into = some k) :
    k.Shows out into := by
  cases out with
  | none =>
    cases into with
    | none => cases made
    | some l =>
      obtain rfl := Option.some.inj made
      constructor <;> simp [of]
  | some l =>
    cases into with
    | none =>
      obtain rfl := Option.some.inj made
      constructor <;> simp [of]
    | some l' =>
      obtain rfl := Option.some.inj made
      constructor <;> simp [of]

end MapLink

namespace ApplicationMap

/-- Keeps the first node of an application. -/
def addNode (m : ApplicationMap) (a : Application) (n : Node) : ApplicationMap :=
  { m with nodes := m.nodes.update a n id }

/-- Adds the ends of an edge, and a link for it unless there is one. -/
def visit (d : Duplex) (m : ApplicationMap) (e : Edge) : ApplicationMap :=
  let m := (m.addNode e.source .bare).addNode e.target .bare
  { m with links := m.links.alter e fun held =>
      held.or (MapLink.ofSides (d.outbound.link? e) (d.inbound.link? e)) }

def walk (range : TimeRange) (d : Duplex) (visits : List Edge) : ApplicationMap :=
  visits.foldl (visit d) ⟨range, .empty, .empty⟩

/-- Whether the nodes of a map are those of certain applications, with nothing known of them. -/
def Bare (p : Application → Prop) (m : ApplicationMap) : Prop :=
  ∀ a n, m.nodes.get? a = some n ↔ n = .bare ∧ p a

theorem bare_addNode {p : Application → Prop} {m : ApplicationMap} (bare : m.Bare p)
    (a : Application) : (m.addNode a .bare).Bare fun b => p b ∨ b = a := by
  intro b n
  simp only [addNode, SortedMap.get?_update]
  by_cases same : b = a
  · subst same
    cases held : m.nodes.get? b with
    | none => simp [SortedMap.getD, held, eq_comm]
    | some n' =>
      obtain ⟨rfl, _⟩ := (bare b n').1 held
      simp [SortedMap.getD, held, eq_comm]
  · simp [same, bare b n]

theorem get?_links_visit (d : Duplex) (m : ApplicationMap) (e e' : Edge) :
    (m.visit d e).links.get? e' = if e' = e then
      (m.links.get? e).or (MapLink.ofSides (d.outbound.link? e) (d.inbound.link? e))
      else m.links.get? e' :=
  SortedMap.get?_alter ..

/-- Whether a map holds what a walk has seen, and nothing else. -/
structure Holds (range : TimeRange) (d : Duplex) (seen : List Edge) (m : ApplicationMap) : Prop where
  range : m.range = range
  nodes : m.Bare fun a => ∃ e ∈ seen, a = e.source ∨ a = e.target
  links : ∀ e k, m.links.get? e = some k ↔
    e ∈ seen ∧ MapLink.ofSides (d.outbound.link? e) (d.inbound.link? e) = some k

section

variable {range : TimeRange} {d : Duplex}

theorem holds_visit {seen : List Edge} {m : ApplicationMap} (holds : m.Holds range d seen)
    (e : Edge) : (m.visit d e).Holds range d (seen ++ [e]) where
  range := holds.range
  nodes a n := by
    have added := bare_addNode (bare_addNode holds.nodes e.source) e.target a n
    apply added.trans
    grind
  links e' k := by
    rw [get?_links_visit]
    by_cases same : e' = e
    · subst same
      cases held : m.links.get? e' with
      | none => simp
      | some k' => simp [((holds.links e' k').1 held).2]
    · simp [same, holds.links e' k]

theorem holds_foldl {seen : List Edge} {m : ApplicationMap} (holds : m.Holds range d seen)
    (visits : List Edge) : (visits.foldl (visit d) m).Holds range d (seen ++ visits) := by
  induction visits generalizing seen m with
  | nil => simpa using holds
  | cons e visits ih => simpa using ih (holds_visit holds e)

theorem holds_walk (visits : List Edge) : (walk range d visits).Holds range d visits := by
  have unseen : Holds range d [] ⟨range, .empty, .empty⟩ :=
    ⟨rfl, fun a n => by simp, fun e k => by simp⟩
  exact holds_foldl unseen visits

theorem holds_ofDuplex : (ofDuplex range d).Holds range d d.edges where
  range := rfl
  nodes a n := by
    have ends (n : Node) :
        (a, n) ∈ (d.edges.flatMap fun e => [(e.source, Node.bare), (e.target, Node.bare)]) ↔
          n = .bare ∧ ∃ e ∈ d.edges, a = e.source ∨ a = e.target := by
      simp only [List.mem_flatMap, List.mem_cons, Prod.mk.injEq, List.not_mem_nil, or_false]
      grind
    rw [← ends n]
    apply SortedMap.get?_ofList
    intro n' member' member
    rw [((ends n').1 member').1, ((ends n).1 member).1]
  links e k := by
    have told (k : MapLink) : (e, k) ∈ (d.edges.filterMap fun e =>
        (MapLink.ofSides (d.outbound.link? e) (d.inbound.link? e)).map (e, ·)) ↔
          e ∈ d.edges ∧ MapLink.ofSides (d.outbound.link? e) (d.inbound.link? e) = some k := by
      simp only [List.mem_filterMap, Option.map_eq_some_iff, Prod.mk.injEq]
      grind
    rw [← told k]
    apply SortedMap.get?_ofList
    intro k' member' member
    exact Option.some.inj (((told k').1 member').2.symm.trans ((told k).1 member).2)

theorem Holds.eq {seen seen' : List Edge} {m m' : ApplicationMap} (holds : m.Holds range d seen)
    (holds' : m'.Holds range d seen') (alike : ∀ e, e ∈ seen ↔ e ∈ seen') : m = m' := by
  have nodes : m.nodes = m'.nodes := by
    apply SortedMap.ext_get?
    intro a
    apply Option.ext
    intro n
    simp only [holds.nodes a n, holds'.nodes a n, alike]
  have links : m.links = m'.links := by
    apply SortedMap.ext_get?
    intro e
    apply Option.ext
    intro k
    simp only [holds.links e k, holds'.links e k, alike]
  cases m
  cases m'
  cases nodes
  cases links
  cases holds.range.trans holds'.range.symm
  rfl

theorem mem_nodes_ofDuplex {a : Application} :
    a ∈ (ofDuplex range d).nodes.keys ↔ ∃ e ∈ d.edges, a = e.source ∨ a = e.target := by
  simp [SortedMap.mem_keys_iff, Option.ne_none_iff_exists', holds_ofDuplex.nodes a]

/-- An edge that one of the two sides tells of makes a link. -/
theorem mem_links_ofDuplex {e : Edge} :
    e ∈ (ofDuplex range d).links.keys ↔ e ∈ d.edges := by
  rw [SortedMap.mem_keys_iff, Option.ne_none_iff_exists']
  constructor
  · rintro ⟨k, found⟩
    exact ((holds_ofDuplex.links e k).1 found).1
  · intro inside
    have told : MapLink.ofSides (d.outbound.link? e) (d.inbound.link? e) ≠ none := by
      intro silent
      have either := Duplex.mem_edges_iff.1 inside
      simp [MapLink.ofSides_eq_none_iff.1 silent] at either
    obtain ⟨k, made⟩ := Option.ne_none_iff_exists'.1 told
    exact ⟨k, (holds_ofDuplex.links e k).2 ⟨inside, made⟩⟩

end

/-- Whether a map is the union of the graphs of both sides. -/
structure Unites (d : Duplex) (m : ApplicationMap) : Prop where
  nodes : ∀ a, a ∈ m.nodes.keys ↔
    ∃ e, (e ∈ d.outbound.keys ∨ e ∈ d.inbound.keys) ∧ (a = e.source ∨ a = e.target)
  bare : ∀ a n, m.nodes.get? a = some n → n = .bare
  links : ∀ e, e ∈ m.links.keys ↔ e ∈ d.outbound.keys ∨ e ∈ d.inbound.keys
  shown : ∀ e k, m.links.get? e = some k → k.Shows (d.outbound.link? e) (d.inbound.link? e)
  ascendingNodes : m.nodes.keys.Pairwise fun a b => compare a b = .lt
  ascendingLinks : m.links.keys.Pairwise fun e e' => compare e e' = .lt

theorem unites_ofDuplex (range : TimeRange) (d : Duplex) : (ofDuplex range d).Unites d where
  nodes a := by simp [mem_nodes_ofDuplex, Duplex.edges]
  bare a n found := ((holds_ofDuplex.nodes a n).1 found).1
  links e := by simp [mem_links_ofDuplex, Duplex.edges]
  shown e k found := MapLink.shows_ofSides ((holds_ofDuplex.links e k).1 found).2
  ascendingNodes := SortedMap.keys_ascending _
  ascendingLinks := SortedMap.keys_ascending _

/-- The map of both sides is the union of their graphs, and a walk over the edges of both sides
makes it, whatever the order. -/
theorem ofDuplex_united (range : TimeRange) (d : Duplex) : (ofDuplex range d).Unites d ∧
    ∀ visits : List Edge, visits.Perm (d.outbound.keys ++ d.inbound.keys) →
      walk range d visits = ofDuplex range d := by
  constructor
  · exact unites_ofDuplex range d
  · intro visits order
    exact (holds_walk visits).eq holds_ofDuplex fun e => order.mem_iff

/-- Both sides tell of the calls of a front end, its callee only those of a service to itself, and its
caller only those of the service to a database. -/
def halfEdges : Duplex :=
  let front : Application := ⟨"front", .springBoot⟩
  let orders : Application := ⟨"orders", .tomcat⟩
  let database : Application := ⟨"orders-db", .mysql⟩
  { outbound := .addAll .empty [⟨⟨front, orders⟩, "front-1", "h1", 0, 1000, 2⟩,
      ⟨⟨orders, database⟩, "orders-1", "h2", 0, 1000, 1⟩]
    inbound := .addAll .empty [⟨⟨front, orders⟩, "front", "h1", 0, 1000, 5⟩,
      ⟨⟨orders, orders⟩, "orders", "h1", 0, 3000, 1⟩] }

theorem ofDuplex_united_halves :
    let m := ofDuplex ⟨0, 60000⟩ halfEdges
    (m.links.entries.map fun e => (e.1.source.name, e.1.target.name, e.2.sighting, e.2.totalCount)) =
        [("front", "orders", .both, 2), ("orders", "orders", .inbound, 1),
          ("orders", "orders-db", .outbound, 1)] ∧
      m.Unites halfEdges ∧ walk ⟨0, 60000⟩ halfEdges halfEdges.edges.reverse = m := by
  have united := ofDuplex_united ⟨0, 60000⟩ halfEdges
  exact ⟨by decide, united.1, united.2 _ (List.reverse_perm _)⟩

end ApplicationMap

end CallTelemetry.Topology
