import CallTelemetry.Proofs.Text.Blank
import CallTelemetry.Proofs.Topology.Anchoring

/-! References in the display form of a map. The key of a node is the text of its application. The kind
stands in it behind the last slash, so two applications never share a text, and the text by which a
link names one of its ends is the key of just the node there. -/
namespace CallTelemetry

namespace Json

/-- The values of a name in an object, in which it may occur several times. -/
def values (name : String) : Json → List Json
  | object members => (members.filter (·.1 = name)).map Prod.snd
  | _ => []

/-- The text under a name that occurs once. -/
def textAt? (name : String) (j : Json) : Option String :=
  match j.values name with
  | [text s] => some s
  | _ => none

/-- The items under a name that occurs once. -/
def itemsAt (name : String) (j : Json) : List Json :=
  match j.values name with
  | [array items] => items
  | _ => []

theorem textAt?_cons {name s : String} {others : List (String × Json)}
    (absent : ∀ e ∈ others, e.1 ≠ name) :
    textAt? name (.object ((name, .text s) :: others)) = some s := by
  have none_ : others.filter (·.1 = name) = [] :=
    List.filter_eq_nil_iff.2 fun e member => by simpa using absent e member
  simp [textAt?, values, none_]

end Json

namespace ServiceType

theorem ofName?_name (t : ServiceType) : ofName? t.name = some t := by
  cases t <;> decide

theorem name_injective {t t' : ServiceType} (same : t.name = t'.name) : t = t' := by
  rw [← Option.some_inj, ← ofName?_name t, same, ofName?_name]

theorem slash_not_mem_name (t : ServiceType) : '/' ∉ t.name.toList := by
  cases t <;> decide

end ServiceType

/-- Slashes in the name do not matter, since the name of the kind has none. -/
theorem Application.render_injective {a b : Application} (same : a.render = b.render) : a = b := by
  have chars (a : Application) : a.render.toList = a.name.toList ++ '/' :: a.type.name.toList := by
    simp [render]
  obtain ⟨name, type⟩ := Text.append_cons_inj a.type.slash_not_mem_name b.type.slash_not_mem_name
    (by rw [← chars, ← chars, same])
  cases a
  cases b
  rw [mk.injEq]
  exact ⟨String.toList_inj.1 name, ServiceType.name_injective (String.toList_inj.1 type)⟩

namespace Topology

theorem NodeHistogram.name_of_mem_unlessEmpty {name : String} {hosts : SortedMap String β}
    {toJson : β → Json} {e : String × Json} (member : e ∈ unlessEmpty name hosts toJson) :
    e.1 = name := by
  unfold unlessEmpty at member
  split at member
  next none => cases member
  next some_ => rw [List.mem_singleton.1 member]

theorem NodeHistogram.name_of_mem_toMembers {n : NodeHistogram} {e : String × Json}
    (member : e ∈ n.toMembers) :
    e.1 ∈ ["histogram", "agentHistogram", "timeSeriesHistogram", "agentTimeSeriesHistogram"] := by
  simp only [toMembers, List.mem_append, List.mem_singleton] at member
  rcases member with ((rfl | agents) | rfl) | times
  · simp
  · simp [name_of_mem_unlessEmpty agents]
  · simp
  · simp [name_of_mem_unlessEmpty times]

/-- What else is told of a node comes under other names. -/
theorem Node.textAt?_key (a : Application) (n : Node) :
    (n.toJson a).textAt? "key" = some a.render := by
  have others : ∀ e ∈ a.toMembers ++ ([("isWas", .bool a.type.isServer)] ++
      ((n.histogram.map NodeHistogram.toMembers).getD [] ++
        (n.servers.map fun g => ("serverList", g.toJson)).toList)), e.1 ≠ "key" := by
    intro e member
    simp only [Application.toMembers, List.mem_append, List.mem_cons, List.not_mem_nil, or_false,
      Option.mem_toList, Option.map_eq_some_iff] at member
    rcases member with (rfl | rfl | rfl) | rfl | measured | ⟨g, -, rfl⟩
    · simp
    · simp
    · simp
    · simp
    · cases found : n.histogram with
      | none => simp [found] at measured
      | some h =>
        rw [found] at measured
        have name := NodeHistogram.name_of_mem_toMembers measured
        rintro same
        simp [same] at name
    · simp
  rw [toJson, List.append_assoc, List.append_assoc, List.append_assoc]
  exact Json.textAt?_cons others

namespace ApplicationMap

variable {m : ApplicationMap}

def nodeDocuments (m : ApplicationMap) : List Json := m.toJson.itemsAt "nodeDataArray"

def linkDocuments (m : ApplicationMap) : List Json := m.toJson.itemsAt "linkDataArray"

theorem nodeDocuments_eq : m.nodeDocuments = m.nodes.entries.map fun e => e.2.toJson e.1 := rfl

theorem linkDocuments_eq : m.linkDocuments = m.links.entries.map fun e => e.2.toJson e.1 := rfl

/-- Whether the text under a name in a document is the key of one node, that of an application. -/
def Refers (m : ApplicationMap) (document : Json) (name : String) (a : Application) : Prop :=
  ∃ key n, document.textAt? name = some key ∧ m.nodes.get? a = some n ∧
    m.nodeDocuments.filter (fun node => node.textAt? "key" = some key) = [n.toJson a]

/-- Whether each node has a key of its own, and each link refers to the nodes of its ends. -/
structure Sound (m : ApplicationMap) : Prop where
  keyed : ∀ node ∈ m.nodeDocuments, ∃ key, node.textAt? "key" = some key
  distinct : (m.nodeDocuments.map (Json.textAt? "key")).Nodup
  listed : ∀ e k, m.links.get? e = some k → k.toJson e ∈ m.linkDocuments
  ends : ∀ link ∈ m.linkDocuments, ∃ e k, m.links.get? e = some k ∧ link = k.toJson e ∧
    m.Refers link "from" e.source ∧ m.Refers link "to" e.target

theorem keys_nodeDocuments :
    m.nodeDocuments.map (Json.textAt? "key") = m.nodes.keys.map fun a => some a.render := by
  rw [nodeDocuments_eq, SortedMap.keys, List.map_map, List.map_map]
  exact List.map_congr_left fun e _ => e.2.textAt?_key e.1

/-- Of the nodes, one has the text of an application for its key. -/
theorem filter_nodeDocuments {a : Application} {n : Node} (found : m.nodes.get? a = some n) :
    m.nodeDocuments.filter (fun node => node.textAt? "key" = some a.render) = [n.toJson a] := by
  have keyed : (fun node : Json => decide (node.textAt? "key" = some a.render)) ∘
      (fun e : Application × Node => e.2.toJson e.1) = fun e => decide (a = e.1) := by
    funext e
    simp only [Function.comp_apply, Node.textAt?_key, Option.some.injEq, decide_eq_decide]
    exact ⟨fun same => (Application.render_injective same).symm, fun same => same ▸ rfl⟩
  rw [nodeDocuments_eq, List.filter_map, keyed, SortedMap.entries_filter_key, found]
  rfl

theorem refers_of_member {a : Application} (member : a ∈ m.nodes.keys) {document : Json}
    {name : String} (named : document.textAt? name = some a.render) : m.Refers document name a := by
  obtain ⟨n, found⟩ := Option.ne_none_iff_exists'.1 (SortedMap.mem_keys_iff.1 member)
  exact ⟨a.render, n, named, found, filter_nodeDocuments found⟩

/-- References are sound if the ends of every link are nodes. -/
theorem sound_of_ends
    (ends : ∀ e ∈ m.links.keys, e.source ∈ m.nodes.keys ∧ e.target ∈ m.nodes.keys) : m.Sound := by
  refine ⟨fun node member => ?_, ?_, fun e k found => ?_, fun link member => ?_⟩
  · obtain ⟨e, -, rfl⟩ := List.mem_map.1 (nodeDocuments_eq ▸ member)
    exact ⟨_, e.2.textAt?_key e.1⟩
  · rw [keys_nodeDocuments]
    refine List.Pairwise.map _ (fun a b apart same => apart ?_) m.nodes.keys_nodup
    exact Application.render_injective (Option.some.inj same)
  · rw [linkDocuments_eq]
    exact List.mem_map.2 ⟨(e, k), SortedMap.mem_entries_iff.2 found, rfl⟩
  · obtain ⟨⟨e, k⟩, listed, rfl⟩ := List.mem_map.1 (linkDocuments_eq ▸ member)
    obtain ⟨source, target⟩ := ends e (List.mem_map_of_mem listed)
    exact ⟨e, k, SortedMap.mem_entries_iff.1 listed, rfl, refers_of_member source rfl,
      refers_of_member target rfl⟩

/-- The display form of a map that is made of links has sound references, whatever the applications are
called and whatever the nodes are given. -/
theorem sound_ofDuplex (range : TimeRange) (d : Duplex) (m : ApplicationMap)
    (alike : (ofDuplex range d).Alike m) : m.Sound := by
  refine sound_of_ends fun e member => ?_
  rw [alike.links] at member
  have inside := mem_links_ofDuplex.1 member
  exact ⟨(alike.nodes _).2 (mem_nodes_ofDuplex.2 ⟨e, inside, .inl rfl⟩),
    (alike.nodes _).2 (mem_nodes_ofDuplex.2 ⟨e, inside, .inr rfl⟩)⟩

/-- Two edges of one text, since some applications are called as an edge is written. -/
def arrowEdges : Duplex :=
  { outbound := .addAll .empty
      [⟨⟨⟨"a/TOMCAT -> b", .tomcat⟩, ⟨"c", .tomcat⟩⟩, "a-1", "h1", 0, 1000, 2⟩,
        ⟨⟨⟨"a", .tomcat⟩, ⟨"b/TOMCAT -> c", .tomcat⟩⟩, "a-1", "h1", 0, 1000, 1⟩]
    inbound := .empty }

theorem sound_ofDuplex_arrows :
    let m := ofDuplex ⟨0, 60000⟩ arrowEdges
    m.linkDocuments.map (·.textAt? "key") = .replicate 2 (some "a/TOMCAT -> b/TOMCAT -> c/TOMCAT") ∧
      m.linkDocuments.map (fun link => (link.textAt? "from", link.textAt? "to")) =
        [(some "a/TOMCAT", some "b/TOMCAT -> c/TOMCAT"),
          (some "a/TOMCAT -> b/TOMCAT", some "c/TOMCAT")] ∧
      m.Sound := by
  refine ⟨by decide +kernel, by decide +kernel, ?_⟩
  exact sound_ofDuplex ⟨0, 60000⟩ arrowEdges _ ⟨fun _ => Iff.rfl, rfl⟩

end ApplicationMap

end Topology

/-- The maps that a monitor draws have sound references, also those of a source that stands alone. -/
theorem Monitor.yields_sound (r : Topology.MapRequest) : Yields (draw r) (·.Sound) :=
  (yields_draw r).mono fun _ anchored => Topology.ApplicationMap.sound_of_ends anchored.ends

end CallTelemetry
