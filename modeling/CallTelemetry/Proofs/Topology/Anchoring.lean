import CallTelemetry.Monitor.Map
import CallTelemetry.Proofs.Topology.Decoration

/-! Maps that are one piece. The links that a search has gathered make a map around its source, which
has the source even if nothing was gathered; what the nodes are given does not change that. -/
namespace CallTelemetry.Topology

namespace ApplicationMap

/-- Whether a map is one piece around an application. -/
structure Anchored (m : ApplicationMap) (a : Application) : Prop where
  source : a ∈ m.nodes.keys
  ends : ∀ e ∈ m.links.keys, e.source ∈ m.nodes.keys ∧ e.target ∈ m.nodes.keys
  connected : ∀ b ∈ m.nodes.keys, Chained m.links.keys a b

/-- Whether two maps differ in what is known of their nodes only. -/
structure Alike (m m' : ApplicationMap) : Prop where
  nodes : ∀ b, b ∈ m'.nodes.keys ↔ b ∈ m.nodes.keys
  links : m'.links = m.links

theorem isEmpty_eq_false_iff {m : ApplicationMap} : m.isEmpty = false ↔ ∃ b, b ∈ m.nodes.keys := by
  rw [isEmpty, SortedMap.isEmpty, List.isEmpty_eq_false_iff_exists_mem]
  constructor
  · rintro ⟨e, member⟩
    exact ⟨e.1, List.mem_map_of_mem member⟩
  · rintro ⟨b, member⟩
    obtain ⟨e, inside, _⟩ := List.mem_map.1 member
    exact ⟨e, inside⟩

theorem Anchored.alike {m m' : ApplicationMap} {a : Application} (anchored : m.Anchored a)
    (alike : m.Alike m') : m'.Anchored a := by
  constructor
  · exact (alike.nodes a).2 anchored.source
  · intro e member
    rw [alike.links] at member
    obtain ⟨source, target⟩ := anchored.ends e member
    exact ⟨(alike.nodes _).2 source, (alike.nodes _).2 target⟩
  · intro b member
    rw [alike.links]
    exact anchored.connected b ((alike.nodes b).1 member)

theorem anchored_ofSource (range : TimeRange) (a : Application) : (ofSource range a).Anchored a := by
  have nodes (b : Application) : b ∈ (ofSource range a).nodes.keys ↔ b = a := by
    rw [ofSource, SortedMap.mem_keys_ofList]
    simp
  constructor
  · exact (nodes a).2 rfl
  · intro e member
    simp [ofSource, SortedMap.keys, SortedMap.empty] at member
  · intro b member
    rw [(nodes b).1 member]
    exact .refl

/-- A map that has nodes has its source among them. -/
theorem anchored_ofDuplex {range : TimeRange} {d : Duplex} {a : Application} {found : List Application}
    (rooted : Search.Rooted a d found) (some_ : (ofDuplex range d).isEmpty = false) :
    (ofDuplex range d).Anchored a := by
  have chains (b c : Application) : Chained d.edges b c → Chained (ofDuplex range d).links.keys b c :=
    Chained.mono fun e member => mem_links_ofDuplex.2 member
  constructor
  · -- some edge is there, and its chain begins at the source
    obtain ⟨b, member⟩ := isEmpty_eq_false_iff.1 some_
    obtain ⟨e, inside, _⟩ := mem_nodes_ofDuplex.1 member
    rcases (rooted.gathered e inside).start with same | ⟨e', first, same | same⟩
    · exact mem_nodes_ofDuplex.2 ⟨e, inside, .inl same⟩
    · exact mem_nodes_ofDuplex.2 ⟨e', first, .inl same.symm⟩
    · exact mem_nodes_ofDuplex.2 ⟨e', first, .inr same.symm⟩
  · intro e member
    have inside := mem_links_ofDuplex.1 member
    exact ⟨mem_nodes_ofDuplex.2 ⟨e, inside, .inl rfl⟩, mem_nodes_ofDuplex.2 ⟨e, inside, .inr rfl⟩⟩
  · intro b member
    obtain ⟨e, inside, rfl | rfl⟩ := mem_nodes_ofDuplex.1 member
    · exact chains _ _ (rooted.gathered e inside)
    · exact chains _ _ (rooted.gathered_target inside)

theorem alike_ofList {m : ApplicationMap} {nodes : List (Application × Node)}
    (only : ∀ n ∈ nodes, n.1 ∈ m.nodes.keys) (all : ∀ b ∈ m.nodes.keys, ∃ n ∈ nodes, n.1 = b) :
    m.Alike { m with nodes := .ofList nodes } := by
  refine ⟨fun b => ?_, rfl⟩
  rw [SortedMap.mem_keys_ofList]
  constructor
  · rintro ⟨n, member⟩
    exact only _ member
  · intro member
    obtain ⟨⟨_, n⟩, listed, rfl⟩ := all b member
    exact ⟨n, listed⟩

theorem yields_decorate {ε σ : Type} (f : Application → ExceptT ε (StateM σ) Node)
    (m : ApplicationMap) : Yields (m.decorate f) m.Alike := by
  have each (a : Application) : Yields (do return (a, ← f a)) fun n => n.1 = a :=
    .bind (.any (f a)) fun n _ => .pure rfl
  refine .bind (.mapM each m.nodes.keys) fun nodes ⟨only, all⟩ => .pure (alike_ofList ?_ all)
  intro n member
  obtain ⟨a, inside, same⟩ := only n member
  rwa [same]

theorem alike_of_decorate {ε : Type} {f : Application → Except ε Node} {m m' : ApplicationMap}
    (decorated : m.decorate f = .ok m') : m.Alike m' := by
  have whole := decorated_of_decorate decorated
  exact ⟨fun b => by rw [whole.keys], whole.links⟩

end ApplicationMap

section

variable {σ : Type} {limit : Nat}
  {readLevel : List Application → List Application →
    ExceptT MapError (StateM σ) (List Links × List Links)}
  (touching : ∀ outs ins, Yields (readLevel outs ins) (Search.Touching outs ins))

include touching

theorem yields_draw
    {decorate : ServerSource → Duplex → ApplicationMap → ExceptT MapError (StateM σ) ApplicationMap}
    (keeps : ∀ source d map, Yields (decorate source d map) map.Alike) (r : MapRequest) :
    Yields (draw limit readLevel decorate r) (·.Anchored r.source) := by
  unfold draw
  refine .bind (Search.rooted_select touching r.option.withholds r.source) fun d rooted => ?_
  refine .bind (.any _) fun _ _ => .bind (keeps r.servers d _) fun map alike => ?_
  split
  next none =>
    refine (keeps .registered .empty _).mono fun map alike => ?_
    exact (ApplicationMap.anchored_ofSource r.window.range r.source).alike alike
  next some_ =>
    obtain ⟨b, member⟩ := ApplicationMap.isEmpty_eq_false_iff.1 (Bool.eq_false_iff.2 some_)
    have before := ApplicationMap.isEmpty_eq_false_iff.2 ⟨b, (alike.nodes b).1 member⟩
    exact .pure ((ApplicationMap.anchored_ofDuplex rooted before).alike alike)

/-- A map that is drawn contains its source and both ends of every link, and every node is joined to
the source by a chain of links, if what is read for an application touches it. Whatever else is read
for the nodes may take its time, and may fail. -/
theorem draw_anchored (await : Duplex → ApplicationMap → ExceptT MapError (StateM σ) Unit)
    (histogram : Duplex → Application → ExceptT MapError (StateM σ) NodeHistogram)
    (servers : ServerSource → Duplex → Application → Option NodeHistogram →
      ExceptT MapError (StateM σ) ServerGroups)
    (r : MapRequest) (s : σ) (map : ApplicationMap) :
    let decorate (source : ServerSource) (d : Duplex) (map : ApplicationMap) := do
      await d map
      build (some (histogram d)) (some (servers source d)) map
    ((draw limit readLevel decorate r).run.run s).1 = .ok map → map.Anchored r.source := by
  intro decorate drawn
  have keeps (source : ServerSource) (d : Duplex) (map : ApplicationMap) :
      Yields (decorate source d map) map.Alike :=
    .bind (.any _) fun _ _ => map.yields_decorate _
  exact yields_draw touching keeps r s map drawn

end

/-- A source whose calls are told by both sides, drawn without agents. Its database is left out, but
not the user that calls it. -/
def mutualRequest : MapRequest :=
  { source := ⟨"shop", .springBoot⟩
    window := .ofRange ⟨0, 300000⟩
    option := ⟨2, 2, true, true⟩
    detail := .simple
    servers := .observed }

def drawMutual : Except MapError ApplicationMap × Unit :=
  let readLevel (outs ins : List Application) : ExceptT MapError (StateM Unit) _ :=
    let read := Search.readAll (Search.mutualCalls .outward) (Search.mutualCalls .inward) outs ins
    ExceptT.mk (pure (read.mapError .store))
  let r := mutualRequest
  let decorate (source : ServerSource) (d : Duplex) (map : ApplicationMap) := do
    (pure () : ExceptT MapError (StateM Unit) Unit)
    build (some fun a => NodeHistogram.read r.detail d r.window (fun _ => pure []) a)
      (some fun a n => pure (source.servers d (fun _ => []) a n)) map
  ((draw 100 readLevel decorate r).run.run ())

theorem draw_anchored_mutual : ∃ map, drawMutual.1 = .ok map ∧ map.Anchored mutualRequest.source ∧
    map.nodes.keys = [⟨"shop", .user⟩, ⟨"shop", .springBoot⟩, ⟨"stock", .tomcat⟩] := by
  have nodes : drawMutual.1.toOption.map (·.nodes.keys) =
      some [⟨"shop", .user⟩, ⟨"shop", .springBoot⟩, ⟨"stock", .tomcat⟩] := by decide
  cases drawn : drawMutual.1 with
  | error e => simp [drawn, Except.toOption] at nodes
  | ok map =>
    refine ⟨map, rfl, ?_, by simpa [drawn, Except.toOption] using nodes⟩
    refine draw_anchored (fun outs ins => .ofExcept fun told read => ?_) (fun _ _ => pure ())
      (fun d a => NodeHistogram.read .simple d mutualRequest.window (fun _ => pure []) a)
      (fun source d a n => pure (source.servers d (fun _ => []) a n)) mutualRequest () map drawn
    refine Search.touching_readAll ?_ ?_ (eq_ok_of_mapError read)
    all_goals
      rintro a l answer e member
      obtain rfl := Except.ok.inj answer
      rcases Links.mem_keys_addAll.1 member with none | ⟨t, told, rfl⟩
      · simp [SortedMap.keys, SortedMap.empty] at none
      · dsimp only at told
        grind

end CallTelemetry.Topology

namespace CallTelemetry.Monitor

open CallTelemetry.Topology

theorem yields_read {p : α → Prop} {needed : Bool} {f : Tables → Store → Except StoreError α}
    (holds : ∀ t s a, f t s = .ok a → p a) : Yields (read needed f) p := by
  have now : Yields (do let m ← get; ExceptT.mk (pure (f m.tables m.store)) : Reading _ α) p :=
    .bind (.any _) fun m _ => Yields.ofExcept (holds m.tables m.store)
  unfold read
  dsimp only
  split
  · refine .bind (.any _) fun _ _ => .bind (.any _) fun m _ => ?_
    split
    · exact .bind (.any _) fun _ _ => now
    · exact now
  · exact now

/-- What a monitor reads for a level touches the applications that it reads it for. -/
theorem yields_readLevel (w : TimeWindow) (aggregated : Bool) (outs ins : List Application) :
    Yields (readLevel w aggregated outs ins) (Search.Touching outs ins) := by
  refine yields_read fun t s told read => ?_
  refine Search.touching_readAll (fun a l answer => ?_) (fun a l answer => ?_) read
  · exact Query.source_of_outbound answer
  · exact Query.target_of_inbound answer

theorem yields_decorate (w : TimeWindow) (detail : Option Detail) (source : Option ServerSource)
    (d : Duplex) (map : ApplicationMap) : Yields (decorate w detail source d map) map.Alike := by
  have built (x : Except StoreError ApplicationMap) (alike : ∀ m', x = .ok m' → map.Alike m') :
      Yields (ExceptT.mk (pure (x.mapError MapError.store)) : Reading MapError _) map.Alike :=
    Yields.ofExcept fun m' answered => alike m' (eq_ok_of_mapError answered)
  unfold decorate
  dsimp only
  split
  · exact .bind (.any _) fun _ _ => .bind (.any _) fun m _ =>
      built _ fun _ => ApplicationMap.alike_of_decorate
  · exact .bind (.any _) fun m _ => built _ fun _ => ApplicationMap.alike_of_decorate

/-- A map that a monitor draws is one piece around its source. -/
theorem yields_draw (r : MapRequest) : Yields (draw r) (·.Anchored r.source) := by
  refine .bind (.any _) fun m _ => ?_
  exact Topology.yields_draw
    (fun outs ins => Yields.adapt (yields_readLevel r.window r.aggregated outs ins))
    (fun source d map => yields_decorate r.window (some r.detail) (some source) d map) r

end CallTelemetry.Monitor
