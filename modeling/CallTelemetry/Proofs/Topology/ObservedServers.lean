import CallTelemetry.Proofs.Topology.Anchoring
import CallTelemetry.Proofs.Topology.Breakdowns
import CallTelemetry.Proofs.Topology.Responses

/-! Servers that are taken from the statistics. A node that is broken down by agent lists the agents
whose answers were counted in the window, and no others; one that is not lists none. -/
namespace CallTelemetry.Topology

open Latency Pending Statistics

namespace ServerGroups

/-- Servers that all have names of their own are added one after another. -/
theorem foldl_distinct (l held : List Server) (distinct : ((held ++ l).map (·.name)).Nodup) :
    l.foldl (fun servers s => if servers.any fun t => t.name == s.name then servers
      else servers ++ [s]) held = held ++ l := by
  induction l generalizing held with
  | nil => exact (List.append_nil held).symm
  | cons s l ih =>
    have new : (held.any fun t => t.name == s.name) = false := by
      rw [List.map_append, List.map_cons, List.nodup_append] at distinct
      refine List.any_eq_false.2 fun t member same => ?_
      exact distinct.2.2 t.name (List.mem_map_of_mem member) s.name List.mem_cons_self
        (beq_iff_eq.1 same)
    rw [List.foldl_cons, new, if_neg Bool.false_ne_true, ih _ (by simpa using distinct),
      List.append_assoc]
    rfl

/-- A host has its servers in their order, if no two servers share a name. -/
theorem get?_ofServers {l : List Server} (distinct : (l.map (·.name)).Nodup) (host : String) :
    (ofServers l).get? host = if (l.filter fun s => host = s.host) = [] then none
      else some (l.filter fun s => host = s.host) := by
  have own : ((l.filter fun s => host = s.host).map (·.name)).Nodup :=
    distinct.sublist (List.filter_sublist.map _)
  have folded := SortedMap.get?_ofUpdates Server.host (fun _ => ([] : List Server))
    (fun s servers => if servers.any fun t => t.name == s.name then servers else servers ++ [s]) l host
  rw [foldl_distinct _ [] own, List.nil_append] at folded
  exact folded

theorem mem_servers {l : List Server} (distinct : (l.map (·.name)).Nodup) {s : Server} :
    s ∈ (ofServers l).servers ↔ s ∈ l := by
  simp only [servers, List.mem_flatten, SortedMap.mem_values_iff, get?_ofServers distinct]
  constructor
  · rintro ⟨group, ⟨host, found⟩, member⟩
    split at found
    · cases found
    · obtain rfl := Option.some.inj found
      exact (List.mem_filter.1 member).1
  · intro member
    have here : s ∈ l.filter fun t => s.host = t.host :=
      List.mem_filter.2 ⟨member, decide_eq_true rfl⟩
    exact ⟨_, ⟨s.host, if_neg (List.ne_nil_of_mem here)⟩, here⟩

/-- Servers that all have names of their own are grouped without loss. -/
theorem servers_ofServers {l : List Server} (distinct : (l.map (·.name)).Nodup) :
    (ofServers l).servers.Perm l := by
  have group {host : String} {servers : List Server}
      (member : (host, servers) ∈ (ofServers l).entries) :
      servers = l.filter fun s => host = s.host := by
    have found := SortedMap.mem_entries_iff.1 member
    rw [get?_ofServers distinct] at found
    split at found
    · cases found
    · exact (Option.some.inj found).symm
  have apart : (ofServers l).servers.Nodup := by
    refine List.nodup_flatten.2 ⟨fun servers member => ?_, ?_⟩
    · obtain ⟨⟨host, _⟩, inside, rfl⟩ := List.mem_map.1 member
      rw [group inside]
      exact (List.Nodup.of_map _ distinct).filter _
    · refine List.pairwise_map.2 ((ofServers l).ascending.imp_of_mem ?_)
      rintro ⟨host, _⟩ ⟨host', _⟩ member member' before s here there
      rw [group member] at here
      rw [group member'] at there
      have hosts := of_decide_eq_true (List.mem_filter.1 here).2
      have hosts' := of_decide_eq_true (List.mem_filter.1 there).2
      exact SortedMap.key_ne_of_lt before (hosts.trans hosts'.symm)
  exact (List.perm_ext_iff_of_nodup apart (List.Nodup.of_map _ distinct)).2 fun s =>
    mem_servers distinct

theorem map_names {server : String → Server} (named : ∀ id, (server id).name = id)
    (ids : List String) : (ids.map server).map (·.name) = ids := by
  rw [List.map_map]
  exact (List.map_congr_left fun id _ => named id).trans (List.map_id _)

theorem names_ofServers {server : String → Server} (named : ∀ id, (server id).name = id)
    {ids : List String} (distinct : ids.Nodup) :
    ((ofServers (ids.map server)).servers.map (·.name)).Perm ids := by
  have names := map_names named ids
  have grouped := (servers_ofServers (names.symm ▸ distinct)).map (·.name)
  rwa [names] at grouped

/-- The server that stands for an agent of a histogram. -/
def observed (a : Application) (agents : List Agent) (id : String) : Server :=
  match agents.find? fun b => b.id == id with
  | some b => .ofAgent b .running
  | none => ⟨id, id, a.type, .running⟩

theorem ofHistogram_eq (a : Application) (agents : List Agent) (n : NodeHistogram) :
    ofHistogram a agents n = ofServers (n.agents.keys.map (observed a agents)) := rfl

theorem name_observed (a : Application) (agents : List Agent) (id : String) :
    (observed a agents id).name = id := by
  unfold observed
  cases found : agents.find? fun b => b.id == id with
  | none => rfl
  | some b =>
    have same : b.id = id := by simpa using List.find?_some found
    exact same

/-- The servers of a histogram are named as its agents. -/
theorem names_ofHistogram (a : Application) (agents : List Agent) (n : NodeHistogram) :
    ((ofHistogram a agents n).servers.map (·.name)).Perm n.agents.keys :=
  names_ofServers (name_observed a agents) n.agents.keys_nodup

end ServerGroups

namespace ResponseTime

theorem application_add (r : ResponseTime) (agent : String) (code : Int16) (count : Int64) :
    (r.add agent code count).application = r.application := by
  unfold add
  split <;> rfl

/-- Only a code of the scheme makes an agent known. -/
theorem mem_keys_add (r : ResponseTime) (agent : String) (code : Int16) (count : Int64) (id : String) :
    id ∈ (r.add agent code count).agents.keys ↔
      id ∈ r.agents.keys ∨ agent = id ∧ (r.scheme.slotOfCode? code).isSome := by
  have counted : (Histogram.empty r.scheme).addCode? code count =
      (r.scheme.slotOfCode? code).map ((Histogram.empty r.scheme).add · count) := rfl
  rw [add, counted]
  cases r.scheme.slotOfCode? code with
  | none => simp
  | some slot =>
    simp only [Option.map_some, Option.isSome_some, and_true, SortedMap.mem_keys_update]
    rw [or_comm, eq_comm]

theorem mem_keys_addNumbers (numbers : Numbers) (r : ResponseTime) (id : String) :
    id ∈ (numbers.foldl addNumber r).agents.keys ↔ id ∈ r.agents.keys ∨
      ∃ e ∈ numbers, e.1.2.agentId = id ∧ (r.scheme.slotOfCode? e.1.2.slot).isSome := by
  induction numbers generalizing r with
  | nil => simp
  | cons e numbers ih =>
    have scheme : (r.addNumber e).scheme = r.scheme := by
      rw [ResponseTime.scheme, addNumber, application_add]
      rfl
    rw [List.foldl_cons, ih, scheme, addNumber, mem_keys_add]
    simp [or_assoc]

end ResponseTime

namespace NodeHistogram

theorem mem_agents_byAgent (a : Application) (w : TimeWindow) (rs : List ResponseTime) (id : String) :
    id ∈ (ofResponses .byAgent a w rs).agents.keys ↔ ∃ r ∈ rs, id ∈ r.agents.keys := by
  rw [byAgent_eq, Histogram.mem_keys_grouped]
  simp only [parts, List.mem_flatMap, List.mem_map, SortedMap.keys]
  constructor
  · rintro ⟨_, ⟨r, member, e, inside, rfl⟩, rfl⟩
    exact ⟨r, member, e, inside, rfl⟩
  · rintro ⟨r, member, e, inside, rfl⟩
    exact ⟨_, ⟨r, member, e, inside, rfl⟩, rfl⟩

end NodeHistogram

namespace Query

/-- Whether a table has a count of the answers of an agent, under a code that the scheme of the
application has, in one of the rows of that range. -/
def Observed (s : Store) (t : Tables) (a : Application) (w : TimeWindow) (id : String) : Prop :=
  ∃ bytes k family qualifier column count, InRange t a w bytes k ∧
    s.count? ⟨ColumnFamily.selfCounter.tableIn t.space, bytes, family, qualifier⟩ = some count ∧
    ResponseColumn.decode qualifier = .ok column ∧ column.agentId = id ∧
    (a.type.scheme.slotOfCode? column.slot).isSome

/-- Rows make known the agents whose numbers they have under codes of the scheme. -/
theorem mem_agents_addRows (a : Application) (rows : List (RowKey × Row)) (id : String) :
    (∃ r ∈ (rows.foldl (addRow a) .empty).values, id ∈ r.agents.keys) ↔
      ∃ row ∈ rows, ∃ e ∈ numbers ResponseColumn.decode row, e.1.2.agentId = id ∧
        (a.type.scheme.slotOfCode? e.1.2.slot).isSome := by
  have minute (numbers : Numbers) (time : Int) :
      id ∈ (numbers.foldl ResponseTime.addNumber (.empty a time)).agents.keys ↔
        ∃ e ∈ numbers, e.1.2.agentId = id ∧ (a.type.scheme.slotOfCode? e.1.2.slot).isSome := by
    rw [ResponseTime.mem_keys_addNumbers]
    exact or_iff_right List.not_mem_nil
  simp only [SortedMap.mem_values_iff, get?_addRows]
  constructor
  · rintro ⟨r, ⟨time, found⟩, known⟩
    split at found
    · cases found
    · obtain rfl := Option.some.inj found
      obtain ⟨e, member, named⟩ := (minute _ time).1 known
      obtain ⟨row, inside, listed⟩ := List.mem_flatMap.1 (List.mem_filter.1 member).1
      exact ⟨row, inside, e, listed, named⟩
  · rintro ⟨row, inside, e, listed, named⟩
    have time : e.1.1 = row.1 := by
      obtain ⟨_, -, rfl⟩ := List.mem_map.1 listed
      rfl
    have here : row ∈ rows.filter fun r => row.1.slot = r.1.slot :=
      List.mem_filter.2 ⟨inside, decide_eq_true rfl⟩
    refine ⟨_, ⟨row.1.slot, if_neg (List.ne_nil_of_mem here)⟩, (minute _ _).2 ⟨e, ?_, named⟩⟩
    refine List.mem_filter.2 ⟨List.mem_flatMap.2 ⟨row, inside, listed⟩, decide_eq_true ?_⟩
    rw [time]

/-- The agents that are read of an application are those that were observed. -/
theorem mem_responses {s : Store} {t : Tables} {a : Application} {w : TimeWindow}
    {rs : List ResponseTime} (read : responses s t a w = .ok rs) (id : String) :
    (∃ r ∈ rs, id ∈ r.agents.keys) ↔ Observed s t a w id := by
  obtain ⟨found, scanned, same⟩ := answered_of_bind read
  obtain rfl := Except.ok.inj same
  rw [mem_agents_addRows]
  constructor
  · rintro ⟨r, member, e, listed, named, known⟩
    obtain ⟨wanted, held⟩ := (mem_rows scanned).1 member
    obtain ⟨-, family, qualifier, column, count⟩ := (mem_numbers held).1 listed
    exact ⟨r.2.key, r.1, family, qualifier, e.1.2, e.2, wanted, count, column, named, known⟩
  · rintro ⟨bytes, k, family, qualifier, column, count, wanted, counted, read, named, known⟩
    obtain ⟨cells, held⟩ :
        ∃ cells, (s.rows (ColumnFamily.selfCounter.tableIn t.space)).get? bytes = some cells := by
      refine Option.ne_none_iff_exists'.1 fun absent => present_of_count counted ?_
      simp [Store.cell?, SortedMap.getD, absent]
    exact ⟨(k, ⟨bytes, cells⟩), (mem_rows scanned).2 ⟨wanted, held⟩, ((k, column), count),
      (mem_numbers held).2 ⟨rfl, family, qualifier, read, counted⟩, named, known⟩

end Query

/-- Every node of a map is what was made of its application. -/
theorem ApplicationMap.node_of_decorate {ε : Type} {f : Application → Except ε Node}
    {m m' : ApplicationMap} (decorated : m.decorate f = .ok m') {b : Application}
    (member : b ∈ m'.nodes.keys) : ∃ node, m'.nodes.get? b = some node ∧ f b = .ok node := by
  have whole := decorated_of_decorate decorated
  rw [whole.keys] at member
  exact whole.given b member

theorem attached_of_attachment {ε : Type} {histogram : Application → Except ε NodeHistogram}
    {servers : Application → Option NodeHistogram → Except ε ServerGroups} {a : Application}
    {node : Node} (attached : attachment (some histogram) (some servers) a = .ok node) :
    ∃ n g, histogram a = .ok n ∧ servers a (some n) = .ok g ∧ node = ⟨some n, some g⟩ := by
  obtain ⟨n?, g?⟩ := node
  obtain ⟨measured, listed⟩ := (attachment_eq_ok_iff ..).1 attached
  obtain ⟨n, read, rfl⟩ := measured.of_some
  obtain ⟨g, answer, rfl⟩ := listed.of_some
  exact ⟨n, g, read, answer, rfl⟩

/-- An application server that is drawn from the statistics names the agents that were observed, if it
is broken down by agent, and nobody otherwise. -/
theorem names_of_attachment {s : Store} {t : Tables} {detail : Detail} {d : Duplex} {w : TimeWindow}
    {agents : Application → List Agent} {a : Application} (server : a.type.isServer = true)
    {node : Node}
    (attached : attachment (some (NodeHistogram.read detail d w fun a => Query.responses s t a w))
      (some fun a n => .ok (ServerSource.observed.servers d agents a n)) a = .ok node) :
    ∃ g, node.servers = some g ∧ (g.servers.map (·.name)).Nodup ∧
      ∀ id, id ∈ g.servers.map (·.name) ↔ detail = .byAgent ∧ Query.Observed s t a w id := by
  obtain ⟨n, g, read, listed, rfl⟩ := attached_of_attachment attached
  have other : a.type.isUser = false ∧ a.type.isTerminal = false ∧ a.type.isUnknown = false := by
    revert server
    cases a.type <;> decide
  have grouped : ServerGroups.ofHistogram a (agents a) n = g := by
    simpa [ServerSource.servers, other] using listed
  obtain ⟨rs, answered, histogram⟩ : ∃ rs, Query.responses s t a w = .ok rs ∧
      NodeHistogram.ofResponses detail a w rs = n := by
    rw [NodeHistogram.read, if_pos server] at read
    obtain ⟨rs, answered, same⟩ := answered_of_bind read
    exact ⟨rs, answered, Except.ok.inj same⟩
  have names := ServerGroups.names_ofHistogram a (agents a) n
  rw [grouped] at names
  refine ⟨g, rfl, names.nodup_iff.2 n.agents.keys_nodup, fun id => ?_⟩
  rw [names.mem_iff, ← histogram]
  cases detail with
  | byAgent =>
    rw [NodeHistogram.mem_agents_byAgent, Query.mem_responses answered]
    exact (and_iff_right rfl).symm
  | simple =>
    rw [NodeHistogram.simple_eq]
    exact iff_of_false List.not_mem_nil (by simp)

end CallTelemetry.Topology

namespace CallTelemetry.Monitor

open Statistics CallTelemetry.Topology

/-- A map is given what the monitor has when it is done. -/
theorem built_of_decorate {m m' : Monitor} {w : TimeWindow} {detail : Detail} {source : ServerSource}
    {d : Duplex} {map map' : ApplicationMap}
    (decorated : (decorate w (some detail) (some source) d map).run.run m = (.ok map', m')) :
    build (some (NodeHistogram.read detail d w fun a => Query.responses m'.store m'.tables a w))
      (some fun a n => .ok (source.servers d (fun a => m'.agents.select a w.range.last) a n)) map =
        .ok map' := by
  obtain ⟨_, _, -, decorated⟩ := run_of_bind decorated
  obtain ⟨_, _, got, decorated⟩ := run_of_bind decorated
  obtain ⟨same, rfl⟩ := Prod.mk.inj got
  obtain rfl := Except.ok.inj same
  obtain ⟨built, rfl⟩ := Prod.mk.inj decorated
  exact eq_ok_of_mapError built

/-- A map with links is that of the links that were found, with what the monitor has at last. -/
theorem built_of_draw {m m' : Monitor} {r : MapRequest} {map : ApplicationMap}
    (drawn : (draw r).run.run m = (.ok map, m')) (linked : map.links.keys ≠ []) : ∃ d,
      build (some (NodeHistogram.read r.detail d r.window fun a =>
          Query.responses m'.store m'.tables a r.window))
        (some fun a n => .ok (r.servers.servers d
          (fun a => m'.agents.select a r.window.range.last) a n))
        (.ofDuplex r.window.range d) = .ok map := by
  obtain ⟨_, _, -, drawn⟩ := run_of_bind drawn
  obtain ⟨d, _, -, drawn⟩ := run_of_bind drawn
  obtain ⟨_, between, -, drawn⟩ := run_of_bind drawn
  obtain ⟨made, after, decorated, drawn⟩ := run_of_bind drawn
  split at drawn
  · -- the source is drawn alone
    have alike := yields_decorate r.window (some r.detail) (some .registered) .empty
      (.ofSource r.window.range r.source) after map (congrArg Prod.fst drawn)
    exact absurd (congrArg SortedMap.keys alike.links) linked
  · obtain ⟨same, rfl⟩ := Prod.mk.inj drawn
    obtain rfl := Except.ok.inj same
    exact ⟨d, built_of_decorate decorated⟩

/-- Of a map that a monitor draws from the statistics, and that has a link, every application server
names the agents that were observed in the window, each once, if it is broken down by agent, and
nobody otherwise. -/
theorem observed_agents_listed {m m' : Monitor} {r : MapRequest} {map : ApplicationMap}
    (observed : r.servers = .observed) (drawn : (draw r).run.run m = (.ok map, m'))
    (linked : map.links.keys ≠ []) : ∀ a ∈ map.nodes.keys, a.type.isServer = true →
      ∃ node g, map.nodes.get? a = some node ∧ node.servers = some g ∧
        (g.servers.map (·.name)).Nodup ∧ ∀ id, id ∈ g.servers.map (·.name) ↔
          r.detail = .byAgent ∧ Query.Observed m'.store m'.tables a r.window id := by
  intro a member server
  obtain ⟨d, built⟩ := built_of_draw drawn linked
  rw [observed] at built
  obtain ⟨node, found, attached⟩ := ApplicationMap.node_of_decorate built member
  obtain ⟨g, servers, distinct, names⟩ := names_of_attachment server attached
  exact ⟨node, g, found, servers, distinct, names⟩

/-- A monitor of a minute in which an agent answered one call and called a database once. No agent is
registered. -/
def minuteMonitor : Monitor :=
  let cell (f : ColumnFamily) (column : Bytes) (s : Store) : Store :=
    let key := RowKey.encode ⟨"shop", ServiceType.tomcat.code, 60000⟩
    s.increment (f.tableIn "a") ⟨Query.twoBuckets.salting.salted key, f.family, [(column, 1)]⟩
  let store := cell .selfCounter (ResponseColumn.encode ⟨1000, "shop-1"⟩) <|
    cell .callerCounter (CalleeColumn.encode ⟨2100, "orders", "db", 1000, "shop-1"⟩) .empty
  ⟨⟨{ Timeline.start [] with store }, .empty, "a", Query.twoBuckets.salting, 0, 0⟩, [], 0, 9, 0, none⟩

def minuteRequest (detail : Detail) : MapRequest :=
  ⟨⟨"shop", .tomcat⟩, .ofRange ⟨60000, 119999⟩, .standard, detail, .observed⟩

/-- The links of the map of that minute, and the names of the servers of its source. -/
def minuteServers (detail : Detail) : Option (List Edge × Option (List String)) := do
  let map ← ((draw (minuteRequest detail)).run.run minuteMonitor).1.toOption
  let node ← map.nodes.get? ⟨"shop", .tomcat⟩
  return (map.links.keys, node.servers.map fun g => g.servers.map (·.name))

theorem observed_agents_listed_minute : ∃ map m',
    (draw (minuteRequest .byAgent)).run.run minuteMonitor = (.ok map, m') ∧
      ∃ node g, map.nodes.get? ⟨"shop", .tomcat⟩ = some node ∧ node.servers = some g ∧
        g.servers.map (·.name) = ["shop-1"] ∧ ∀ id, id = "shop-1" ↔
          Query.Observed m'.store m'.tables ⟨"shop", .tomcat⟩ (.ofRange ⟨60000, 119999⟩) id := by
  have shown : minuteServers .byAgent =
      some ([⟨⟨"shop", .tomcat⟩, ⟨"orders", .mysql⟩⟩], some ["shop-1"]) := by decide +kernel
  unfold minuteServers at shown
  cases drawn : (draw (minuteRequest .byAgent)).run.run minuteMonitor with
  | mk result m' =>
    rw [drawn] at shown
    obtain ⟨map, answered, shown⟩ := Option.bind_eq_some_iff.1 shown
    obtain ⟨node, found, shown⟩ := Option.bind_eq_some_iff.1 shown
    obtain ⟨links, names⟩ := Prod.mk.inj (Option.some.inj shown)
    obtain ⟨g, servers, names⟩ := Option.map_eq_some_iff.1 names
    cases result with
    | error e => cases answered
    | ok map =>
      cases answered
      obtain ⟨node', g', found', servers', -, listed⟩ := observed_agents_listed rfl drawn
        (by simp [links]) ⟨"shop", .tomcat⟩ (SortedMap.mem_keys_iff.2 (by simp [found])) (by decide)
      cases found.symm.trans found'
      cases servers.symm.trans servers'
      refine ⟨map, m', rfl, node, g, found, servers, names, fun id => ?_⟩
      rw [names] at listed
      exact List.mem_singleton.symm.trans ((listed id).trans (and_iff_right rfl))

/-- The same map without agents has no servers at its source, though the agent was observed. -/
theorem simple_lists_nobody :
    minuteServers .byAgent = some ([⟨⟨"shop", .tomcat⟩, ⟨"orders", .mysql⟩⟩], some ["shop-1"]) ∧
      minuteServers .simple = some ([⟨⟨"shop", .tomcat⟩, ⟨"orders", .mysql⟩⟩], some []) ∧
      Query.Observed minuteMonitor.store minuteMonitor.tables ⟨"shop", .tomcat⟩
        (.ofRange ⟨60000, 119999⟩) "shop-1" := by
  refine ⟨by decide +kernel, by decide +kernel, ?_⟩
  have known : (Query.responses minuteMonitor.store minuteMonitor.tables ⟨"shop", .tomcat⟩
      (.ofRange ⟨60000, 119999⟩)).toOption.any
        (·.any fun r => r.agents.keys.contains "shop-1") = true := by decide +kernel
  cases read : Query.responses minuteMonitor.store minuteMonitor.tables ⟨"shop", .tomcat⟩
      (.ofRange ⟨60000, 119999⟩) with
  | error e =>
    rw [read] at known
    cases known
  | ok rs =>
    rw [read] at known
    obtain ⟨r, member, agent⟩ := List.any_eq_true.1 known
    exact (Query.mem_responses read "shop-1").1 ⟨r, member, by simpa using agent⟩

end CallTelemetry.Monitor
