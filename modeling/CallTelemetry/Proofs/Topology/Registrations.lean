import CallTelemetry.Proofs.Topology.ObservedServers

/-! Agents that register again and again. What was registered last under an identifier is all that counts
of it, and the servers of a node are told from that, each once and under its own host. -/
namespace CallTelemetry.Topology

namespace Registry

/-- What is registered after agents have registered one after the other. -/
def ofList (l : List Agent) : Registry := l.foldl register []

/-- Whether a registration is the latest of its identifier. -/
def Latest (l : List Agent) (a : Agent) : Prop :=
  ∃ before after, l = before ++ a :: after ∧ ∀ b ∈ after, b.id ≠ a.id

theorem mem_register {r : Registry} {a b : Agent} :
    b ∈ r.register a ↔ b ∈ r ∧ b.id ≠ a.id ∨ b = a := by
  simp [register]

theorem register_distinct {r : Registry} (distinct : (r.map (·.id)).Nodup) (a : Agent) :
    ((r.register a).map (·.id)).Nodup := by
  rw [register, List.map_append, List.map_cons, List.map_nil, List.nodup_append]
  refine ⟨distinct.sublist (List.filter_sublist.map _), List.nodup_singleton _, ?_⟩
  intro id member id' single same
  obtain ⟨b, kept, rfl⟩ := List.mem_map.1 member
  obtain rfl := List.mem_singleton.1 single
  exact absurd same (by simpa using (List.mem_filter.1 kept).2)

/-- A registration takes the place of the one before it, and of no other. -/
theorem latest_concat {l : List Agent} {a b : Agent} :
    Latest (l ++ [a]) b ↔ Latest l b ∧ b.id ≠ a.id ∨ b = a := by
  constructor
  · rintro ⟨before, after, parts, last⟩
    -- The new registration is the one that is asked for, or it stands behind that one.
    rcases List.eq_nil_or_concat' after with rfl | ⟨after, a', rfl⟩
    · exact .inr (List.append_inj' parts rfl |>.2 |> List.singleton_inj.1 |>.symm)
    · rw [← List.cons_append, ← List.append_assoc] at parts
      obtain ⟨rfl, same⟩ := List.append_inj' parts rfl
      obtain rfl := List.singleton_inj.1 same
      refine .inl ⟨⟨before, after, rfl, fun c member => last c (List.mem_append_left _ member)⟩, ?_⟩
      exact (last a (List.mem_append_right _ List.mem_cons_self)).symm
  · rintro (⟨⟨before, after, rfl, last⟩, apart⟩ | rfl)
    · refine ⟨before, after ++ [a], by simp, fun c member => ?_⟩
      rcases List.mem_append.1 member with early | late
      · exact last c early
      · rw [List.mem_singleton.1 late]
        exact apart.symm
    · exact ⟨l, [], rfl, nofun⟩

theorem mem_ofList {l : List Agent} {a : Agent} : a ∈ ofList l ↔ Latest l a := by
  induction l using List.reverseRecOn with
  | nil => simp [ofList, Latest]
  | append_singleton l b ih =>
    rw [ofList, List.foldl_append, ← ofList, List.foldl_cons, List.foldl_nil, mem_register, ih,
      latest_concat]

theorem ofList_distinct (l : List Agent) : ((ofList l).map (·.id)).Nodup := by
  induction l using List.reverseRecOn with
  | nil => exact List.nodup_nil
  | append_singleton l a ih =>
    rw [ofList, List.foldl_append, ← ofList]
    exact register_distinct ih a

/-- Whether an agent is known to have been of an application by some time. -/
structure Registered (l : List Agent) (a : Application) (last : Int) (b : Agent) : Prop where
  latest : Latest l b
  application : b.application = a
  started : b.startTime.toInt ≤ last

theorem mem_select {l : List Agent} {a : Application} {last : Int} {b : Agent} :
    b ∈ (ofList l).select a last ↔ Registered l a last b := by
  simp only [select, List.mem_filter, mem_ofList, Bool.and_eq_true, beq_iff_eq, decide_eq_true_eq]
  exact ⟨fun ⟨latest, application, started⟩ => ⟨latest, application, started⟩,
    fun ⟨latest, application, started⟩ => ⟨latest, application, started⟩⟩

theorem select_distinct (l : List Agent) (a : Application) (last : Int) :
    (((ofList l).select a last).map (·.id)).Nodup :=
  (ofList_distinct l).sublist (List.filter_sublist.map _)

end Registry

namespace ServerGroups

/-- Whether groups hold the servers that are told, each once and under its own host, and have no host
without a server. -/
structure Lists (g : ServerGroups) (told : Server → Prop) : Prop where
  listed : ∀ s, s ∈ g.servers ↔ told s
  once : (g.servers.map (·.name)).Nodup
  hosted : ∀ host group, g.get? host = some group → group ≠ [] ∧ ∀ s ∈ group, s.host = host

theorem lists_ofServers {l : List Server} (distinct : (l.map (·.name)).Nodup) :
    (ofServers l).Lists (· ∈ l) where
  listed _ := mem_servers distinct
  once := ((servers_ofServers distinct).map (·.name)).nodup_iff.2 distinct
  hosted host group found := by
    rw [get?_ofServers distinct] at found
    split at found
    next => cases found
    next some =>
      obtain rfl := Option.some.inj found
      exact ⟨some, fun s member => (of_decide_eq_true (List.mem_filter.1 member).2).symm⟩

theorem Lists.congr {g : ServerGroups} {told told' : Server → Prop} (lists : g.Lists told)
    (same : ∀ s, told s ↔ told' s) : g.Lists told' where
  listed s := (lists.listed s).trans (same s)
  once := lists.once
  hosted := lists.hosted

variable {l : List Agent} {a : Application} {last : Int}

theorem lists_ofAgents : (ofAgents ((Registry.ofList l).select a last)).Lists fun s =>
    ∃ b, Registry.Registered l a last b ∧ s = .ofAgent b b.status := by
  have names : (((Registry.ofList l).select a last).map fun b => Server.ofAgent b b.status).map
      (·.name) = ((Registry.ofList l).select a last).map (·.id) := by
    rw [List.map_map]
    rfl
  refine (lists_ofServers (names ▸ Registry.select_distinct l a last)).congr fun s => ?_
  simp only [List.mem_map, Registry.mem_select, eq_comm]

/-- The host that a server is listed under. -/
structure Placed (l : List Agent) (a : Application) (last : Int) (s : Server) : Prop where
  known : ∀ b, Registry.Registered l a last b → b.id = s.name → s.host = b.host
  unknown : (∀ b, Registry.Registered l a last b → b.id ≠ s.name) → s.host = s.name

theorem observed_eq_iff {s : Server} :
    observed a ((Registry.ofList l).select a last) s.name = s ↔
      s.type = a.type ∧ s.status = .running ∧ Placed l a last s := by
  obtain ⟨host, name, type, status⟩ := s
  unfold observed
  cases found : ((Registry.ofList l).select a last).find? fun b => b.id == name with
  | none =>
    have absent (b : Agent) (here : Registry.Registered l a last b) : b.id ≠ name := by
      simpa using List.find?_eq_none.1 found b (Registry.mem_select.2 here)
    have placed : Placed l a last ⟨host, name, type, status⟩ ↔ host = name :=
      ⟨fun placed => placed.unknown absent,
        fun same => ⟨fun b here named => absurd named (absent b here), fun _ => same⟩⟩
    rw [placed]
    simp only [Server.mk.injEq]
    grind
  | some b =>
    have member := List.mem_of_find?_eq_some found
    have here := Registry.mem_select.1 member
    have named : b.id = name := by simpa using List.find?_some found
    -- No other agent of that name is registered, so its host is the only one to be listed under.
    have placed : Placed l a last ⟨host, name, type, status⟩ ↔ host = b.host := by
      refine ⟨fun placed => placed.known b here named, fun same => ⟨fun b' here' named' => ?_,
        fun absent => absurd named (absent b here)⟩⟩
      have alike : b' = b := List.inj_on_of_nodup_map (Registry.select_distinct l a last)
        (Registry.mem_select.2 here') member (named'.trans named.symm)
      rw [alike]
      exact same
    rw [placed]
    simp only [Server.ofAgent, here.application, named, Server.mk.injEq]
    grind

theorem lists_ofHistogram (n : NodeHistogram) :
    (ofHistogram a ((Registry.ofList l).select a last) n).Lists fun s =>
      s.name ∈ n.agents.keys ∧ s.type = a.type ∧ s.status = .running ∧ Placed l a last s := by
  generalize server_eq : observed a ((Registry.ofList l).select a last) = server
  have named (id : String) : (server id).name = id := server_eq ▸ name_observed a _ id
  have names := map_names named n.agents.keys
  rw [ofHistogram_eq, server_eq]
  refine (lists_ofServers (names.symm ▸ n.agents.keys_nodup)).congr fun s => ?_
  rw [List.mem_map, ← observed_eq_iff, server_eq]
  constructor
  · rintro ⟨id, member, rfl⟩
    rw [named]
    exact ⟨member, rfl⟩
  · rintro ⟨member, same⟩
    exact ⟨s.name, member, same⟩

end ServerGroups

/-- Of all that has ever registered, a node lists just the agents whose latest registration is of its
application and not later than the end of the window; drawn from the statistics, it lists those that
its histogram knows, wherever such a registration has them. -/
theorem servers_follow_registrations {a : Application} (other : a.type.isUser = false)
    (instrumented : a.type.isTerminal = false) (known : a.type.isUnknown = false) (l : List Agent)
    (d : Duplex) (w : TimeWindow) :
    let agents := fun a => (Registry.ofList l).select a w.range.last
    (∀ n, (ServerSource.registered.servers d agents a n).Lists fun s =>
      ∃ b, Registry.Registered l a w.range.last b ∧ s = ⟨b.host, b.id, a.type, b.status⟩) ∧
    ∀ n, (ServerSource.observed.servers d agents a (some n)).Lists (fun s =>
        s.name ∈ n.agents.keys ∧ s.type = a.type ∧ s.status = .running ∧
          ServerGroups.Placed l a w.range.last s) ∧
      ((ServerSource.observed.servers d agents a (some n)).servers.map (·.name)).Perm
        n.agents.keys := by
  intro agents
  refine ⟨fun n => ?_, fun n => ?_⟩
  · have drawn : ServerSource.registered.servers d agents a n = .ofAgents (agents a) := by
      simp [ServerSource.servers, other, instrumented, known]
    rw [drawn]
    refine ServerGroups.lists_ofAgents.congr fun s => exists_congr fun b => ?_
    exact and_congr_right fun here => by rw [Server.ofAgent, here.application]
  · have drawn : ServerSource.observed.servers d agents a (some n) = .ofHistogram a (agents a) n := by
      simp [ServerSource.servers, other, instrumented, known]
    rw [drawn]
    exact ⟨ServerGroups.lists_ofHistogram n, ServerGroups.names_ofHistogram a (agents a) n⟩

/-- Agents of a shop: one moves to another host and one to another application, one is not restarted
before it is late, and one has been shut down. -/
def shopHistory : List Agent :=
  let shop : Application := ⟨"shop", .tomcat⟩
  let agent (id host : String) (application : Application) (startTime : Int64)
      (status : AgentStatus) : Agent := ⟨application, id, none, host, "10.0.0.1", startTime, status⟩
  [agent "shop-1" "a" shop 100 .running, agent "shop-2" "a" shop 100 .running,
    agent "shop-3" "a" shop 100 .running, agent "shop-4" "b" shop 100 .running,
    agent "shop-1" "b" shop 200 .running, agent "shop-2" "a" ⟨"orders", .tomcat⟩ 300 .running,
    agent "shop-3" "a" shop 900000 .running, agent "shop-4" "a" shop 400 .shutdown]

/-- A histogram of an agent that has moved, and of one that is not registered. -/
def shopHistogram : NodeHistogram :=
  let n := NodeHistogram.empty ⟨"shop", .tomcat⟩
  { n with agents := (n.agents.insert "shop-1" (.empty .standard)).insert "shop-2" (.empty .standard) }

def shopServers (source : ServerSource) : ServerGroups :=
  source.servers .empty (fun a => (Registry.ofList shopHistory).select a 119999) ⟨"shop", .tomcat⟩
    (some shopHistogram)

theorem servers_follow_registrations_moved :
    (shopServers .registered).servers = [⟨"a", "shop-4", .tomcat, .shutdown⟩,
      ⟨"b", "shop-1", .tomcat, .running⟩] ∧
    (∀ s, s ∈ (shopServers .registered).servers ↔ ∃ b,
      Registry.Registered shopHistory ⟨"shop", .tomcat⟩ 119999 b ∧
        s = ⟨b.host, b.id, .tomcat, b.status⟩) ∧
    (shopServers .observed).servers = [⟨"b", "shop-1", .tomcat, .running⟩,
      ⟨"shop-2", "shop-2", .tomcat, .running⟩] ∧
    ((shopServers .observed).servers.map (·.name)).Perm shopHistogram.agents.keys := by
  obtain ⟨registered, observed⟩ := servers_follow_registrations (a := ⟨"shop", .tomcat⟩) (by decide)
    (by decide) (by decide) shopHistory .empty (.ofRange ⟨60000, 119999⟩)
  exact ⟨by decide +kernel, (registered (some shopHistogram)).listed, by decide +kernel,
    (observed shopHistogram).2⟩

end CallTelemetry.Topology
