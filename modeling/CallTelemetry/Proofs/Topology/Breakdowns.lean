import CallTelemetry.Proofs.Latency.Amounts
import CallTelemetry.Topology.NodeHistogram

/-! Histograms of links and nodes against their parts by time, by host and by agent. Every breakdown
groups the same histograms in its own way, so all of them come to the same again. An application
server has the same histogram at every time whether it is broken down by agent or not. -/
namespace CallTelemetry.Topology

open Latency

namespace Link

theorem histogram_eq (k : Link) :
    k.histogram = .merged k.edge.scheme (k.traffic.values.map Series.total) := by
  rw [Histogram.merged, List.foldl_map]
  rfl

theorem get_histogram (k : Link) (slot : Slot) :
    k.histogram.get slot = slot.amount (k.traffic.values.map (·.total.get slot)) := by
  rw [histogram_eq, Histogram.get_merged, List.map_map]
  rfl

theorem series_eq (k : Link) : k.series =
    (Series.empty k.edge.scheme).mergeAll (k.traffic.values.flatMap (·.slots.entries)) :=
  Series.foldl_merge _ _

theorem targets_eq (k : Link) : k.targets =
    Histogram.grouped k.edge.scheme (·.1.target.name) (·.2.total) k.traffic.entries :=
  rfl

theorem total_series (k : Link) : k.series.total = k.histogram := by
  refine Histogram.ext_get ?_ fun slot => ?_
  · rw [Series.scheme_total, series_eq, Series.scheme_mergeAll, histogram_eq,
      Histogram.scheme_merged]
    rfl
  · rw [series_eq, Series.get_total_mergeAll, List.map_flatMap, Slot.amount_flatMap, get_histogram]
    simp only [Series.get_total_entries]

theorem merged_targets (k : Link) :
    Histogram.merged k.edge.scheme k.targets.values = k.histogram := by
  refine Histogram.ext_get ?_ fun slot => ?_
  · rw [Histogram.scheme_merged, histogram_eq, Histogram.scheme_merged]
  · rw [Histogram.get_merged, targets_eq, Histogram.amount_grouped, get_histogram, SortedMap.values,
      List.map_map]
    rfl

/-- The histograms of all agents and hosts at all times. -/
def parts (k : Link) : List Histogram := k.traffic.values.flatMap (·.slots.values)

theorem additive_histogram {f : Histogram → Int64} (additive : Histogram.Additive f) (k : Link) :
    f k.histogram = (k.parts.map f).sum := by
  rw [histogram_eq, additive.merged, parts, List.map_flatMap, List.flatMap_def, List.sum_flatten,
    List.map_map, List.map_map]
  exact congrArg _ (List.map_congr_left fun s _ => s.additive_total additive)

theorem totalCount_eq (k : Link) : k.totalCount = k.histogram.totalCount := by
  rw [histogram_eq, Histogram.additive_totalCount.merged, List.map_map, List.sum, List.foldr_map]
  simp only [Function.comp_apply, ← Series.totalCount_eq]
  rfl

/-- The calls of a link by time, by host and one by one are the ones that its histogram shows. -/
structure AddsUp (k : Link) : Prop where
  times : k.series.total = k.histogram
  targets : Histogram.merged k.edge.scheme k.targets.values = k.histogram
  count : k.totalCount = k.histogram.totalCount

theorem addsUp (k : Link) : k.AddsUp := ⟨k.total_series, k.merged_targets, k.totalCount_eq⟩

end Link

namespace NodeHistogram

/-- What response times tell of each agent, at the times of a window. -/
def parts (w : TimeWindow) (rs : List ResponseTime) : List (Int × String × Histogram) :=
  rs.flatMap fun r => r.agents.entries.map (w.refine r.time, ·)

theorem foldl_addAgent (l : List (Int × String × Histogram)) (n : NodeHistogram) :
    l.foldl (fun n p => n.addAgent p.1 p.2) n =
      let scheme := n.application.type.scheme
      { application := n.application
        total := (l.map (·.2.2)).foldl Histogram.merge n.total
        agents := l.foldl (fun m p => m.update p.2.1 (.empty scheme) fun h => h.merge p.2.2) n.agents
        times := n.times.mergeAll (l.map fun p => (p.1, p.2.2))
        agentTimes := l.foldl
          (fun m p => m.update p.2.1 (.empty scheme) fun s => s.mergeAt p.1 p.2.2) n.agentTimes } := by
  induction l generalizing n with
  | nil => rfl
  | cons p l ih => exact ih _

theorem byAgent_eq (a : Application) (w : TimeWindow) (rs : List ResponseTime) :
    ofResponses .byAgent a w rs =
      { application := a
        total := .merged a.type.scheme ((parts w rs).map (·.2.2))
        agents := Histogram.grouped a.type.scheme (·.2.1) (·.2.2) (parts w rs)
        times := (Series.empty a.type.scheme).mergeAll ((parts w rs).map fun p => (p.1, p.2.2))
        agentTimes := (parts w rs).foldl (fun m p =>
          m.update p.2.1 (.empty a.type.scheme) fun s => s.mergeAt p.1 p.2.2) .empty } := by
  have folded : ofResponses .byAgent a w rs =
      (parts w rs).foldl (fun n p => n.addAgent p.1 p.2) (empty a) := by
    simp only [ofResponses, parts, List.foldl_flatMap, List.foldl_map]
    rfl
  rw [folded, foldl_addAgent]
  rfl

theorem simple_eq (a : Application) (w : TimeWindow) (rs : List ResponseTime) :
    ofResponses .simple a w rs =
      { empty a with
        total := .merged a.type.scheme (rs.map ResponseTime.merged)
        times := (Series.empty a.type.scheme).mergeAll
          (rs.map fun r => (w.refine r.time, r.merged)) } := by
  have general (n : NodeHistogram) : rs.foldl (addSimple w) n =
      { n with
        total := (rs.map ResponseTime.merged).foldl Histogram.merge n.total
        times := n.times.mergeAll (rs.map fun r => (w.refine r.time, r.merged)) } := by
    induction rs generalizing n with
    | nil => rfl
    | cons r rs ih => exact ih _
  exact general _

/-- A response time as a whole holds what its agents do. -/
theorem amount_agents (w : TimeWindow) (slot : Slot) (rs : List ResponseTime) :
    slot.amount ((parts w rs).map (·.2.2.get slot)) =
      slot.amount (rs.map (·.merged.get slot)) := by
  have whole (r : ResponseTime) : slot.amount
      ((r.agents.entries.map fun e => (w.refine r.time, e)).map (·.2.2.get slot)) =
        r.merged.get slot := by
    rw [ResponseTime.merged, ← Histogram.merged, Histogram.get_merged, SortedMap.values,
      List.map_map, List.map_map]
    rfl
  rw [parts, List.map_flatMap, Slot.amount_flatMap]
  simp only [whole]

theorem parts_at (w : TimeWindow) (rs : List ResponseTime) (time : Int) :
    ((parts w rs).filter fun p => time = p.1) =
      parts w (rs.filter fun r => time = w.refine r.time) := by
  refine filter_flatMap_whole (fun r p member => ?_) rs
  obtain ⟨e, _, rfl⟩ := List.mem_map.1 member
  rfl

/-- Two histograms of a node that show the same of it as a whole. Times at which one has nothing may
be missing in the other. -/
structure Alike (n n' : NodeHistogram) : Prop where
  total : n.total = n'.total
  times : ∀ time slot, n.times.get time slot = n'.times.get time slot

theorem alike_ofResponses (a : Application) (w : TimeWindow) (rs : List ResponseTime) :
    (ofResponses .simple a w rs).Alike (ofResponses .byAgent a w rs) where
  total := by
    rw [simple_eq, byAgent_eq]
    refine Histogram.ext_get ?_ fun slot => ?_
    · simp only [Histogram.scheme_merged]
    · simp only [Histogram.get_merged, List.map_map]
      exact (amount_agents w slot rs).symm
  times time slot := by
    rw [simple_eq, byAgent_eq]
    simp only [Series.get_mergeAll, List.filter_map, List.map_map]
    have agents := amount_agents w slot (rs.filter fun r => time = w.refine r.time)
    rw [← parts_at] at agents
    exact agents.symm

theorem read_ok {ε : Type} (detail : Detail) (d : Duplex) (w : TimeWindow)
    (rs : List ResponseTime) (a : Application) :
    read detail d w (fun _ => (.ok rs : Except ε (List ResponseTime))) a =
      .ok (if a.type.isServer then ofResponses detail a w rs else ofLinks a d) := by
  rw [read]
  split <;> rfl

/-- In both details an application is read to the same histogram at each time, in time order. -/
theorem simple_like_byAgent {ε : Type} (d : Duplex) (w : TimeWindow) (rs : List ResponseTime)
    (a : Application) : ∃ simple byAgent : NodeHistogram,
      read .simple d w (fun _ => (.ok rs : Except ε (List ResponseTime))) a = .ok simple ∧
      read .byAgent d w (fun _ => (.ok rs : Except ε (List ResponseTime))) a = .ok byAgent ∧
      simple.Alike byAgent ∧ simple.times.slots.keys.Pairwise (· < ·) ∧
      byAgent.times.slots.keys.Pairwise (· < ·) := by
  refine ⟨_, _, read_ok .simple d w rs a, read_ok .byAgent d w rs a, ?_, Series.times_ascending _,
    Series.times_ascending _⟩
  cases a.type.isServer with
  | true => exact alike_ofResponses a w rs
  | false => exact ⟨rfl, fun _ _ => rfl⟩

/-- Agents or hosts, and times, come to the total of a node in every slot. The times of an agent of an
application server come to what the agent has. -/
structure AddsUp (n : NodeHistogram) : Prop where
  agents : ∀ slot, n.total.get slot = slot.amount (n.agents.values.map (·.get slot))
  times : ∀ slot, n.total.get slot = slot.amount (n.times.slots.values.map (·.get slot))
  agentTimes : n.application.type.isServer = true →
    ∀ id, n.agents.get? id = (n.agentTimes.get? id).map Series.total

theorem addsUp_byAgent (a : Application) (w : TimeWindow) (rs : List ResponseTime) :
    (ofResponses .byAgent a w rs).AddsUp where
  agents slot := by
    rw [byAgent_eq, Histogram.amount_grouped, Histogram.get_merged, List.map_map]
    rfl
  times slot := by
    rw [byAgent_eq, ← Series.get_total, Series.get_total_mergeAll, Histogram.get_merged,
      List.map_map, List.map_map]
    rfl
  agentTimes _ id := by
    have times := SortedMap.get?_ofUpdates (fun p : Int × String × Histogram => p.2.1)
      (fun _ => Series.empty a.type.scheme) (fun p s => s.mergeAt p.1 p.2.2) (parts w rs) id
    rw [byAgent_eq, Histogram.get?_grouped, times]
    split
    · rfl
    · refine congrArg some (Histogram.ext_get ?_ fun slot => ?_)
      · rw [Histogram.scheme_merged, Series.scheme_total, Series.foldl_mergeAt,
          Series.scheme_mergeAll]
        rfl
      · rw [Histogram.get_merged, Series.foldl_mergeAt, Series.get_total_mergeAll, List.map_map,
          List.map_map]
        rfl

section

variable {κ : Type} [DecidableEq κ] [Ord κ] [Std.TransOrd κ] [Std.LawfulEqOrd κ]

theorem classed_mergeParts (scheme : Scheme) (k : Link) (m parts : SortedMap κ Histogram) :
    (mergeParts k m parts).map (fun _ h => h.classed scheme) = parts.entries.foldl
      (fun m e => m.update e.1 (.empty scheme) fun h => h.merge e.2)
      (m.map fun _ h => h.classed scheme) := by
  unfold mergeParts
  generalize parts.entries = entries
  induction entries generalizing m with
  | nil => rfl
  | cons e entries ih =>
    have first : (m.update e.1 (.empty k.edge.scheme) fun h => h.merge e.2).map
        (fun _ h => h.classed scheme) = (m.map fun _ h => h.classed scheme).update e.1 (.empty scheme)
          fun h => h.merge e.2 := SortedMap.map_update rfl rfl
    rw [List.foldl_cons, ih, first, List.foldl_cons]

/-- All parts of links, merged. -/
def allParts (parts : Link → SortedMap κ Histogram) (links : List Link) : SortedMap κ Histogram :=
  links.foldl (fun m k => mergeParts k m (parts k)) .empty

/-- The schemes of the links apart, their parts are grouped by host or by time. -/
theorem classed_allParts (scheme : Scheme) (parts : Link → SortedMap κ Histogram)
    (links : List Link) : (allParts parts links).map (fun _ h => h.classed scheme) =
      Histogram.grouped scheme (·.1) (·.2) (links.flatMap fun k => (parts k).entries) := by
  have general (m : SortedMap κ Histogram) :
      (links.foldl (fun m k => mergeParts k m (parts k)) m).map (fun _ h => h.classed scheme) =
        (links.flatMap fun k => (parts k).entries).foldl
          (fun m e => m.update e.1 (.empty scheme) fun h => h.merge e.2)
          (m.map fun _ h => h.classed scheme) := by
    induction links generalizing m with
    | nil => rfl
    | cons k links ih =>
      rw [List.foldl_cons, ih, classed_mergeParts, List.flatMap_cons, List.foldl_append]
  exact general .empty

theorem mem_keys_allParts {parts : Link → SortedMap κ Histogram} {links : List Link} {key : κ} :
    key ∈ (allParts parts links).keys ↔ ∃ k ∈ links, key ∈ (parts k).keys := by
  rw [← SortedMap.keys_map _ fun _ h => h.classed .standard, classed_allParts,
    Histogram.mem_keys_grouped]
  constructor
  · rintro ⟨e, member, rfl⟩
    obtain ⟨k, inside, here⟩ := List.mem_flatMap.1 member
    exact ⟨k, inside, List.mem_map_of_mem here⟩
  · rintro ⟨k, inside, member⟩
    obtain ⟨e, here, rfl⟩ := List.mem_map.1 member
    exact ⟨e, List.mem_flatMap.2 ⟨k, inside, here⟩, rfl⟩

/-- The parts of links come to what each link has in its own. -/
theorem amount_allParts (slot : Slot) (parts : Link → SortedMap κ Histogram) (links : List Link) :
    slot.amount ((allParts parts links).values.map (·.get slot)) =
      slot.amount (links.map fun k => slot.amount ((parts k).values.map (·.get slot))) := by
  have values (m : SortedMap κ Histogram) : m.values.map (·.get slot) =
      (m.map fun _ h => h.classed .standard).values.map (·.get slot) := by
    simp [SortedMap.values, SortedMap.map]
  rw [values, classed_allParts, Histogram.amount_grouped, List.map_flatMap, Slot.amount_flatMap]
  simp only [SortedMap.values, List.map_map, Function.comp_def]

end

theorem ofLinks_eq (a : Application) (d : Duplex) : ofLinks a d =
    { application := a
      total := .merged a.type.scheme ((measuredLinks a d).map Link.histogram)
      agents := allParts Link.targets (measuredLinks a d)
      times := ⟨a.type.scheme, allParts (·.series.slots) (measuredLinks a d)⟩
      agentTimes := .empty } := by
  simp only [ofLinks, Histogram.merged, List.foldl_map]
  rfl

theorem addsUp_ofLinks (a : Application) (d : Duplex) (other : a.type.isServer = false) :
    (ofLinks a d).AddsUp := by
  have whole (slot : Slot) : (ofLinks a d).total.get slot =
      slot.amount ((measuredLinks a d).map (·.histogram.get slot)) := by
    rw [ofLinks_eq, Histogram.get_merged, List.map_map]
    rfl
  refine ⟨fun slot => ?_, fun slot => ?_, fun server => absurd server (by simp [ofLinks_eq, other])⟩
  · have hosts (k : Link) : slot.amount (k.targets.values.map (·.get slot)) =
        k.histogram.get slot := by
      rw [← k.merged_targets, Histogram.get_merged]
    rw [whole, ofLinks_eq, amount_allParts]
    simp only [hosts]
  · have times (k : Link) : slot.amount (k.series.slots.values.map (·.get slot)) =
        k.histogram.get slot := by
      rw [← k.total_series, Series.get_total]
    rw [whole, ofLinks_eq, amount_allParts]
    simp only [times]

/-- However a node is read by agent, its breakdowns add up, and so do those of any link. -/
theorem breakdowns_add_up : (∀ k : Link, k.AddsUp) ∧
    ∀ {ε : Type} (d : Duplex) (w : TimeWindow) (rs : List ResponseTime) (a : Application),
      ∃ n, read .byAgent d w (fun _ => (.ok rs : Except ε (List ResponseTime))) a = .ok n ∧
        n.application = a ∧ n.AddsUp := by
  refine ⟨Link.addsUp, fun d w rs a => ⟨_, read_ok .byAgent d w rs a, ?_⟩⟩
  cases server : a.type.isServer with
  | true => exact ⟨by rw [if_pos rfl, byAgent_eq], addsUp_byAgent a w rs⟩
  | false => exact ⟨rfl, addsUp_ofLinks a d server⟩

end NodeHistogram

end CallTelemetry.Topology
