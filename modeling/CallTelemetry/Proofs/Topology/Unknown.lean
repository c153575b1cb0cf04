import CallTelemetry.Proofs.Topology.Chains
import CallTelemetry.Topology.Drawing

/-! Tallies of unknown codes. None of their counts is kept, but a link is made before the code is
looked at: an edge that only such tallies name becomes a link without traffic, and whatever counts
links or follows them takes it for one. -/
namespace CallTelemetry.Topology

namespace Links

/-- What is known of an edge; a link that is not there has no traffic. -/
def traffic (l : Links) (e : Edge) : Traffic := SortedMap.getD l e .empty

/-- The tallies that are answered to be counted, as one is added after the other. -/
def counted (l : Links) : List Tally → List Tally
  | [] => []
  | t :: tallies =>
    let rest := counted (l.add t).2 tallies
    if (l.add t).1 then t :: rest else rest

/-- The edges that are links although no tally of theirs was counted. -/
def bare (l : Links) (tallies : List Tally) : List Edge :=
  (SortedMap.keys (l.addAll tallies)).filter
    (· ∉ SortedMap.keys (l.addAll (l.counted tallies)))

variable {l : Links} {t : Tally} {tallies : List Tally} {e : Edge}

/-- What is answered depends on the tally alone. -/
theorem counted_eq (l : Links) (tallies : List Tally) :
    l.counted tallies = tallies.filter (·.slot?.isSome) := by
  induction tallies generalizing l with
  | nil => rfl
  | cons t tallies ih =>
    rw [counted, ih, List.filter_cons]
    rfl

theorem addTo_unknown (unknown : t.slot?.isSome = false) (traffic : Traffic) :
    t.addTo traffic = traffic := by
  simp only [Option.isSome_eq_false_iff, Option.isNone_iff_eq_none] at unknown
  simp [Tally.addTo, unknown]

theorem traffic_add (l : Links) (t : Tally) (e : Edge) :
    (l.add t).2.traffic e = if e = t.edge then t.addTo (l.traffic e) else l.traffic e := by
  unfold traffic SortedMap.getD
  rw [add, SortedMap.get?_update]
  by_cases here : e = t.edge
  · simp [here, SortedMap.getD]
  · simp [here]

/-- The traffic of an edge is that of the tallies that name it and are counted. -/
theorem traffic_addAll (l : Links) (tallies : List Tally) (e : Edge) :
    (l.addAll tallies).traffic e =
      (tallies.filter fun t => e = t.edge ∧ t.slot?.isSome).foldl (fun traffic t => t.addTo traffic)
        (l.traffic e) := by
  induction tallies generalizing l with
  | nil => rfl
  | cons t tallies ih =>
    have step : (l.addAll (t :: tallies)).traffic e = ((l.add t).2.addAll tallies).traffic e := rfl
    rw [step, ih, traffic_add]
    by_cases here : e = t.edge
    · cases known : t.slot?.isSome with
      | true => simp [here, known]
      | false => simp [here, known, addTo_unknown known]
    · simp [here]

theorem traffic_counted (l : Links) (tallies : List Tally) (e : Edge) :
    (l.addAll (l.counted tallies)).traffic e = (l.addAll tallies).traffic e := by
  simp [traffic_addAll, counted_eq, List.filter_filter]

theorem get?_eq_traffic (l : Links) (e : Edge) :
    SortedMap.get? l e = if e ∈ SortedMap.keys l then some (l.traffic e) else none := by
  cases found : SortedMap.get? l e <;>
    simp [SortedMap.mem_keys_iff, traffic, SortedMap.getD, found]

theorem mem_bare : e ∈ l.bare tallies ↔
    e ∉ SortedMap.keys l ∧ (∃ t ∈ tallies, t.edge = e) ∧
      ∀ t ∈ tallies, t.edge = e → t.slot? = none := by
  simp only [bare, List.mem_filter, mem_keys_addAll, counted_eq, decide_eq_true_eq, not_or,
    not_exists, not_and]
  constructor
  · rintro ⟨named, absent, others⟩
    refine ⟨absent, named.resolve_left absent, ?_⟩
    intro t member here
    cases slot : t.slot? with
    | none => rfl
    | some _ => exact absurd here (others t ⟨member, by simp [slot]⟩)
  · rintro ⟨absent, named, unknown⟩
    refine ⟨.inr named, absent, ?_⟩
    rintro t ⟨member, known⟩ here
    simp [unknown t member here] at known

theorem mem_keys_of_counted (named : e ∈ SortedMap.keys (l.addAll (l.counted tallies))) :
    e ∈ SortedMap.keys (l.addAll tallies) := by
  rw [mem_keys_addAll, counted_eq] at named
  apply mem_keys_addAll.2
  apply named.imp_right
  rintro ⟨t, member, here⟩
  exact ⟨t, (List.mem_filter.1 member).1, here⟩

theorem get?_addAll_counted (l : Links) (tallies : List Tally) (e : Edge) :
    SortedMap.get? (l.addAll tallies) e =
      if e ∈ l.bare tallies then some .empty
      else SortedMap.get? (l.addAll (l.counted tallies)) e := by
  rw [get?_eq_traffic, get?_eq_traffic, ← traffic_counted]
  by_cases named : e ∈ SortedMap.keys (l.addAll (l.counted tallies))
  · simp [bare, named, mem_keys_of_counted named]
  · have untouched : (l.addAll (l.counted tallies)).traffic e = .empty := by
      cases found : SortedMap.get? (l.addAll (l.counted tallies)) e with
      | none => simp [traffic, SortedMap.getD, found]
      | some _ => exact absurd (SortedMap.mem_keys_iff.2 (by simp [found])) named
    simp [bare, named, untouched]

theorem size_addAll (l : Links) (tallies : List Tally) :
    (l.addAll tallies).size = (l.addAll (l.counted tallies)).size + (l.bare tallies).length := by
  let named := SortedMap.keys (l.addAll (l.counted tallies))
  have kept : named.Perm ((SortedMap.keys (l.addAll tallies)).filter (· ∈ named)) := by
    apply (List.perm_ext_iff_of_nodup (SortedMap.keys_nodup _)
      ((SortedMap.keys_nodup _).sublist List.filter_sublist)).2
    intro e
    simp only [List.mem_filter, decide_eq_true_eq]
    exact ⟨fun member => ⟨mem_keys_of_counted member, member⟩, fun both => both.2⟩
  have split := List.length_eq_countP_add_countP (· ∈ named)
    (l := SortedMap.keys (l.addAll tallies))
  have bare : (l.bare tallies).length =
      (SortedMap.keys (l.addAll tallies)).countP fun e => ¬ e ∈ named :=
    List.countP_eq_length_filter.symm
  have size (l : Links) : (SortedMap.keys l).length = SortedMap.size l := List.length_map _
  have length := kept.length_eq
  rw [← List.countP_eq_length_filter] at length
  simp only [decide_eq_true_eq, size, named] at split length bare
  omega

/-- Tallies of unknown codes change the traffic of no edge; they make links without any. All tallies
make what the counted ones make, and beside it an empty link for each edge that no counted tally
names and that was not known before. -/
theorem addAll_unknown (l : Links) (tallies : List Tally) :
    (∀ e, SortedMap.get? (l.addAll tallies) e =
      if e ∈ l.bare tallies then some .empty
      else SortedMap.get? (l.addAll (l.counted tallies)) e) ∧
    (∀ e, e ∈ l.bare tallies ↔
      e ∉ SortedMap.keys l ∧ (∃ t ∈ tallies, t.edge = e) ∧
        ∀ t ∈ tallies, t.edge = e → t.slot? = none) ∧
    (l.addAll tallies).size = (l.addAll (l.counted tallies)).size + (l.bare tallies).length ∧
    (l.addAll tallies = l.addAll (l.counted tallies) ↔ l.bare tallies = []) := by
  refine ⟨get?_addAll_counted l tallies, fun e => mem_bare, size_addAll l tallies, ?_, ?_⟩
  · intro same
    have sizes := size_addAll l tallies
    rw [← same] at sizes
    exact List.eq_nil_of_length_eq_zero (by omega)
  · intro none
    apply SortedMap.ext_get?
    intro e
    rw [get?_addAll_counted, none]
    rfl

end Links

/-- One tally of an unknown code is answered not to be counted, and still there is a link: the limit
is exceeded, the search goes on to the target, and the map has two nodes and the link. -/
theorem unknown_code_makes_link :
    let t : Tally := ⟨⟨⟨"front", .springBoot⟩, ⟨"order-api", .tomcat⟩⟩, "a1", "h1", 0, 77, 1⟩
    let d : Duplex := ⟨.addAll .empty [t], .empty⟩
    let counted : Duplex := ⟨.addAll .empty (Links.counted .empty [t]), .empty⟩
    (Links.add .empty t).1 = false ∧ Links.counted .empty [t] = [] ∧
      d ≠ counted ∧
      d.outbound.size = 1 ∧ counted.outbound.size = 0 ∧
      d.check 0 = .error (.linkLimitExceeded 1 0) ∧ counted.check 0 = .ok () ∧
      Search.callees d.outbound = [⟨"order-api", .tomcat⟩] ∧ Search.callees counted.outbound = [] ∧
      (ApplicationMap.ofDuplex ⟨0, 1⟩ d).nodes.size = 2 ∧
      (ApplicationMap.ofDuplex ⟨0, 1⟩ d).links.size = 1 ∧
      (ApplicationMap.ofDuplex ⟨0, 1⟩ counted).isEmpty = true := by
  refine ⟨by decide, by decide, by decide, by decide, by decide, rfl, rfl, by decide, by decide,
    by decide, by decide, by decide⟩

end CallTelemetry.Topology
