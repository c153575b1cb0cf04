import CallTelemetry.Proofs.Topology.Links

/-! Links that are gathered in parts. A tally counts as the links that it makes alone, and merging is
commutative and associative. So it is all the same how tallies are spread over parts and in which
order the parts are put together. -/
namespace CallTelemetry.Topology

open Latency

namespace Traffic

/-- Counting between two ends is merging what is counted there alone. -/
theorem merge_add {t : Traffic} (formed : t.Formed) (ends : Edge) (time : Int) (slot : Slot)
    (count : Int64) : t.merge (add .empty ends time slot count) = t.add ends time slot count := by
  have alone : t.merge (add .empty ends time slot count) = SortedMap.update t ends
      (.empty ends.scheme) (·.mergeAt time ((Histogram.empty ends.scheme).add slot count)) := rfl
  rw [alone]
  apply SortedMap.update_congr
  exact Series.mergeAt_add (fits_getD formed ends) time slot count

end Traffic

namespace Links

/-- The links that a tally makes alone. -/
def single (t : Tally) : Links := (add .empty t).2

theorem formed_single (t : Tally) : (single t).Formed := formed_add formed_empty t

theorem merge_single {l : Links} (formed : l.Formed) (t : Tally) :
    l.merge (single t) = (l.add t).2 := by
  have alone : l.merge (single t) = l.join ⟨t.edge, t.addTo .empty⟩ := rfl
  rw [alone]
  apply SortedMap.alter_congr
  cases found : SortedMap.get? l t.edge with
  | none => rfl
  | some traffic =>
    have held : traffic.Formed := formed t.edge traffic found
    cases known : t.slot? with
    | none => simp [Tally.addTo, known, Traffic.merge, SortedMap.empty]
    | some slot => simp [Tally.addTo, known, Traffic.merge_add held]

theorem addAll_append (l : Links) (ts ts' : List Tally) :
    l.addAll (ts ++ ts') = (l.addAll ts).addAll ts' :=
  List.foldl_append

/-- Tallies that are counted one after another are merged one after another. -/
theorem addAll_eq_foldl {l : Links} (formed : l.Formed) (ts : List Tally) :
    l.addAll ts = (ts.map single).foldl merge l := by
  induction ts generalizing l with
  | nil => rfl
  | cons t ts ih =>
    have first : l.addAll (t :: ts) = (l.add t).2.addAll ts := rfl
    rw [first, ih (formed_add formed t), ← merge_single formed]
    rfl

theorem merge_right_comm (l : Links) {a b : Links} (formed : a.Formed) (formed' : b.Formed) :
    (l.merge a).merge b = (l.merge b).merge a := by
  simp only [merge, ← List.foldl_append]
  apply foldl_join_perm l List.perm_append_comm
  intro k member
  rcases List.mem_append.1 member with member | member
  · exact formed_links formed member
  · exact formed_links formed' member

theorem links_filter_edge (l : Links) (e : Edge) :
    (l.links.filter fun k => e = k.edge) = (l.link? e).toList := by
  have own := SortedMap.entries_filter_key l e
  have entries : (l.links.filter fun k => e = k.edge) =
      (l.entries.filter fun f => e = f.1).map fun f => ⟨f.1, f.2⟩ := List.filter_map
  rw [entries, own, link?]
  cases SortedMap.get? l e <;> rfl

theorem empty_merge (l : Links) : merge .empty l = l := by
  have joined : join = fun l k => SortedMap.alter l k.edge fun held =>
      held.elim (some k.traffic) fun traffic => some (traffic.merge k.traffic) := by
    funext l k
    apply SortedMap.alter_congr
    cases SortedMap.get? l k.edge <;> rfl
  apply SortedMap.ext_get?
  intro e
  rw [merge, joined, SortedMap.get?_foldl_alter, links_filter_edge, link?]
  cases SortedMap.get? l e <;> rfl

theorem merge_comm {a b : Links} (formed : a.Formed) (formed' : b.Formed) :
    a.merge b = b.merge a :=
  calc a.merge b
    _ = (merge .empty a).merge b := by rw [empty_merge]
    _ = (merge .empty b).merge a := merge_right_comm .empty formed formed'
    _ = b.merge a := by rw [empty_merge]

theorem merge_assoc {a b c : Links} (formed : a.Formed) (formed' : b.Formed) (formed'' : c.Formed) :
    (a.merge b).merge c = a.merge (b.merge c) :=
  calc (a.merge b).merge c
    _ = (b.merge a).merge c := by rw [merge_comm formed formed']
    _ = (b.merge c).merge a := merge_right_comm b formed formed''
    _ = a.merge (b.merge c) := merge_comm (formed_merge formed' formed'') formed

/-- Tallies may be counted in any order. -/
theorem addAll_perm {l : Links} (formed : l.Formed) {ts ts' : List Tally} (perm : ts.Perm ts') :
    l.addAll ts = l.addAll ts' := by
  rw [addAll_eq_foldl formed, addAll_eq_foldl formed]
  apply (perm.map single).foldl_eq'
  intro a member b member' held
  obtain ⟨t, -, rfl⟩ := List.mem_map.1 member
  obtain ⟨t', -, rfl⟩ := List.mem_map.1 member'
  exact merge_right_comm held (formed_single t) (formed_single t')

theorem merge_add {l m : Links} (formed : l.Formed) (formed' : m.Formed) (t : Tally) :
    l.merge (m.add t).2 = ((l.merge m).add t).2 := by
  rw [← merge_single formed', ← merge_assoc formed formed' (formed_single t),
    merge_single (formed_merge formed formed')]

theorem merge_addAll {l m : Links} (formed : l.Formed) (formed' : m.Formed) (ts : List Tally) :
    l.merge (m.addAll ts) = (l.merge m).addAll ts := by
  induction ts generalizing m with
  | nil => rfl
  | cons t ts ih => exact (ih (formed_add formed' t)).trans (by rw [merge_add formed formed']; rfl)

end Links

/-- Whether links are what some tallies come to in one way or another: tallies are counted one by one,
and links that were gathered apart are joined in any order. -/
inductive Gathers : List Tally → Links → Prop where
  | nothing : Gathers [] .empty
  | add {ts : List Tally} {l : Links} (t : Tally) : Gathers ts l → Gathers (ts ++ [t]) (l.add t).2
  | merge {ts ts' : List Tally} {l l' : Links} {order : List Link} : Gathers ts l → Gathers ts' l' →
      order.Perm l'.links → Gathers (ts ++ ts') (order.foldl Links.join l)

namespace Gathers

variable {ts : List Tally} {l : Links}

/-- Tallies that are spread over parts come to what they do one after another. -/
theorem eq_addAll (gathers : Gathers ts l) : l = Links.addAll .empty ts := by
  induction gathers with
  | nothing => rfl
  | add t _ ih => rw [Links.addAll_append, ← ih, Links.addAll, List.foldl_cons, List.foldl_nil]
  | @merge ts ts' l l' order _ _ perm ih ih' =>
    have formed : l.Formed := ih ▸ Links.formed_addAll Links.formed_empty ts
    have formed' : l'.Formed := ih' ▸ Links.formed_addAll Links.formed_empty ts'
    calc order.foldl Links.join l
      _ = l.merge l' := Links.foldl_join_perm l perm fun k member =>
        Links.formed_links formed' (perm.mem_iff.1 member)
      _ = l.merge (Links.addAll .empty ts') := by rw [← ih']
      _ = l.addAll ts' := Links.merge_addAll formed Links.formed_empty ts'
      _ = Links.addAll .empty (ts ++ ts') := by rw [Links.addAll_append, ← ih]

theorem addAll (gathers : Gathers ts l) (ts' : List Tally) : Gathers (ts ++ ts') (l.addAll ts') := by
  induction ts' generalizing ts l with
  | nil =>
    rw [List.append_nil]
    exact gathers
  | cons t ts' ih =>
    have rest := ih (gathers.add t)
    rwa [List.append_assoc] at rest

end Gathers

/-- However tallies are ordered, spread over parts and put together again, they come to the same links.
Of links like these, merging is commutative and associative, with no links as its identity. -/
theorem gathered_alike :
    (∀ ts ts' l, ts'.Perm ts → (Gathers ts' l ↔ l = Links.addAll .empty ts)) ∧
    (∀ ts l, Gathers ts l → l.Formed) ∧
    ∀ l l' l'' : Links, l.Formed → l'.Formed → l''.Formed →
      l.merge l' = l'.merge l ∧ (l.merge l').merge l'' = l.merge (l'.merge l'') ∧
        l.merge .empty = l ∧ Links.merge .empty l = l := by
  refine ⟨?_, ?_, ?_⟩
  · intro ts ts' l perm
    have same := Links.addAll_perm Links.formed_empty perm
    constructor
    · intro gathers
      exact gathers.eq_addAll.trans same
    · rintro rfl
      rw [← same]
      exact Gathers.nothing.addAll ts'
  · intro ts l gathers
    rw [gathers.eq_addAll]
    exact Links.formed_addAll Links.formed_empty ts
  · intro l l' l'' formed formed' formed''
    exact ⟨Links.merge_comm formed formed', Links.merge_assoc formed formed' formed'', rfl,
      Links.empty_merge l⟩

/-- Calls of a front end, of which one has an unknown code, and a call of its database. -/
def spreadTallies : List Tally :=
  let front : Application := ⟨"front", .springBoot⟩
  let shop : Application := ⟨"shop", .tomcat⟩
  let database : Application := ⟨"orders", .mysql⟩
  [⟨⟨front, shop⟩, "front-1", "shop:80", 60000, 1000, 2⟩,
    ⟨⟨front, shop⟩, "front-1", "shop:80", 60000, -3, 900⟩,
    ⟨⟨shop, database⟩, "shop-1", "db:3306", 60000, 77, 1⟩,
    ⟨⟨front, shop⟩, "front-2", "shop:80", 120000, -3, 700⟩]

/-- Two parts of these tallies, each in an order of its own, with the links of one joined to the other
last first. -/
theorem gathered_alike_parts :
    let part := Links.addAll .empty (spreadTallies.drop 2).reverse
    let part' := Links.addAll .empty (spreadTallies.take 2).reverse
    let ts := (spreadTallies.take 2).reverse ++ (spreadTallies.drop 2).reverse
    let gathered := part.links.reverse.foldl Links.join part'
    ts.Perm spreadTallies ∧ Gathers ts gathered ∧ gathered = Links.addAll .empty spreadTallies ∧
      gathered.size = 2 ∧ part.merge part' = part'.merge part := by
  intro part part' ts gathered
  have perm : ts.Perm spreadTallies := by decide
  have gathers : Gathers ts gathered :=
    .merge (Gathers.nothing.addAll _) (Gathers.nothing.addAll _) (List.reverse_perm _)
  obtain ⟨alike, formed, laws⟩ := gathered_alike
  have formed₁ : part.Formed := formed _ _ (Gathers.nothing.addAll _)
  have formed₂ : part'.Formed := formed _ _ (Gathers.nothing.addAll _)
  exact ⟨perm, gathers, (alike _ _ _ perm).1 gathers, by decide, (laws _ _ _ formed₁ formed₂ formed₁).1⟩

end CallTelemetry.Topology
