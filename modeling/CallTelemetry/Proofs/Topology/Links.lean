import CallTelemetry.Proofs.Latency
import CallTelemetry.Topology.Links

/-! Merging of links. Whatever is counted or merged, the series of an edge keeps the scheme of that
edge; links like that can be merged in any order. -/
namespace CallTelemetry.Topology

open Latency

namespace Traffic

/-- The series between two ends is of the scheme by which those are classed. -/
def Formed (t : Traffic) : Prop :=
  ∀ ends s, SortedMap.get? t ends = some s → s.Fits ends.scheme

theorem formed_empty : Formed .empty := fun _ _ found => by simp at found

theorem fits_getD {t : Traffic} (formed : t.Formed) (ends : Edge) :
    (SortedMap.getD t ends (.empty ends.scheme)).Fits ends.scheme := by
  cases held : SortedMap.get? t ends with
  | none => simpa [SortedMap.getD, held] using Series.fits_empty ends.scheme
  | some s => simpa [SortedMap.getD, held] using formed ends s held

theorem formed_update {t : Traffic} (formed : t.Formed) (ends : Edge) {f : Series → Series}
    (keeps : ∀ s, s.Fits ends.scheme → (f s).Fits ends.scheme) :
    Formed (SortedMap.update t ends (.empty ends.scheme) f) := by
  intro ends' s found
  rw [SortedMap.get?_update] at found
  by_cases same : ends' = ends
  · subst same
    obtain rfl := Option.some.inj (by simpa using found)
    exact keeps _ (fits_getD formed ends')
  · rw [if_neg same] at found
    exact formed ends' s found

theorem formed_add {t : Traffic} (formed : t.Formed) (ends : Edge) (time : Int) (slot : Slot)
    (count : Int64) : (t.add ends time slot count).Formed :=
  formed_update formed ends fun _ fits => Series.fits_add fits time slot count

theorem formed_merge {t : Traffic} (formed : t.Formed) (other : Traffic) :
    (t.merge other).Formed := by
  unfold merge
  generalize other.entries = entries
  induction entries generalizing t with
  | nil => exact formed
  | cons e entries ih =>
    exact ih (formed_update formed e.1 fun _ fits => Series.fits_mergeAll fits _)

theorem addTimes_comm (t : Traffic) (e e' : Edge × Series) :
    (t.addTimes e.1 e.2.slots.entries).addTimes e'.1 e'.2.slots.entries =
      (t.addTimes e'.1 e'.2.slots.entries).addTimes e.1 e.2.slots.entries := by
  refine SortedMap.update_comm t (fun same => by rw [same]) fun _ s => ?_
  rw [← Series.mergeAll_append, ← Series.mergeAll_append]
  exact s.mergeAll_perm List.perm_append_comm

theorem merge_right_comm (t a b : Traffic) : (t.merge a).merge b = (t.merge b).merge a := by
  unfold merge
  rw [← List.foldl_append, ← List.foldl_append]
  exact List.perm_append_comm.foldl_eq' (fun e _ e' _ t => addTimes_comm t e e') t

theorem empty_merge {t : Traffic} (formed : t.Formed) : merge .empty t = t := by
  refine SortedMap.ext_get? fun ends => ?_
  unfold merge addTimes
  rw [SortedMap.get?_foldl_update Prod.fst (fun ends : Edge => Series.empty ends.scheme)
    (fun (e : Edge × Series) s => s.mergeAll e.2.slots.entries), SortedMap.entries_filter_key]
  cases found : SortedMap.get? t ends with
  | none => simp
  | some s => simp [Series.empty_mergeAll (formed ends s found)]

theorem merge_comm {a b : Traffic} (formed : a.Formed) (formed' : b.Formed) :
    a.merge b = b.merge a :=
  calc a.merge b
    _ = (merge .empty a).merge b := by rw [empty_merge formed]
    _ = (merge .empty b).merge a := merge_right_comm .empty a b
    _ = b.merge a := by rw [empty_merge formed']

end Traffic

namespace Links

/-- What counting and merging keeps of links; see `formed_add` and `formed_merge`. -/
def Formed (l : Links) : Prop := ∀ e t, SortedMap.get? l e = some t → t.Formed

theorem formed_empty : Formed .empty := fun _ _ found => by simp at found

theorem formed_getD {l : Links} (formed : l.Formed) (e : Edge) :
    (SortedMap.getD l e .empty).Formed := by
  cases held : SortedMap.get? l e with
  | none => simpa [SortedMap.getD, held] using Traffic.formed_empty
  | some t => simpa [SortedMap.getD, held] using formed e t held

theorem formed_alter {l : Links} (formed : l.Formed) (e : Edge) {f : Option Traffic → Option Traffic}
    (keeps : ∀ v t, (∀ held, v = some held → held.Formed) → f v = some t → t.Formed) :
    Formed (SortedMap.alter l e f) := by
  intro e' t found
  rw [SortedMap.get?_alter] at found
  by_cases same : e' = e
  · rw [if_pos same] at found
    exact keeps _ t (formed e) found
  · rw [if_neg same] at found
    exact formed e' t found

theorem formed_add {l : Links} (formed : l.Formed) (t : Tally) : (l.add t).2.Formed := by
  refine formed_alter formed t.edge fun v traffic held counted => ?_
  obtain rfl := Option.some.inj counted
  have before : (v.getD .empty).Formed := by
    cases v with
    | none => exact Traffic.formed_empty
    | some t => exact held t rfl
  unfold Tally.addTo
  cases t.slot? with
  | none => exact before
  | some slot => exact Traffic.formed_add before _ _ _ _

theorem formed_addAll {l : Links} (formed : l.Formed) (tallies : List Tally) :
    (l.addAll tallies).Formed := by
  unfold addAll
  induction tallies generalizing l with
  | nil => exact formed
  | cons t tallies ih => exact ih (formed_add formed t)

theorem formed_filter {l : Links} (formed : l.Formed) (p : Edge → Traffic → Bool) :
    Formed (SortedMap.filter l p) := by
  intro e t found
  rw [SortedMap.get?_filter, Option.filter_eq_some_iff] at found
  exact formed e t found.1

theorem formed_betweenServers {l : Links} (formed : l.Formed) : l.betweenServers.Formed :=
  formed_filter formed _

theorem formed_join {l : Links} (formed : l.Formed) {k : Link} (formed' : k.traffic.Formed) :
    (l.join k).Formed := by
  refine formed_alter formed k.edge fun v traffic held joined => ?_
  cases v with
  | none =>
    obtain rfl := Option.some.inj joined
    exact formed'
  | some t =>
    obtain rfl := Option.some.inj joined
    exact Traffic.formed_merge (held t rfl) k.traffic

theorem mem_links {l : Links} {k : Link} :
    k ∈ l.links ↔ SortedMap.get? l k.edge = some k.traffic := by
  rw [← SortedMap.mem_entries_iff]
  unfold links
  rw [List.mem_map]
  constructor
  · rintro ⟨e, member, rfl⟩
    exact member
  · intro member
    exact ⟨_, member, rfl⟩

theorem formed_links {l : Links} (formed : l.Formed) {k : Link} (member : k ∈ l.links) :
    k.traffic.Formed :=
  formed k.edge k.traffic (mem_links.1 member)

theorem formed_merge {l other : Links} (formed : l.Formed) (formed' : other.Formed) :
    (l.merge other).Formed := by
  unfold merge
  have each : ∀ k ∈ other.links, k.traffic.Formed := fun k => formed_links formed'
  generalize other.links = links at each
  induction links generalizing l with
  | nil => exact formed
  | cons k links ih =>
    exact ih (formed_join formed (each k List.mem_cons_self))
      fun k' member => each k' (List.mem_cons_of_mem k member)

theorem join_comm (l : Links) {k k' : Link} (formed : k.traffic.Formed)
    (formed' : k'.traffic.Formed) : (l.join k).join k' = (l.join k').join k := by
  refine SortedMap.alter_comm l fun _ v => ?_
  cases v with
  | none => simp only [Traffic.merge_comm formed formed']
  | some t => simp only [Traffic.merge_right_comm]

/-- Links may be joined in any order. -/
theorem foldl_join_perm (l : Links) {ks ks' : List Link} (perm : ks.Perm ks')
    (formed : ∀ k ∈ ks, k.traffic.Formed) : ks.foldl join l = ks'.foldl join l :=
  perm.foldl_eq' (fun k member k' member' l => join_comm l (formed k member) (formed k' member')) l

/-- All of some answers merged. -/
def mergeAll (answers : List Links) : Links := answers.foldl merge .empty

theorem foldl_merge (l : Links) (answers : List Links) :
    answers.foldl merge l = (answers.flatMap links).foldl join l := by
  induction answers generalizing l with
  | nil => rfl
  | cons answer answers ih =>
    rw [List.foldl_cons, ih, List.flatMap_cons, List.foldl_append]
    rfl

end Links

end CallTelemetry.Topology
