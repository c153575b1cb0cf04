import CallTelemetry.Proofs.Latency
import CallTelemetry.Topology.Links

/-! Links as they are counted up. What additions make of links depends only on where they count, and
on what those that count in one slot of one histogram come to. -/
namespace CallTelemetry

/-- What is chosen from lists is what the chosen of them hold, if each is chosen as a whole. -/
theorem filter_flatMap_whole {f : α → List β} {p : β → Bool} {q : α → Bool}
    (whole : ∀ a, ∀ b ∈ f a, p b = q a) (l : List α) :
    (l.flatMap f).filter p = (l.filter q).flatMap f := by
  induction l with
  | nil => rfl
  | cons a l ih =>
    rw [List.flatMap_cons, List.filter_append, ih]
    cases chosen : q a with
    | true =>
      have all : (f a).filter p = f a :=
        List.filter_eq_self.2 fun b member => (whole a b member).trans chosen
      rw [all, List.filter_cons_of_pos chosen, List.flatMap_cons]
    | false =>
      have none : (f a).filter p = [] :=
        List.filter_eq_nil_iff.2 fun b member => by simp [whole a b member, chosen]
      rw [none, List.nil_append, List.filter_cons_of_neg (by simp [chosen])]

namespace Latency

namespace Slot

/-- How a slot takes in a value. -/
def join [Add ν] [Max ν] : Slot → ν → ν → ν
  | max => Max.max
  | _ => (· + ·)

/-- What values come to in an empty slot. They are words, or the numbers of words, which do not wrap
around. -/
def amount [Add ν] [Max ν] [Zero ν] (slot : Slot) (values : List ν) : ν := values.foldr slot.join 0

variable {ν : Type} [AddCommMonoid ν] [LinearOrder ν]

theorem join_assoc (slot : Slot) (a b c : ν) :
    slot.join (slot.join a b) c = slot.join a (slot.join b c) := by
  cases slot
  case max => exact max_assoc a b c
  all_goals exact add_assoc a b c

theorem join_comm (slot : Slot) (a b : ν) : slot.join a b = slot.join b a := by
  cases slot
  case max => exact max_comm a b
  all_goals exact add_comm a b

@[simp] theorem amount_nil (slot : Slot) : slot.amount ([] : List ν) = 0 := rfl

@[simp] theorem amount_cons (slot : Slot) (value : ν) (values : List ν) :
    slot.amount (value :: values) = slot.join value (slot.amount values) := rfl

/-- An empty slot adds nothing to what values come to. -/
theorem join_amount (slot : Slot) (values : List ν) :
    slot.join 0 (slot.amount values) = slot.amount values := by
  cases slot
  case max =>
    refine max_eq_right ?_
    induction values with
    | nil => exact le_refl 0
    | cons value values ih => exact le_max_of_le_right ih
  all_goals exact zero_add _

theorem amount_append (slot : Slot) (values values' : List ν) :
    slot.amount (values ++ values') = slot.join (slot.amount values) (slot.amount values') := by
  induction values with
  | nil => exact (slot.join_amount values').symm
  | cons value values ih => rw [List.cons_append, amount_cons, ih, amount_cons, join_assoc]

theorem amount_perm (slot : Slot) {values values' : List ν} (perm : values.Perm values') :
    slot.amount values = slot.amount values' := by
  refine perm.foldr_eq' (fun a _ b _ c => ?_) 0
  rw [← join_assoc, ← join_assoc, slot.join_comm a]

/-- The values of one key can be taken apart from the others. -/
theorem amount_apart [DecidableEq α] (slot : Slot) (l : List (α × ν)) (a : α) :
    slot.amount (l.map (·.2)) = slot.join (slot.amount ((l.filter fun e => e.1 = a).map (·.2)))
      (slot.amount ((l.filter fun e => !(e.1 = a)).map (·.2))) := by
  rw [← amount_append, ← List.map_append]
  exact slot.amount_perm ((List.filter_append_perm _ l).symm.map _)

theorem filter_apart [DecidableEq α] (l : List (α × β)) {a b : α} (apart : b ≠ a) :
    ((l.filter fun e => !(e.1 = a)).filter fun e => e.1 = b) = l.filter fun e => e.1 = b := by
  rw [List.filter_filter]
  refine List.filter_congr fun e _ => ?_
  by_cases here : e.1 = b <;> simp [here, apart]

/-- Keys each of which comes to nothing come to nothing together. -/
theorem amount_of_nothing [DecidableEq α] (slot : Slot) (n : Nat) : ∀ l : List (α × ν),
    l.length ≤ n → (∀ e ∈ l, slot.amount ((l.filter fun e' => e'.1 = e.1).map (·.2)) = 0) →
      slot.amount (l.map (·.2)) = 0 := by
  induction n with
  | zero =>
    intro l short _
    rw [List.length_eq_zero_iff.1 (Nat.le_zero.1 short)]
    rfl
  | succ n ih =>
    intro l short nothing
    cases l with
    | nil => rfl
    | cons first rest =>
      let others := (first :: rest).filter fun e => !(e.1 = first.1)
      have fewer : others.length ≤ n := by
        have : others.length ≤ rest.length := by simp [others, List.length_filter_le]
        have : (first :: rest).length = rest.length + 1 := rfl
        omega
      have still (e : α × ν) (member : e ∈ others) :
          slot.amount ((others.filter fun e' => e'.1 = e.1).map (·.2)) = 0 := by
        obtain ⟨member, apart⟩ := List.mem_filter.1 member
        rw [filter_apart _ (by simpa using apart)]
        exact nothing e member
      rw [slot.amount_apart _ first.1, nothing first List.mem_cons_self,
        ih others fewer still]
      exact slot.join_amount ([] : List ν)

/-- Entries of which each tells what a list has for its key tell what the list comes to, if they leave
out only keys that come to nothing. -/
theorem amount_of_groups [DecidableEq α] (slot : Slot) {entries : List (α × ν)}
    (distinct : entries.Pairwise fun e e' => e.1 ≠ e'.1) : ∀ l : List (α × ν),
    (∀ e ∈ entries, slot.amount [e.2] = slot.amount ((l.filter fun e' => e'.1 = e.1).map (·.2))) →
    (∀ e ∈ l, (∀ e' ∈ entries, e'.1 ≠ e.1) →
      slot.amount ((l.filter fun e' => e'.1 = e.1).map (·.2)) = 0) →
    slot.amount (entries.map (·.2)) = slot.amount (l.map (·.2)) := by
  induction entries with
  | nil =>
    intro l _ missing
    rw [slot.amount_of_nothing l.length l (Nat.le_refl _) fun e member => missing e member (by simp)]
    rfl
  | cons first entries ih =>
    intro l kept missing
    obtain ⟨others, distinct⟩ := List.pairwise_cons.1 distinct
    have rest := ih distinct (l.filter fun e => !(e.1 = first.1)) (fun e member => by
      rw [filter_apart _ (others e member).symm]
      exact kept e (List.mem_cons_of_mem _ member)) (fun e member absent => by
      obtain ⟨member, apart⟩ := List.mem_filter.1 member
      have apart : e.1 ≠ first.1 := by simpa using apart
      rw [filter_apart _ apart]
      refine missing e member fun e' member' => ?_
      rcases List.mem_cons.1 member' with rfl | member'
      · exact apart.symm
      · exact absent e' member')
    rw [slot.amount_apart l first.1, ← kept first List.mem_cons_self, ← rest, ← amount_append]
    rfl

end Slot

namespace Histogram

theorem get_add (h : Histogram) (slot' : Slot) (value : Int64) (slot : Slot) :
    (h.add slot' value).get slot =
      if slot' = slot then slot.join (h.get slot) value else h.get slot := by
  cases slot' <;> cases slot <;> rfl

theorem ext_get {h h' : Histogram} (scheme : h.scheme = h'.scheme)
    (slots : ∀ slot, h.get slot = h'.get slot) : h = h' := by
  have fast := slots .fast
  have normal := slots .normal
  have slow := slots .slow
  have verySlow := slots .verySlow
  have error := slots .error
  have sum := slots .sum
  have max := slots .max
  cases h
  cases h'
  simp_all [get]

end Histogram

end Latency

namespace Topology

open Latency

/-- A value that counts in one slot of one histogram of some links. -/
structure Addition where
  edge : Edge
  ends : Edge
  time : Int
  slot : Slot
  value : Int64

/-- The histogram that an addition counts in. -/
def Addition.place (a : Addition) : Edge × Edge × Int × Unit := (a.edge, a.ends, a.time, ())

def Links.addSlot (l : Links) (a : Addition) : Links :=
  SortedMap.update l a.edge .empty fun t => t.add a.ends a.time a.slot a.value

def Links.ofAdditions (l : List Addition) : Links := l.foldl Links.addSlot .empty

def Traffic.ofAdditions (l : List Addition) : Traffic :=
  l.foldl (fun t a => t.add a.ends a.time a.slot a.value) .empty

end Topology

namespace Latency

open CallTelemetry.Topology

def Histogram.ofAdditions (scheme : Scheme) (l : List Addition) : Histogram :=
  l.foldl (fun h a => h.add a.slot a.value) (.empty scheme)

def Series.ofAdditions (scheme : Scheme) (l : List Addition) : Series :=
  l.foldl (fun s a => s.add a.time a.slot a.value) (.empty scheme)

/-- A slot holds what its own additions come to. -/
theorem Histogram.get_ofAdditions (scheme : Scheme) (l : List Addition) (slot : Slot) :
    (ofAdditions scheme l).get slot =
      slot.amount ((l.filter fun a => a.slot = slot).map (·.value)) := by
  have general (h : Histogram) (fits : h.Fits scheme) :
      (l.foldl (fun h a => h.add a.slot a.value) h).get slot = slot.join (h.get slot)
        (slot.amount ((l.filter fun a => a.slot = slot).map (·.value))) := by
    induction l generalizing h with
    | nil =>
      cases slot
      case max => exact (max_eq_left fits.2).symm
      all_goals exact (add_zero _).symm
    | cons a l ih =>
      rw [List.foldl_cons, ih _ (Histogram.fits_add fits _ _), get_add]
      by_cases here : a.slot = slot
      · simp [here, Slot.join_assoc]
      · simp [here]
  have start : (empty scheme).get slot = 0 := by cases slot <;> rfl
  rw [ofAdditions, general _ (Histogram.fits_empty scheme), start, Slot.join_amount]

theorem Histogram.scheme_ofAdditions (scheme : Scheme) (l : List Addition) :
    (ofAdditions scheme l).scheme = scheme := by
  have general (h : Histogram) (fits : h.Fits scheme) :
      (l.foldl (fun h a => h.add a.slot a.value) h).Fits scheme := by
    induction l generalizing h with
    | nil => exact fits
    | cons a l ih => exact ih _ (Histogram.fits_add fits _ _)
  exact (general _ (Histogram.fits_empty scheme)).1

theorem Series.scheme_ofAdditions (scheme : Scheme) (l : List Addition) :
    (ofAdditions scheme l).scheme = scheme := by
  have general (s : Series) :
      (l.foldl (fun s a => s.add a.time a.slot a.value) s).scheme = s.scheme := by
    induction l generalizing s with
    | nil => rfl
    | cons a l ih => exact ih _
  exact general _

theorem Series.get?_ofAdditions (scheme : Scheme) (l : List Addition) (time : Int) :
    (ofAdditions scheme l).slots.get? time =
      if (l.filter fun a => time = a.time) = [] then none
      else some (Histogram.ofAdditions scheme (l.filter fun a => time = a.time)) := by
  have slots (s : Series) : (l.foldl (fun s a => s.add a.time a.slot a.value) s).slots = l.foldl
      (fun slots a => slots.update a.time (.empty s.scheme) fun h => h.add a.slot a.value)
      s.slots := by
    induction l generalizing s with
    | nil => rfl
    | cons a l ih => exact ih _
  rw [ofAdditions, slots]
  exact SortedMap.get?_ofUpdates Addition.time (fun _ => Histogram.empty scheme)
    (fun a (h : Histogram) => h.add a.slot a.value) l time

end Latency

namespace Topology

open Latency

theorem Traffic.get?_ofAdditions (l : List Addition) (ends : Edge) :
    SortedMap.get? (ofAdditions l) ends =
      if (l.filter fun a => ends = a.ends) = [] then none
      else some (Series.ofAdditions ends.scheme (l.filter fun a => ends = a.ends)) :=
  SortedMap.get?_ofUpdates Addition.ends (fun ends : Edge => Series.empty ends.scheme)
    (fun a (s : Series) => s.add a.time a.slot a.value) l ends

theorem Links.get?_ofAdditions (l : List Addition) (e : Edge) :
    SortedMap.get? (ofAdditions l) e =
      if (l.filter fun a => e = a.edge) = [] then none
      else some (Traffic.ofAdditions (l.filter fun a => e = a.edge)) :=
  SortedMap.get?_ofUpdates Addition.edge (fun _ => SortedMap.empty)
    (fun a (t : Traffic) => t.add a.ends a.time a.slot a.value) l e

/-- Whether two lists of additions have the same keys, and for each key come to the same in every
slot. -/
structure Agree [DecidableEq κ] (key : Addition → κ) (l l' : List Addition) : Prop where
  keys (k : κ) : (∃ a ∈ l, key a = k) ↔ ∃ a ∈ l', key a = k
  amounts (k : κ) (slot : Slot) :
    slot.amount ((l.filter fun a => key a = k ∧ a.slot = slot).map (·.value)) =
      slot.amount ((l'.filter fun a => key a = k ∧ a.slot = slot).map (·.value))

/-- What a tally adds that names a slot. -/
def Tally.addition (t : Tally) (slot : Slot) : Addition := ⟨t.edge, t.ends, t.time, slot, t.count⟩

theorem Links.add_eq {t : Tally} {slot : Slot} (known : t.slot? = some slot) (l : Links) :
    (l.add t).2 = l.addSlot (t.addition slot) := by
  have same : t.addTo = fun traffic => traffic.add t.ends t.time slot t.count := by
    funext traffic
    rw [Tally.addTo, known]
  rw [add, same]
  rfl

namespace Agree

variable [DecidableEq κ] [DecidableEq ν] {l l' : List Addition}

theorem symm {key : Addition → κ} (agree : Agree key l l') : Agree key l' l :=
  ⟨fun k => (agree.keys k).symm, fun k slot => (agree.amounts k slot).symm⟩

/-- Keys that tell the same additions apart are as good as each other. -/
theorem rekey {f : Addition → κ} {g : Addition → ν} (agree : Agree f l l')
    (alike : ∀ a ∈ l ++ l', ∀ b ∈ l ++ l', f a = f b ↔ g a = g b) : Agree g l l' where
  keys y := by
    have found {l₁ l₂ : List Addition} (agree : Agree f l₁ l₂) (inside : l₁ ++ l₂ ⊆ l ++ l') :
        (∃ a ∈ l₁, g a = y) → ∃ a ∈ l₂, g a = y := by
      rintro ⟨a, member, rfl⟩
      obtain ⟨a', member', same⟩ := (agree.keys (f a)).1 ⟨a, member, rfl⟩
      exact ⟨a', member', (alike a' (inside (List.mem_append_right _ member')) a
        (inside (List.mem_append_left _ member))).1 same⟩
    exact ⟨found agree (List.Subset.refl _), found agree.symm fun a member =>
      List.mem_append.2 (List.mem_append.1 member).symm⟩
  amounts y slot := by
    by_cases here : ∃ a ∈ l ++ l', g a = y
    · obtain ⟨a, member, rfl⟩ := here
      have same (l₁ : List Addition) (inside : l₁ ⊆ l ++ l') :
          (l₁.filter fun b => g b = g a ∧ b.slot = slot) =
            l₁.filter fun b => f b = f a ∧ b.slot = slot :=
        List.filter_congr fun b member' => by simp only [alike b (inside member') a member]
      rw [same l (List.subset_append_left _ _), same l' (List.subset_append_right _ _)]
      exact agree.amounts (f a) slot
    · have none (l₁ : List Addition) (inside : l₁ ⊆ l ++ l') :
          (l₁.filter fun b => g b = y ∧ b.slot = slot) = [] := by
        refine List.filter_eq_nil_iff.2 fun b member found => here ⟨b, inside member, ?_⟩
        exact (of_decide_eq_true found).1
      rw [none l (List.subset_append_left _ _), none l' (List.subset_append_right _ _)]

theorem filter {f : Addition → κ} {g : Addition → ν} (agree : Agree (fun a => (f a, g a)) l l')
    (x : κ) : Agree g (l.filter fun a => x = f a) (l'.filter fun a => x = f a) where
  keys y := by
    have keys := agree.keys (x, y)
    simp only [Prod.mk.injEq] at keys
    simpa [and_assoc, eq_comm (a := x)] using keys
  amounts y slot := by
    have both (l : List Addition) :
        ((l.filter fun a => x = f a).filter fun a => g a = y ∧ a.slot = slot) =
          l.filter fun a => (f a, g a) = (x, y) ∧ a.slot = slot := by
      rw [List.filter_filter]
      refine List.filter_congr fun a _ => ?_
      by_cases here : x = f a
      · simp [here]
      · simp [here, Ne.symm here]
    rw [both, both]
    exact agree.amounts (x, y) slot

theorem filter_eq_nil {f : Addition → κ} {g : Addition → ν}
    (agree : Agree (fun a => (f a, g a)) l l') (x : κ) :
    (l.filter fun a => x = f a) = [] ↔ (l'.filter fun a => x = f a) = [] := by
  have none {l l' : List Addition} (agree : Agree (fun a => (f a, g a)) l l')
      (empty : (l.filter fun a => x = f a) = []) : (l'.filter fun a => x = f a) = [] := by
    refine List.filter_eq_nil_iff.2 fun a member here => ?_
    obtain ⟨a', member', same⟩ := (agree.keys (f a, g a)).2 ⟨a, member, rfl⟩
    refine List.filter_eq_nil_iff.1 empty a' member' ?_
    simpa [(Prod.mk.inj same).1] using here
  exact ⟨none agree, none agree.symm⟩

theorem histogram (agree : Agree (fun _ => ()) l l') (scheme : Scheme) :
    Histogram.ofAdditions scheme l = Histogram.ofAdditions scheme l' := by
  refine Histogram.ext_get (by simp only [Histogram.scheme_ofAdditions]) fun slot => ?_
  simpa [Histogram.get_ofAdditions] using agree.amounts () slot

theorem series (agree : Agree (fun a => (a.time, ())) l l') (scheme : Scheme) :
    Series.ofAdditions scheme l = Series.ofAdditions scheme l' := by
  have slots : (Series.ofAdditions scheme l).slots = (Series.ofAdditions scheme l').slots := by
    refine SortedMap.ext_get? fun time => ?_
    rw [Series.get?_ofAdditions, Series.get?_ofAdditions, (agree.filter time).histogram]
    simp only [agree.filter_eq_nil time]
  have same : (Series.ofAdditions scheme l).scheme = (Series.ofAdditions scheme l').scheme := by
    simp only [Series.scheme_ofAdditions]
  cases h : Series.ofAdditions scheme l
  cases h' : Series.ofAdditions scheme l'
  simp_all

theorem traffic (agree : Agree (fun a => (a.ends, a.time, ())) l l') :
    Traffic.ofAdditions l = Traffic.ofAdditions l' := by
  refine SortedMap.ext_get? fun ends => ?_
  rw [Traffic.get?_ofAdditions, Traffic.get?_ofAdditions, (agree.filter ends).series]
  simp only [agree.filter_eq_nil ends]

/-- Additions that come to the same in every slot of every histogram make the same links. -/
theorem links (agree : Agree Addition.place l l') :
    Links.ofAdditions l = Links.ofAdditions l' := by
  refine SortedMap.ext_get? fun e => ?_
  rw [Links.get?_ofAdditions, Links.get?_ofAdditions, (agree.filter e).traffic]
  simp only [agree.filter_eq_nil e]

end Agree

/-- The addition of a value under a key. -/
def Addition.under (shape : α → Addition) (e : α × Int64) : Addition := { shape e.1 with value := e.2 }

section

variable [DecidableEq κ] {shape : α → Addition} {key : Addition → κ} {entries l : List (α × Int64)}

theorem map_under_filter (keyed : ∀ a value, key { a with value } = key a) (k : κ) (slot : Slot) :
    ((l.map (Addition.under shape)).filter fun a => key a = k ∧ a.slot = slot).map (·.value) =
      (l.filter fun e => key (shape e.1) = k ∧ (shape e.1).slot = slot).map (·.2) := by
  rw [List.filter_map, List.map_map]
  simp only [Function.comp_def, Addition.under, keyed]

/-- Entries of which each tells what a list has for its key agree with the list, if whatever they leave
out comes to nothing and stands beside an entry. -/
theorem agree_of_groups [DecidableEq α] (keyed : ∀ a value, key { a with value } = key a)
    (distinct : entries.Pairwise fun e e' => e.1 ≠ e'.1)
    (kept : ∀ e ∈ entries, (∃ e' ∈ l, e'.1 = e.1) ∧ (shape e.1).slot.amount [e.2] =
      (shape e.1).slot.amount ((l.filter fun e' => e'.1 = e.1).map (·.2)))
    (missing : ∀ e ∈ l, (∀ e' ∈ entries, e'.1 ≠ e.1) →
      (shape e.1).slot.amount ((l.filter fun e' => e'.1 = e.1).map (·.2)) = 0)
    (beside : ∀ e ∈ l, ∃ e' ∈ entries, key (shape e'.1) = key (shape e.1)) :
    Agree key (entries.map (Addition.under shape)) (l.map (Addition.under shape)) where
  keys k := by
    have shaped (l : List (α × Int64)) :
        (∃ a ∈ l.map (Addition.under shape), key a = k) ↔ ∃ e ∈ l, key (shape e.1) = k := by
      constructor
      · rintro ⟨_, member, rfl⟩
        obtain ⟨e, inside, rfl⟩ := List.mem_map.1 member
        exact ⟨e, inside, (keyed _ _).symm⟩
      · rintro ⟨e, member, rfl⟩
        exact ⟨_, List.mem_map_of_mem member, keyed _ _⟩
    rw [shaped, shaped]
    constructor
    · rintro ⟨e, member, here⟩
      obtain ⟨⟨e', member', same⟩, -⟩ := kept e member
      exact ⟨e', member', by rw [same, here]⟩
    · rintro ⟨e, member, here⟩
      obtain ⟨e', member', same⟩ := beside e member
      exact ⟨e', member', same.trans here⟩
  amounts k slot := by
    rw [map_under_filter keyed, map_under_filter keyed]
    -- the entries of one key are all in the same slot, or none of them is
    have group (e : α × Int64) (here : key (shape e.1) = k ∧ (shape e.1).slot = slot) :
        ((l.filter fun e => key (shape e.1) = k ∧ (shape e.1).slot = slot).filter
          fun e' => e'.1 = e.1) = l.filter fun e' => e'.1 = e.1 := by
      rw [List.filter_filter]
      refine List.filter_congr fun e' _ => ?_
      by_cases same : e'.1 = e.1
      · simp [same, here]
      · simp [same]
    refine slot.amount_of_groups (distinct.filter _) _ (fun e member => ?_) fun e member absent => ?_
    · obtain ⟨member, here⟩ := List.mem_filter.1 member
      have here := of_decide_eq_true here
      rw [group e here, ← here.2]
      exact (kept e member).2
    · obtain ⟨member, here⟩ := List.mem_filter.1 member
      have here := of_decide_eq_true here
      rw [group e here, ← here.2]
      refine missing e member fun e' member' same => ?_
      refine absent e' (List.mem_filter.2 ⟨member', ?_⟩) same
      simp [same, here]

end

end Topology

end CallTelemetry
