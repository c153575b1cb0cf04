import CallTelemetry.SortedMap

/-! Sorted maps seen through their look-ups. Every operation is described by what it does to `get?`,
and maps with the same look-ups are equal, so proofs about maps need not open their entries. -/
namespace CallTelemetry.SortedMap

/-- The look-up in a list of entries. -/
def find [Ord α] (l : List (α × β)) (k : α) : Option β :=
  (l.find? fun e => compare k e.1 == .eq).map (·.2)

@[simp] theorem find_nil [Ord α] (k : α) : find ([] : List (α × β)) k = none := rfl

@[simp] theorem get?_empty [Ord α] (k : α) : (empty : SortedMap α β).get? k = none := rfl

theorem keys_ascending [Ord α] (m : SortedMap α β) :
    m.keys.Pairwise fun k k' => compare k k' = .lt :=
  List.pairwise_map.2 m.ascending

@[simp] theorem keys_map [Ord α] (m : SortedMap α β) (f : α → β → γ) : (m.map f).keys = m.keys := by
  simp [keys, map]

section

variable {α β : Type} [Ord α] [Std.LawfulEqOrd α]

theorem find_cons_self (k : α) (v : β) (l : List (α × β)) : find ((k, v) :: l) k = some v := by
  simp [find]

theorem find_cons_ne {k k' : α} (v : β) (l : List (α × β)) (apart : k ≠ k') :
    find ((k', v) :: l) k = find l k := by
  have unequal : (compare k k' == .eq) = false := by simp [apart]
  simp [find, unequal]

theorem mem_of_find_eq_some {l : List (α × β)} {k : α} {v : β} (found : find l k = some v) :
    (k, v) ∈ l := by
  simp only [find, Option.map_eq_some_iff] at found
  obtain ⟨⟨k', v'⟩, first, rfl⟩ := found
  obtain rfl : k = k' := by simpa using List.find?_some first
  exact List.mem_of_find?_eq_some first

theorem find_eq_none_iff {l : List (α × β)} {k : α} : find l k = none ↔ ∀ e ∈ l, k ≠ e.1 := by
  simp [find]

theorem key_ne_of_lt {k k' : α} (before : compare k k' = .lt) : k ≠ k' := by
  rintro rfl
  simp at before

/-- Keys before all those of a list are not in it. -/
theorem find_eq_none_of_lt {l : List (α × β)} {k : α} (before : ∀ e ∈ l, compare k e.1 = .lt) :
    find l k = none :=
  find_eq_none_iff.2 fun e member => key_ne_of_lt (before e member)

theorem find_eq_none_of_lt_head [Std.TransOrd α] {e : α × β} {l : List (α × β)} {k : α}
    (before : compare k e.1 = .lt)
    (ascending : (e :: l).Pairwise fun a b => compare a.1 b.1 = .lt) : find (e :: l) k = none := by
  refine find_eq_none_of_lt fun e' member => ?_
  rcases List.mem_cons.1 member with rfl | member
  · exact before
  · exact Std.TransCmp.lt_trans before ((List.pairwise_cons.1 ascending).1 e' member)

theorem find_eq_some_of_mem {l : List (α × β)} {k : α} {v : β}
    (ascending : l.Pairwise fun a b => compare a.1 b.1 = .lt) (member : (k, v) ∈ l) :
    find l k = some v := by
  induction l with
  | nil => simp at member
  | cons hd tl ih =>
    obtain ⟨first, rest⟩ := List.pairwise_cons.1 ascending
    rcases List.mem_cons.1 member with rfl | member
    · exact find_cons_self k v tl
    · have apart : k ≠ hd.1 := (key_ne_of_lt (first _ member)).symm
      rw [← ih rest member, ← find_cons_ne hd.2 tl apart]

theorem mem_entries_iff {m : SortedMap α β} {k : α} {v : β} :
    (k, v) ∈ m.entries ↔ m.get? k = some v :=
  ⟨find_eq_some_of_mem m.ascending, mem_of_find_eq_some⟩

theorem mem_keys_iff {m : SortedMap α β} {k : α} : k ∈ m.keys ↔ m.get? k ≠ none := by
  simp only [keys, List.mem_map, Prod.exists, exists_and_right, exists_eq_right, mem_entries_iff]
  cases m.get? k <;> simp

theorem mem_values_iff {m : SortedMap α β} {v : β} : v ∈ m.values ↔ ∃ k, m.get? k = some v := by
  simp only [values, List.mem_map, Prod.exists, exists_eq_right, mem_entries_iff]

/-- Values that tell their keys are listed in the order of these. -/
theorem values_ascending {m : SortedMap α β} {key : β → α}
    (told : ∀ k v, m.get? k = some v → key v = k) :
    m.values.Pairwise fun v v' => compare (key v) (key v') = .lt := by
  refine List.pairwise_map.2 (m.ascending.imp_of_mem fun {e e'} member member' before => ?_)
  rwa [told e.1 e.2 (mem_entries_iff.1 member), told e'.1 e'.2 (mem_entries_iff.1 member')]

theorem keys_nodup (m : SortedMap α β) : m.keys.Nodup := m.keys_ascending.imp key_ne_of_lt

theorem get?_filter (m : SortedMap α β) (p : α → β → Bool) (k : α) :
    (m.filter p).get? k = (m.get? k).filter (p k) := by
  ext v
  simp only [Option.filter_eq_some_iff, ← mem_entries_iff, filter, List.mem_filter]

theorem get?_map (m : SortedMap α β) (f : α → β → γ) (k : α) :
    (m.map f).get? k = (m.get? k).map (f k) := by
  ext v
  simp only [Option.map_eq_some_iff, ← mem_entries_iff, map, List.mem_map, Prod.exists,
    Prod.mk.injEq]
  constructor
  · rintro ⟨k, w, member, rfl, rfl⟩
    exact ⟨w, member, rfl⟩
  · rintro ⟨w, member, rfl⟩
    exact ⟨k, w, member, rfl, rfl⟩

end

section

variable {α β : Type} [DecidableEq α] [Ord α] [Std.LawfulEqOrd α]

theorem find_optional (o : Option β) (k k' : α) (l : List (α × β)) :
    find (o.toList.map (k', ·) ++ l) k = if k = k' then o.or (find l k) else find l k := by
  cases o with
  | none => simp
  | some v =>
    by_cases same : k = k'
    · subst same
      simp [find_cons_self]
    · simp [find_cons_ne v l same, same]

theorem filter_key {l : List (α × β)} (ascending : l.Pairwise fun a b => compare a.1 b.1 = .lt)
    (k : α) : (l.filter fun e => k = e.1) = (find l k).toList.map (k, ·) := by
  induction l with
  | nil => rfl
  | cons e l ih =>
    obtain ⟨first, rest⟩ := List.pairwise_cons.1 ascending
    obtain ⟨key, v⟩ := e
    by_cases same : k = key
    · subst same
      have others : find l k = none := find_eq_none_of_lt first
      simp [find_cons_self, ih rest, others]
    · simp [find_cons_ne, same, ih rest]

/-- The entries at a key are the one that look-up finds. -/
theorem entries_filter_key (m : SortedMap α β) (k : α) :
    (m.entries.filter fun e => k = e.1) = (m.get? k).toList.map (k, ·) :=
  filter_key m.ascending k

variable [Std.TransOrd α]

theorem find_alterEntries (k k' : α) (f : Option β → Option β) {l : List (α × β)}
    (ascending : l.Pairwise fun a b => compare a.1 b.1 = .lt) :
    find (alterEntries k f l) k' = if k' = k then f (find l k) else find l k' := by
  induction l with
  | nil =>
    rw [alterEntries, ← List.append_nil (List.map _ _), find_optional]
    simp
  | cons hd tl ih =>
    obtain ⟨key, v⟩ := hd
    obtain ⟨first, rest⟩ := List.pairwise_cons.1 ascending
    rw [alterEntries]
    split
    next before =>
      have absent : find ((key, v) :: tl) k = none := find_eq_none_of_lt_head before ascending
      rw [find_optional, absent]
      by_cases same : k' = k
      · subst same
        simp [absent]
      · simp [same]
    next same =>
      obtain rfl : k = key := Std.LawfulEqOrd.eq_of_compare same
      have absent : find tl k = none := find_eq_none_of_lt first
      rw [find_optional, find_cons_self]
      by_cases same : k' = k
      · subst same
        simp [absent]
      · simp [same, find_cons_ne]
    next after =>
      have apart : k ≠ key := (key_ne_of_lt (Std.OrientedCmp.gt_iff_lt.1 after)).symm
      by_cases same : k' = key
      · subst same
        simp [find_cons_self, apart.symm]
      · rw [find_cons_ne v _ same, find_cons_ne v _ apart, find_cons_ne v _ same, ih rest]

theorem get?_alter (m : SortedMap α β) (k k' : α) (f : Option β → Option β) :
    (m.alter k f).get? k' = if k' = k then f (m.get? k) else m.get? k' :=
  find_alterEntries k k' f m.ascending

theorem get?_insert (m : SortedMap α β) (k k' : α) (v : β) :
    (m.insert k v).get? k' = if k' = k then some v else m.get? k' :=
  get?_alter m k k' _

theorem get?_erase (m : SortedMap α β) (k k' : α) :
    (m.erase k).get? k' = if k' = k then none else m.get? k' :=
  get?_alter m k k' _

theorem get?_update (m : SortedMap α β) (k k' : α) (default : β) (f : β → β) :
    (m.update k default f).get? k' = if k' = k then some (f (m.getD k default)) else m.get? k' :=
  get?_alter m k k' _

theorem mem_keys_update {m : SortedMap α β} {k k' : α} {default : β} {f : β → β} :
    k' ∈ (m.update k default f).keys ↔ k' = k ∨ k' ∈ m.keys := by
  rw [mem_keys_iff, mem_keys_iff, get?_update]
  by_cases same : k' = k <;> simp [same]

/-- A map from a list has the keys of the list. -/
theorem mem_keys_ofList {l : List (α × β)} {k : α} : k ∈ (ofList l).keys ↔ ∃ v, (k, v) ∈ l := by
  have general (l : List (α × β)) (m : SortedMap α β) :
      k ∈ (l.foldl (fun m e => m.insert e.1 e.2) m).keys ↔ k ∈ m.keys ∨ ∃ v, (k, v) ∈ l := by
    induction l generalizing m with
    | nil => simp
    | cons e l ih =>
      rw [List.foldl_cons, ih, mem_keys_iff, get?_insert, mem_keys_iff]
      by_cases same : k = e.1
      · subst same
        exact ⟨fun _ => .inr ⟨e.2, List.mem_cons_self⟩, fun _ => .inl (by simp)⟩
      · have apart (v : β) : (k, v) ≠ e := fun h => same (congrArg Prod.fst h)
        simp [same, apart]
  exact (general l empty).trans (by simp [keys, empty])

theorem mem_of_get?_ofList {l : List (α × β)} {k : α} {v : β} (found : (ofList l).get? k = some v) :
    (k, v) ∈ l := by
  have general (l : List (α × β)) (m : SortedMap α β)
      (found : (l.foldl (fun m e => m.insert e.1 e.2) m).get? k = some v) :
      m.get? k = some v ∨ (k, v) ∈ l := by
    induction l generalizing m with
    | nil => exact .inl found
    | cons e l ih =>
      rcases ih _ found with inserted | member
      · rw [get?_insert] at inserted
        split at inserted
        next same =>
          obtain rfl := Option.some.inj inserted
          exact .inr (same ▸ List.mem_cons_self)
        next => exact .inl inserted
      · exact .inr (List.mem_cons_of_mem e member)
  exact (general l empty found).resolve_left nofun

/-- A key that a list tells one value of, however often, has that value in a map from the list. -/
theorem get?_ofList {l : List (α × β)} {k : α} {v : β}
    (once : ∀ v', (k, v') ∈ l → (k, v) ∈ l → v' = v) : (ofList l).get? k = some v ↔ (k, v) ∈ l := by
  constructor
  · exact mem_of_get?_ofList
  · intro member
    have listed : k ∈ (ofList l).keys := mem_keys_ofList.2 ⟨v, member⟩
    obtain ⟨v', found⟩ := Option.ne_none_iff_exists'.1 (mem_keys_iff.1 listed)
    rw [found, once v' (mem_of_get?_ofList found) member]

/-- A fold of alterations does to each key what the elements of that key ask for, in their order. -/
theorem get?_foldl_alter (key : γ → α) (f : γ → Option β → Option β) (l : List γ)
    (m : SortedMap α β) (k : α) :
    (l.foldl (fun m e => m.alter (key e) (f e)) m).get? k =
      (l.filter fun e => k = key e).foldl (fun v e => f e v) (m.get? k) := by
  induction l generalizing m with
  | nil => rfl
  | cons e l ih =>
    rw [List.foldl_cons, ih, get?_alter]
    by_cases here : k = key e
    · simp [here]
    · simp [here]

theorem get?_foldl_update (key : γ → α) (default : α → β) (f : γ → β → β) (l : List γ)
    (m : SortedMap α β) (k : α) :
    (l.foldl (fun m e => m.update (key e) (default (key e)) (f e)) m).get? k =
      (l.filter fun e => k = key e).foldl (fun v e => some (f e (v.getD (default k))))
        (m.get? k) := by
  unfold update
  rw [get?_foldl_alter]
  apply List.foldl_rel (r := Eq) rfl
  rintro e member v _ rfl
  rw [of_decide_eq_true (List.mem_filter.1 member).2]

/-- From the empty map, the keys are those of the elements. -/
theorem get?_ofUpdates (key : γ → α) (default : α → β) (f : γ → β → β) (l : List γ) (k : α) :
    (l.foldl (fun m e => m.update (key e) (default (key e)) (f e)) empty).get? k =
      if (l.filter fun e => k = key e) = [] then none
      else some ((l.filter fun e => k = key e).foldl (fun v e => f e v) (default k)) := by
  have filled (l : List γ) (v : β) :
      l.foldl (fun v e => some (f e (v.getD (default k)))) (some v) =
        some (l.foldl (fun v e => f e v) v) := by
    induction l generalizing v with
    | nil => rfl
    | cons e l ih => exact ih _
  rw [get?_foldl_update, get?_empty]
  cases l.filter fun e => k = key e with
  | nil => rfl
  | cons e l => exact filled l _

end

/-- Whether all values of a map have a property. -/
def Each [Ord α] (p : β → Prop) (m : SortedMap α β) : Prop := ∀ k v, m.get? k = some v → p v

namespace Each

variable {α β : Type} [Ord α] {p : β → Prop}

theorem empty : Each p (SortedMap.empty : SortedMap α β) := fun _ _ found => by cases found

theorem value [Std.LawfulEqOrd α] {m : SortedMap α β} (each : m.Each p) {v : β}
    (member : v ∈ m.values) : p v := by
  obtain ⟨k, found⟩ := mem_values_iff.1 member
  exact each k v found

theorem update [DecidableEq α] [Std.LawfulEqOrd α] [Std.TransOrd α] {m : SortedMap α β}
    (each : m.Each p) (k : α) {default : β} {f : β → β} (start : p default)
    (keeps : ∀ v, p v → p (f v)) : (m.update k default f).Each p := by
  have held : p (m.getD k default) := by
    cases found : m.get? k with
    | none => simpa [getD, found] using start
    | some v => simpa [getD, found] using each k v found
  intro k' v found
  rw [get?_update] at found
  split at found
  · obtain rfl := Option.some.inj found
    exact keeps _ held
  · exact each k' v found

end Each

/-- Altering a key changes the number of entries by that of its own. -/
theorem length_alterEntries [Ord α] [Std.LawfulEqOrd α] [Std.TransOrd α] (k : α)
    (f : Option β → Option β) {l : List (α × β)}
    (ascending : l.Pairwise fun a b => compare a.1 b.1 = .lt) :
    (alterEntries k f l).length + (find l k).toList.length =
      l.length + (f (find l k)).toList.length := by
  induction l with
  | nil => simp [alterEntries]
  | cons hd tl ih =>
    obtain ⟨key, v⟩ := hd
    obtain ⟨first, rest⟩ := List.pairwise_cons.1 ascending
    rw [alterEntries]
    split
    next before =>
      have absent : find ((key, v) :: tl) k = none := find_eq_none_of_lt_head before ascending
      simp [absent]
      omega
    next same =>
      obtain rfl : k = key := Std.LawfulEqOrd.eq_of_compare same
      simp [find_cons_self]
      omega
    next after =>
      have apart : k ≠ key := (key_ne_of_lt (Std.OrientedCmp.gt_iff_lt.1 after)).symm
      have shorter := ih rest
      simp [find_cons_ne v tl apart]
      omega

section

variable {α β : Type} [Ord α] [Std.LawfulEqOrd α] [Std.TransOrd α]

theorem size_insert (m : SortedMap α β) (k : α) (v : β) :
    (m.insert k v).size = if m.get? k = none then m.size + 1 else m.size := by
  have altered := length_alterEntries k (fun _ => some v) m.ascending
  change (m.insert k v).size + (m.get? k).toList.length = m.size + 1 at altered
  cases found : m.get? k <;> simp [found] at altered ⊢ <;> omega

/-- A map without one of its keys has one entry less. -/
theorem size_erase {m : SortedMap α β} {k : α} (present : m.get? k ≠ none) :
    (m.erase k).size + 1 = m.size := by
  have altered := length_alterEntries k (fun _ => none) m.ascending
  change (m.erase k).size + (m.get? k).toList.length = m.size at altered
  cases found : m.get? k with
  | none => exact absurd found present
  | some v => simpa [found] using altered

end

/-- Maps with the same look-ups are the same. -/
theorem ext_get? [Ord α] [Std.TransOrd α] [Std.LawfulEqOrd α] {m m' : SortedMap α β}
    (same : ∀ k, m.get? k = m'.get? k) : m = m' := by
  have nodup (m : SortedMap α β) : m.entries.Nodup :=
    m.ascending.imp fun before equal => key_ne_of_lt before (congrArg Prod.fst equal)
  have perm : m.entries.Perm m'.entries := by
    refine (List.perm_ext_iff_of_nodup (nodup m) (nodup m')).2 fun ⟨k, v⟩ => ?_
    rw [mem_entries_iff, mem_entries_iff, same]
  have entries : m.entries = m'.entries := by
    refine perm.eq_of_pairwise (fun a b _ _ before after => ?_) m.ascending m'.ascending
    exact absurd after (by simp [Std.OrientedCmp.gt_of_lt before])
  cases m
  cases m'
  cases entries
  rfl

/-- Maps that have the same keys list them alike. -/
theorem keys_ext [Ord α] [Std.TransOrd α] [Std.LawfulEqOrd α] {m : SortedMap α β} {m' : SortedMap α γ}
    (same : ∀ k, k ∈ m.keys ↔ k ∈ m'.keys) : m.keys = m'.keys := by
  have bare : (m.map fun _ _ => ()) = m'.map fun _ _ => () := by
    apply ext_get?
    intro k
    have here := same k
    simp only [mem_keys_iff] at here
    simp only [get?_map]
    cases found : m.get? k <;> cases found' : m'.get? k <;> simp_all
  simpa using congrArg keys bare

section

variable {α β : Type} [DecidableEq α] [Ord α] [Std.TransOrd α] [Std.LawfulEqOrd α]

theorem alter_comm (m : SortedMap α β) {k k' : α} {f g : Option β → Option β}
    (swap : k = k' → ∀ v, g (f v) = f (g v)) :
    (m.alter k f).alter k' g = (m.alter k' g).alter k f := by
  refine ext_get? fun key => ?_
  simp only [get?_alter]
  by_cases same : k = k'
  · subst same
    by_cases here : key = k
    · simp [here, swap rfl]
    · simp [here]
  · by_cases here : key = k
    · subst here
      simp [same]
    · simp [here, Ne.symm same]

theorem update_comm (m : SortedMap α β) {k k' : α} {default default' : β} {f g : β → β}
    (alike : k = k' → default = default') (swap : k = k' → ∀ v, g (f v) = f (g v)) :
    (m.update k default f).update k' default' g = (m.update k' default' g).update k default f :=
  alter_comm m fun same v => by
    simp only [Option.getD_some, alike same]
    rw [swap same]

theorem alter_alter (m : SortedMap α β) (k : α) (f g : Option β → Option β) :
    (m.alter k f).alter k g = m.alter k fun v => g (f v) := by
  refine ext_get? fun key => ?_
  simp only [get?_alter]
  split <;> rfl

theorem update_update (m : SortedMap α β) (k : α) (default : β) (f g : β → β) :
    (m.update k default f).update k default g = m.update k default fun v => g (f v) :=
  m.alter_alter k _ _

/-- What is done at a key matters only for what is there. -/
theorem alter_congr {m : SortedMap α β} {k : α} {f g : Option β → Option β}
    (same : f (m.get? k) = g (m.get? k)) : m.alter k f = m.alter k g := by
  apply ext_get?
  intro key
  simp only [get?_alter, same]

theorem update_congr {m : SortedMap α β} {k : α} {default : β} {f g : β → β}
    (same : f (m.getD k default) = g (m.getD k default)) :
    m.update k default f = m.update k default g :=
  alter_congr (congrArg some same)

/-- Values may be changed before or after one of them is updated, if that comes to the same for it. -/
theorem map_update {m : SortedMap α β} {k : α} {default : β} {f : β → β} {g : α → β → γ}
    {default' : γ} {f' : γ → γ} (alike : g k default = default')
    (swap : g k (f (m.getD k default)) = f' (g k (m.getD k default))) :
    (m.update k default f).map g = (m.map g).update k default' f' := by
  have there : (m.map g).getD k default' = g k (m.getD k default) := by
    rw [getD, get?_map, ← alike, getD]
    cases m.get? k <;> rfl
  apply ext_get?
  intro key
  simp only [get?_map, get?_update, there]
  by_cases here : key = k
  · simp [here, swap]
  · simp [here]

end

end CallTelemetry.SortedMap
