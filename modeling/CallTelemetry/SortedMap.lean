/-! Finite maps held as lists of entries in strictly ascending key order. A map has one
representation, so two maps with the same look-ups are equal, and listing a map needs no
sorting. -/
namespace CallTelemetry

structure SortedMap (α β : Type) [Ord α] where
  entries : List (α × β)
  ascending : entries.Pairwise fun a b => compare a.1 b.1 = .lt

namespace SortedMap

variable {α β γ : Type} [Ord α]

/-- Replaces the value at a key by `f` of it; `none` stands for an absent entry. -/
def alterEntries (k : α) (f : Option β → Option β) : List (α × β) → List (α × β)
  | [] => (f none).toList.map (k, ·)
  | (k', v) :: rest =>
    match compare k k' with
    | .lt => (f none).toList.map (k, ·) ++ (k', v) :: rest
    | .eq => (f (some v)).toList.map (k', ·) ++ rest
    | .gt => (k', v) :: alterEntries k f rest

theorem mem_alterEntries {k : α} {f : Option β → Option β} {e : α × β} {l : List (α × β)}
    (h : e ∈ alterEntries k f l) : e.1 = k ∨ ∃ e' ∈ l, e'.1 = e.1 := by
  induction l with
  | nil =>
    simp only [alterEntries, List.mem_map] at h
    obtain ⟨v, _, rfl⟩ := h
    exact .inl rfl
  | cons hd tl ih =>
    obtain ⟨k', v⟩ := hd
    rw [alterEntries] at h
    split at h <;> simp only [List.mem_append, List.mem_map, List.mem_cons] at h
    · rcases h with ⟨w, _, rfl⟩ | h | h
      · exact .inl rfl
      · exact .inr ⟨_, List.mem_cons_self, by rw [h]⟩
      · exact .inr ⟨e, List.mem_cons_of_mem _ h, rfl⟩
    · rcases h with ⟨w, _, rfl⟩ | h
      · exact .inr ⟨_, List.mem_cons_self, rfl⟩
      · exact .inr ⟨e, List.mem_cons_of_mem _ h, rfl⟩
    · rcases h with h | h
      · exact .inr ⟨_, List.mem_cons_self, by rw [h]⟩
      · rcases ih h with h | ⟨e', he', h⟩
        · exact .inl h
        · exact .inr ⟨e', List.mem_cons_of_mem _ he', h⟩

theorem alterEntries_ascending [Std.TransOrd α] (k : α) (f : Option β → Option β)
    {l : List (α × β)} (h : l.Pairwise fun a b => compare a.1 b.1 = .lt) :
    (alterEntries k f l).Pairwise fun a b => compare a.1 b.1 = .lt := by
  induction l with
  | nil => cases hf : f none <;> simp [alterEntries, hf]
  | cons hd tl ih =>
    obtain ⟨k', v⟩ := hd
    have htl := (List.pairwise_cons.1 h).1
    rw [alterEntries]
    split
    next hk =>
      cases hf : f none with
      | none => simpa using h
      | some w =>
        refine List.pairwise_cons.2 ⟨fun e he => ?_, h⟩
        rcases List.mem_cons.1 he with rfl | he
        · exact hk
        · exact Std.TransCmp.lt_trans hk (htl e he)
    next hk =>
      cases hf : f (some v) with
      | none => simpa using (List.pairwise_cons.1 h).2
      | some w => exact List.pairwise_cons.2 ⟨htl, (List.pairwise_cons.1 h).2⟩
    next hk =>
      refine List.pairwise_cons.2 ⟨fun e he => ?_, ih (List.pairwise_cons.1 h).2⟩
      rcases mem_alterEntries he with he | ⟨e', he', hke⟩
      · rw [he]
        exact Std.OrientedCmp.gt_iff_lt.1 hk
      · rw [← hke]
        exact htl e' he'

def empty : SortedMap α β := ⟨[], .nil⟩

instance : Inhabited (SortedMap α β) := ⟨empty⟩

instance [DecidableEq α] [DecidableEq β] : DecidableEq (SortedMap α β) := fun a b =>
  if h : a.entries = b.entries then
    .isTrue (by cases a; cases b; cases h; rfl)
  else
    .isFalse fun hab => h (hab ▸ rfl)

def get? (m : SortedMap α β) (k : α) : Option β :=
  (m.entries.find? fun e => compare k e.1 == .eq).map (·.2)

def getD (m : SortedMap α β) (k : α) (default : β) : β := (m.get? k).getD default

def contains (m : SortedMap α β) (k : α) : Bool := (m.get? k).isSome

def size (m : SortedMap α β) : Nat := m.entries.length

def isEmpty (m : SortedMap α β) : Bool := m.entries.isEmpty

def keys (m : SortedMap α β) : List α := m.entries.map (·.1)

def values (m : SortedMap α β) : List β := m.entries.map (·.2)

def alter [Std.TransOrd α] (m : SortedMap α β) (k : α) (f : Option β → Option β) :
    SortedMap α β :=
  ⟨alterEntries k f m.entries, alterEntries_ascending k f m.ascending⟩

def insert [Std.TransOrd α] (m : SortedMap α β) (k : α) (v : β) : SortedMap α β :=
  m.alter k fun _ => some v

def erase [Std.TransOrd α] (m : SortedMap α β) (k : α) : SortedMap α β :=
  m.alter k fun _ => none

/-- Updates the value at a key, an absent one counting as `default`. -/
def update [Std.TransOrd α] (m : SortedMap α β) (k : α) (default : β) (f : β → β) :
    SortedMap α β :=
  m.alter k fun v => some (f (v.getD default))

/-- Later entries replace earlier ones of the same key. -/
def ofList [Std.TransOrd α] (l : List (α × β)) : SortedMap α β :=
  l.foldl (fun m e => m.insert e.1 e.2) empty

def filter (m : SortedMap α β) (p : α → β → Bool) : SortedMap α β :=
  ⟨m.entries.filter fun e => p e.1 e.2, m.ascending.sublist List.filter_sublist⟩

def map (m : SortedMap α β) (f : α → β → γ) : SortedMap α γ :=
  ⟨m.entries.map fun e => (e.1, f e.1 e.2), List.pairwise_map.2 (m.ascending.imp id)⟩

end SortedMap

end CallTelemetry
