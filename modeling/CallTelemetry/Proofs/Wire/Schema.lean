import CallTelemetry.Proofs.Bytes
import CallTelemetry.Proofs.Wire.Field
import CallTelemetry.Wire.Schema

/-! Messages are read back from their bytes. Reading what a field writes of a message carries the
content of that field over to another message, in which it is still empty; a schema is faithful if its
fields, one after the other, carry a whole message over to the empty one. -/
namespace CallTelemetry.Wire

/-- Whether scalars are read back from their payloads, and only the zero counts as one. -/
structure Scalar.Faithful {β : Type} (t : Scalar β) : Prop where
  formed (v : β) : (t.write v).Formed
  read (v : β) : t.read (t.write v) = some v
  zero (v : β) : t.isZero v → v = t.zero

namespace Scalar

/-- The low half of a sign-extended number is the number. -/
theorem toInt32_extended (x : Int32) : x.toInt64.toUInt64.toUInt32.toInt32 = x := by
  have back : (x.toBitVec.signExtend 64).signExtend 32 = x.toBitVec :=
    congrArg Int32.toBitVec (Int32.toInt32_toInt64 x)
  rw [BitVec.signExtend_eq_setWidth_of_le _ (by decide)] at back
  exact Int32.toBitVec_inj.1 back

theorem text_faithful : text.Faithful where
  formed _ := trivial
  read s := Bytes.toText?_ofText s
  zero _ empty := String.isEmpty_iff.1 empty

theorem int32_faithful : int32.Faithful where
  formed _ := trivial
  read x := congrArg some (toInt32_extended x)
  zero _ zero := by simpa [int32] using zero

theorem int64_faithful : int64.Faithful where
  formed _ := trivial
  read x := by simp [int64]
  zero _ zero := by simpa [int64] using zero

theorem sint32_faithful : sint32.Faithful where
  formed _ := trivial
  read x := by simp [sint32]
  zero _ zero := by simpa [sint32] using zero

theorem fixed64_faithful : fixed64.Faithful where
  formed x := by simp [fixed64, Payload.Formed]
  read x := by simp [fixed64]
  zero _ zero := by simpa [fixed64] using zero

theorem boolean_faithful : boolean.Faithful where
  formed _ := trivial
  read b := by cases b <;> rfl
  zero _ zero := by simpa [boolean] using zero

theorem double_faithful : double.Faithful where
  formed bits := by simp [double, Payload.Formed]
  read bits := by
    have bound : bits.toNat < Bytes.capacity 8 := bits.toNat_lt
    simp [double, Bytes.toNat_ofNat, Nat.mod_eq_of_lt bound]
  zero _ zero := by simpa [double] using zero

theorem binary_faithful : binary.Faithful where
  formed _ := trivial
  read _ := rfl
  zero _ zero := by simpa [binary] using zero

end Scalar

/-- Whether reading what a field writes of a message `m` takes the message `acc` to `acc'`. -/
def Field.Carries (f : Field α) (m acc acc' : α) : Prop :=
  ∃ payloads : List Payload, f.write m = encodeFields (payloads.map (f.number, ·)) ∧
    (∀ p ∈ payloads, p.Formed) ∧
    ((f.write m).length < UInt64.size →
      ∀ depth, payloads.foldlM (fun acc p => f.read depth p acc) acc = some acc')

/-- Fields that carry a message over one after the other. -/
inductive Carried (m : α) : List (Field α) → α → α → Prop
  | nil {acc : α} : Carried m [] acc acc
  | cons {f : Field α} {fields : List (Field α)} {acc next acc' : α} :
    f.Carries m acc next → Carried m fields next acc' → Carried m (f :: fields) acc acc'

/-- Whether a schema's own bytes take its empty message to any message. -/
structure Schema.Faithful (s : Schema α) : Prop where
  numbered : ∀ f ∈ s.fields, Numbered f.number
  distinct : (s.fields.map (·.number)).Nodup
  carried (m : α) : Carried m s.fields s.empty m

namespace Schema

variable {s : Schema α}

/-- A field is found by its number. -/
theorem Faithful.find?_number (faithful : s.Faithful) {f : Field α} (member : f ∈ s.fields) :
    s.fields.find? (fun d => d.number == f.number) = some f := by
  have distinct := faithful.distinct
  revert member distinct
  generalize s.fields = fields
  intro member distinct
  induction fields with
  | nil => cases member
  | cons d fields ih =>
    rw [List.map_cons, List.nodup_cons] at distinct
    rw [List.find?_cons]
    obtain rfl | later := List.mem_cons.1 member
    · rw [beq_self_eq_true]
    · have other : d.number ≠ f.number := by
        intro same
        exact distinct.1 (List.mem_map.2 ⟨f, later, same.symm⟩)
      rw [beq_false_of_ne other, ih later distinct.2]

/-- The payloads of one field are all read by that field. -/
theorem Faithful.foldlM_readField (faithful : s.Faithful) {f : Field α} (member : f ∈ s.fields)
    (depth : Nat) (payloads : List Payload) (acc : α) :
    (payloads.map (f.number, ·)).foldlM (s.readField depth) acc =
      payloads.foldlM (fun acc p => f.read depth p acc) acc := by
  rw [List.foldlM_map]
  congr 1
  funext acc p
  rw [readField, faithful.find?_number member]

/-- What some fields of a schema write are fields that the schema reads. -/
theorem Faithful.readFields (faithful : s.Faithful) {m acc acc' : α} {fields : List (Field α)}
    (carried : Carried m fields acc acc') (within : ∀ f ∈ fields, f ∈ s.fields) :
    ∃ written, (fields.flatMap fun f => f.write m) = encodeFields written ∧ Legible written ∧
      ((encodeFields written).length < UInt64.size →
        ∀ depth, written.foldlM (s.readField depth) acc = some acc') := by
  induction carried with
  | nil => exact ⟨[], rfl, List.forall_mem_nil _, fun _ _ => rfl⟩
  | @cons f fields acc next acc' carries _ ih =>
    obtain ⟨payloads, bytes, formed, read⟩ := carries
    obtain ⟨written, bytes', legible, read'⟩ :=
      ih fun f member => within f (List.mem_cons_of_mem _ member)
    have member := within f List.mem_cons_self
    refine ⟨payloads.map (f.number, ·) ++ written, ?_, ?_, fun short depth => ?_⟩
    · rw [List.flatMap_cons, bytes, bytes', encodeFields_append]
    · intro field one
      obtain one | one := List.mem_append.1 one
      · obtain ⟨p, p_member, rfl⟩ := List.mem_map.1 one
        exact ⟨faithful.numbered f member, formed p p_member⟩
      · exact legible field one
    · rw [encodeFields_append, List.length_append] at short
      rw [List.foldlM_append, faithful.foldlM_readField member, read (by rw [bytes]; omega)]
      exact read' (by omega) depth

/-- A message is read back from its bytes. -/
theorem Faithful.merge_encode (faithful : s.Faithful) {m : α}
    (short : (s.encode m).length < UInt64.size) (depth : Nat) :
    s.merge depth (s.encode m) s.empty = some m := by
  obtain ⟨written, bytes, legible, read⟩ :=
    faithful.readFields (faithful.carried m) fun _ member => member
  have bytes : s.encode m = encodeFields written := bytes
  rw [bytes] at short ⊢
  rw [merge, fields?_encode depth legible short]
  exact read short depth

end Schema

namespace Field

variable {m acc : α} {number : Nat} {name : String}

/-- A field that writes nothing carries nothing. -/
theorem carries_nothing {f : Field α} (nothing : f.write m = []) : f.Carries m acc acc :=
  ⟨[], nothing, List.forall_mem_nil _, fun _ _ => rfl⟩

/-- A field that writes one payload carries what it makes of that one. -/
theorem carries_payload {f : Field α} {p : Payload} {acc' : α}
    (bytes : f.write m = encodeField f.number p) (formed : p.Formed)
    (read : (f.write m).length < UInt64.size → ∀ depth, f.read depth p acc = some acc') :
    f.Carries m acc acc' := by
  refine ⟨[p], ?_, List.forall_mem_singleton.2 formed, fun short depth => ?_⟩
  · simp [bytes, encodeFields]
  · simp [read short depth]

theorem plain_carries {t : Scalar β} {get : α → β} {set : β → α → α} (faithful : t.Faithful)
    (blank : set t.zero acc = acc) :
    (plain t number name get set).Carries m acc (set (get m) acc) := by
  by_cases zero : t.isZero (get m)
  · rw [faithful.zero _ zero, blank]
    exact carries_nothing (if_pos zero)
  · refine carries_payload (if_neg zero) (faithful.formed _) fun _ _ => ?_
    simp [plain, faithful.read]

/-- Fields that may be absent put what they have, or nothing, into the message. -/
theorem maybe_carries {t : Scalar β} {get : α → Option β} {set : β → α → α}
    (put : Option β → α → α) (faithful : t.Faithful) (blank : put none acc = acc)
    (present : ∀ v, put (some v) acc = set v acc) :
    (maybe t number name get set).Carries m acc (put (get m) acc) := by
  cases content : get m with
  | none =>
    rw [blank]
    exact carries_nothing (by simp [maybe, content])
  | some v =>
    refine carries_payload (p := t.write v) ?_ (faithful.formed v) fun _ _ => ?_
    · simp [maybe, content]
    · simp [maybe, faithful.read, present]

/-- A field of a choice puts what it has in the place of what is there. -/
theorem maybe_chosen {t : Scalar β} {get : α → Option β} {set : β → α → α}
    (faithful : t.Faithful) :
    (maybe t number name get set).Carries m acc ((get m).elim acc (set · acc)) :=
  maybe_carries (fun v m => v.elim m (set · m)) faithful rfl fun _ => rfl

/-- The bytes of a message take less room than the field that holds them. -/
theorem length_le_encodeField (number : Nat) (b : Bytes) :
    b.length ≤ (encodeField number (.delimited b)).length := by
  simp only [encodeField, Payload.encode, List.length_append]
  omega

theorem message_carries {s : Schema β} {get : α → Option β} {set : β → α → α}
    (put : Option β → α → α) (faithful : s.Faithful) (absent : get acc = none)
    (blank : put none acc = acc) (present : ∀ v, put (some v) acc = set v acc) :
    (message s number name get set).Carries m acc (put (get m) acc) := by
  cases content : get m with
  | none =>
    rw [blank]
    exact carries_nothing (by simp [message, content])
  | some v =>
    have bytes : (message s number name get set).write m =
        encodeField number (.delimited (s.encode v)) := by simp [message, content]
    refine carries_payload bytes trivial fun short depth => ?_
    rw [bytes] at short
    have short := Nat.lt_of_le_of_lt (length_le_encodeField _ _) short
    simp [message, absent, faithful.merge_encode short, present]

theorem message_chosen {s : Schema β} {get : α → Option β} {set : β → α → α}
    (faithful : s.Faithful) (absent : get acc = none) :
    (message s number name get set).Carries m acc ((get m).elim acc (set · acc)) :=
  message_carries (fun v m => v.elim m (set · m)) faithful absent rfl fun _ => rfl

theorem repeated_carries {s : Schema β} {get : α → List β} {set : List β → α → α}
    (faithful : s.Faithful) (blank : set [] acc = acc) (got : ∀ l, get (set l acc) = l)
    (again : ∀ l l', set l (set l' acc) = set l acc) :
    (repeated s number name get set).Carries m acc (set (get m) acc) := by
  refine ⟨(get m).map fun v => .delimited (s.encode v), ?_, ?_, fun short depth => ?_⟩
  · simp [repeated, encodeFields, List.flatMap_map]
  · simp [Payload.Formed]
  · simp only [repeated] at short
    -- The messages that have been read stand before those to come.
    suffices read : ∀ done, ((get m).map fun v => Payload.delimited (s.encode v)).foldlM
        (fun acc p => (repeated s number name get set).read depth p acc) (set done acc) =
          some (set (done ++ get m) acc) by
      simpa [blank] using read []
    revert short
    generalize get m = messages
    intro short
    induction messages with
    | nil => simp
    | cons v messages ih =>
      intro done
      rw [List.flatMap_cons, List.length_append] at short
      have bound := length_le_encodeField number (s.encode v)
      have step := faithful.merge_encode (m := v) (by omega) (depth - 1)
      have later := ih (by omega) (done ++ [v])
      simp only [repeated, List.map_cons, List.foldlM_cons, step, got, again] at later ⊢
      simpa using later

end Field

end CallTelemetry.Wire
