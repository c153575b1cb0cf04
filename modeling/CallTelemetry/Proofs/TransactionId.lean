import CallTelemetry.Proofs.Text.Blank
import CallTelemetry.Proofs.Text.Integer
import CallTelemetry.TransactionId

/-! Transaction identifiers in text. A text is taken apart at its last two carets, in one way only, so
an identifier is told from its text whatever its agent is called, and a text is read as an identifier
just if its agent has a name and the other two parts write numbers of 64 bits. -/
namespace CallTelemetry.TransactionId

open Text

/-- Whether a text consists of three parts, the last two without carets. -/
structure Parts (s agentId : String) (startTime sequence : List Char) : Prop where
  text : s.toList = agentId.toList ++ separator :: startTime ++ separator :: sequence
  startTime : separator ∉ startTime
  sequence : separator ∉ sequence

/-- Whether a part writes no number, or one that 64 bits do not hold. -/
def Outside (part : List Char) : Prop :=
  ∀ n, Numeral part n → n < Int64.minValue.toInt ∨ Int64.maxValue.toInt < n

section

variable {s agentId : String} {startTime sequence : List Char}

theorem Parts.split (parts : Parts s agentId startTime sequence) :
    Text.split separator s.toList =
      Text.split separator agentId.toList ++ [startTime] ++ [sequence] := by
  rw [parts.text, split_append_cons _ parts.sequence, split_append_cons _ parts.startTime]

/-- A text is taken apart in one way. -/
theorem Parts.unique {agentId' : String} {startTime' sequence' : List Char}
    (parts : Parts s agentId startTime sequence) (parts' : Parts s agentId' startTime' sequence') :
    agentId = agentId' ∧ startTime = startTime' ∧ sequence = sequence' := by
  obtain ⟨before, last⟩ :=
    append_cons_inj parts.sequence parts'.sequence (parts.text.symm.trans parts'.text)
  obtain ⟨name, between⟩ := append_cons_inj parts.startTime parts'.startTime before
  exact ⟨String.toList_inj.1 name, between, last⟩

theorem parse?_of_parts (parts : Parts s agentId startTime sequence) :
    parse? s = if agentId = "" then none
      else do return ⟨agentId, ← int64? startTime, ← int64? sequence⟩ := by
  obtain ⟨piece, pieces, first⟩ :=
    List.exists_cons_of_ne_nil (List.reverse_ne_nil_iff.2 (split_ne_nil separator agentId.toList))
  have joined : String.ofList ([separator].intercalate (piece :: pieces).reverse) = agentId := by
    rw [← first, List.reverse_reverse, intercalate_split, String.ofList_toList]
  have reversed :
      (Text.split separator s.toList).reverse = sequence :: startTime :: piece :: pieces := by
    rw [parts.split, List.reverse_append, List.reverse_append, first]
    rfl
  rw [parse?, reversed]
  simp only [joined, String.isEmpty_iff]

end

/-- A text with less than two carets has no three parts, and any other has. -/
theorem few_or_parts (s : String) : s.toList.count separator < 2 ∧ parse? s = none ∨
    ∃ agentId startTime sequence, Parts s agentId startTime sequence := by
  by_cases one : separator ∈ s.toList
  · obtain ⟨before, sequence, text, whole⟩ := exists_last one
    by_cases two : separator ∈ before
    · obtain ⟨agentId, startTime, rfl, whole'⟩ := exists_last two
      exact .inr ⟨String.ofList agentId, startTime, sequence, by rw [text, String.toList_ofList],
        whole', whole⟩
    · refine .inl ⟨?_, ?_⟩
      · simp [text, List.count_eq_zero_of_not_mem two, List.count_eq_zero_of_not_mem whole]
      · rw [parse?, text, split_append_cons _ whole, split_eq_singleton two]
        rfl
  · refine .inl ⟨by simp [List.count_eq_zero_of_not_mem one], ?_⟩
    rw [parse?, split_eq_singleton one]
    rfl

theorem int64?_eq_some_iff {cs : List Char} {n : Int64} :
    int64? cs = some n ↔ Numeral cs n.toInt := by
  have signed : Int64.minValue.toInt < 0 := by decide
  simp only [int64?, Option.map_eq_some_iff, integerIn?_eq_some_iff]
  constructor
  · rintro ⟨k, ⟨⟨numeral, -⟩, low, high⟩, rfl⟩
    rwa [Int64.toInt_ofInt_of_le low (Int.lt_add_one_of_le high)]
  · intro numeral
    exact ⟨n.toInt, ⟨⟨numeral, fun _ => signed⟩, n.minValue_le_toInt, n.toInt_le⟩, Int64.ofInt_toInt n⟩

theorem int64?_eq_none_iff {cs : List Char} : int64? cs = none ↔ Outside cs := by
  simp only [Option.eq_none_iff_forall_ne_some, ne_eq, int64?_eq_some_iff]
  constructor
  · intro none n numeral
    by_contra inside
    obtain ⟨low, high⟩ : Int64.minValue.toInt ≤ n ∧ n ≤ Int64.maxValue.toInt := by omega
    refine none (Int64.ofInt n) ?_
    rwa [Int64.toInt_ofInt_of_le low (Int.lt_add_one_of_le high)]
  · intro outside n numeral
    have low := n.minValue_le_toInt
    have high : n.toInt ≤ Int64.maxValue.toInt := n.toInt_le
    rcases outside n.toInt numeral with below | above <;> omega

theorem Parts.two_le_count {s agentId : String} {startTime sequence : List Char}
    (parts : Parts s agentId startTime sequence) : 2 ≤ s.toList.count separator := by
  simp only [parts.text, List.count_append, List.count_cons_self]
  omega

/-- A text is read as an identifier just if its agent has a name and the other parts write numbers. -/
theorem parse?_eq_some_iff {s : String} {t : TransactionId} :
    parse? s = some t ↔ t.agentId ≠ "" ∧ ∃ startTime sequence, Parts s t.agentId startTime sequence ∧
      Numeral startTime t.agentStartTime.toInt ∧ Numeral sequence t.sequence.toInt := by
  rcases few_or_parts s with ⟨few, none⟩ | ⟨agentId, startTime, sequence, parts⟩
  · rw [none]
    refine iff_of_false nofun ?_
    rintro ⟨-, startTime, sequence, parts, -⟩
    exact absurd parts.two_le_count (by omega)
  · rw [parse?_of_parts parts]
    constructor
    · intro read
      split at read
      next => cases read
      next named =>
        obtain ⟨start, first, read⟩ := Option.bind_eq_some_iff.1 read
        obtain ⟨number, second, read⟩ := Option.bind_eq_some_iff.1 read
        obtain rfl := Option.some.inj read
        exact ⟨named, startTime, sequence, parts, int64?_eq_some_iff.1 first,
          int64?_eq_some_iff.1 second⟩
    · rintro ⟨named, _, _, parts', first, second⟩
      obtain ⟨rfl, rfl, rfl⟩ := parts.unique parts'
      rw [if_neg named, int64?_eq_some_iff.2 first, int64?_eq_some_iff.2 second]
      rfl

theorem parse?_eq_none_iff {s : String} :
    parse? s = none ↔ s.toList.count separator < 2 ∨
      ∃ agentId startTime sequence, Parts s agentId startTime sequence ∧
        (agentId = "" ∨ Outside startTime ∨ Outside sequence) := by
  rcases few_or_parts s with ⟨few, none⟩ | ⟨agentId, startTime, sequence, parts⟩
  · exact iff_of_true none (.inl few)
  · have many : ¬ s.toList.count separator < 2 := by
      have := parts.two_le_count
      omega
    have here (p : String → List Char → List Char → Prop) :
        (∃ a b c, Parts s a b c ∧ p a b c) ↔ p agentId startTime sequence := by
      refine ⟨?_, fun holds => ⟨_, _, _, parts, holds⟩⟩
      rintro ⟨_, _, _, parts', holds⟩
      obtain ⟨rfl, rfl, rfl⟩ := parts.unique parts'
      exact holds
    rw [parse?_of_parts parts, or_iff_right many, here, ← int64?_eq_none_iff, ← int64?_eq_none_iff]
    split
    next unnamed => exact iff_of_true rfl (.inl unnamed)
    next named =>
      rw [or_iff_right named]
      cases int64? startTime <;> cases int64? sequence <;> simp

/-- The text of an identifier has its agent and the texts of its two numbers for parts. -/
theorem parts_render (t : TransactionId) : Parts t.render t.agentId
    (toString t.agentStartTime.toInt).toList (toString t.sequence.toInt).toList := by
  have whole (n : Int) : separator ∉ (toString n).toList := by
    intro member
    rcases (numeral_toString n).chars separator member with digit | sign | sign <;> cases ‹_›
  refine ⟨?_, whole _, whole _⟩
  simp [render, separator]

theorem parse?_render {t : TransactionId} (named : t.agentId ≠ "") : parse? t.render = some t :=
  parse?_eq_some_iff.2 ⟨named, _, _, parts_render t, numeral_toString _, numeral_toString _⟩

theorem render_injective {t t' : TransactionId} (same : t.render = t'.render) : t = t' := by
  have parts := parts_render t
  rw [same] at parts
  obtain ⟨agentId, startTime, sequence⟩ := parts.unique (parts_render t')
  have number {n n' : Int64} (alike : (toString n.toInt).toList = (toString n'.toInt).toList) :
      n = n' := by
    have numeral := numeral_toString n.toInt
    rw [alike] at numeral
    exact Int64.toInt_inj.1 (numeral.unique (numeral_toString n'.toInt))
  cases t
  cases t'
  simp only [mk.injEq]
  exact ⟨agentId, number startTime, number sequence⟩

/-- An identifier is read back from its text, whatever its agent is called and whatever its numbers
are, and no other has that text. What is read from a text has a name for its agent and is read back
from its own. Refused are just the texts with less than two carets, those whose agent has no name, and
those with a part that is no number of 64 bits. -/
theorem told_by_text :
    (∀ t : TransactionId, t.agentId ≠ "" → parse? t.render = some t) ∧
    (∀ t t' : TransactionId, t.render = t'.render → t = t') ∧
    (∀ s t, parse? s = some t → t.agentId ≠ "" ∧ parse? t.render = some t) ∧
    ∀ s, parse? s = none ↔ s.toList.count separator < 2 ∨
      ∃ agentId startTime sequence, Parts s agentId startTime sequence ∧
        (agentId = "" ∨ Outside startTime ∨ Outside sequence) := by
  refine ⟨fun t => parse?_render, fun t t' => render_injective, fun s t read => ?_,
    fun s => parse?_eq_none_iff⟩
  have named := (parse?_eq_some_iff.1 read).1
  exact ⟨named, parse?_render named⟩

/-- An agent with carets in its name, numbers at the limits, and texts with signs and zeros. -/
theorem told_by_text_limits :
    let t : TransactionId := ⟨"^a^1^", Int64.minValue, Int64.maxValue⟩
    t.render = "^a^1^^-9223372036854775808^9223372036854775807" ∧ parse? t.render = some t ∧
      parse? "a^-0^+007" = some ⟨"a", 0, 7⟩ ∧
      parse? (render ⟨"a", 0, 7⟩) = some ⟨"a", 0, 7⟩ ∧
      parse? "a^9223372036854775808^1" = none ∧ parse? "^1^1" = none ∧ parse? "a^1" = none := by
  obtain ⟨back, -, again, refused⟩ := told_by_text
  have read : parse? "a^-0^+007" = some ⟨"a", 0, 7⟩ := by decide +kernel
  have large : Numeral "9223372036854775808".toList 9223372036854775808 :=
    numeral_toString 9223372036854775808
  refine ⟨by decide +kernel, back _ (by decide), read, (again _ _ read).2, (refused _).2 (.inr ?_),
    (refused _).2 (.inr ?_), (refused _).2 (.inl (by decide))⟩
  · refine ⟨"a", "9223372036854775808".toList, "1".toList, ⟨by decide, by decide, by decide⟩,
      .inr (.inl fun n numeral => .inr ?_)⟩
    rw [numeral.unique large]
    decide
  · exact ⟨"", "1".toList, "1".toList, ⟨by decide, by decide, by decide⟩, .inl rfl⟩

end CallTelemetry.TransactionId
