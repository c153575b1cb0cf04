import CallTelemetry.Text.Blank
import Mathlib.Data.List.DropRight

/-! Text in pieces. Splitting undoes joining, and trimming takes the blanks around a text away and
nothing else. -/
namespace CallTelemetry.Text

theorem split_eq_splitOn (separator : Char) (cs : List Char) :
    split separator cs = cs.splitOn separator := by
  induction cs with
  | nil => rfl
  | cons c cs ih =>
    rw [split, List.splitOn_cons_eq_if_modifyHead, ih]
    by_cases here : c = separator
    · simp [here]
    · obtain ⟨piece, pieces, parts⟩ := List.exists_cons_of_ne_nil (List.splitOn_ne_nil separator cs)
      simp [here, parts]

theorem split_ne_nil (separator : Char) (cs : List Char) : split separator cs ≠ [] := by
  rw [split_eq_splitOn]
  exact List.splitOn_ne_nil separator cs

theorem intercalate_split (separator : Char) (cs : List Char) :
    [separator].intercalate (split separator cs) = cs := by
  rw [split_eq_splitOn, List.intercalate_splitOn]

theorem split_intercalate {separator : Char} {pieces : List (List Char)}
    (whole : ∀ piece ∈ pieces, separator ∉ piece) (some_ : pieces ≠ []) :
    split separator ([separator].intercalate pieces) = pieces := by
  rw [split_eq_splitOn, List.splitOn_intercalate separator whole some_]

theorem split_eq_singleton {separator : Char} {cs : List Char} (whole : separator ∉ cs) :
    split separator cs = [cs] := by
  rw [split_eq_splitOn, List.splitOn_eq_singleton whole]

/-- What stands behind the last separator is the last piece. -/
theorem split_append_cons {separator : Char} (cs : List Char) {last : List Char}
    (whole : separator ∉ last) :
    split separator (cs ++ separator :: last) = split separator cs ++ [last] := by
  rw [split_eq_splitOn, List.splitOn_append_cons_self, List.splitOn_eq_singleton whole,
    split_eq_splitOn]

/-- A text is taken apart at its last separator in one way. -/
theorem append_cons_inj {separator : Char} {cs cs' last last' : List Char} (whole : separator ∉ last)
    (whole' : separator ∉ last') (same : cs ++ separator :: last = cs' ++ separator :: last') :
    cs = cs' ∧ last = last' := by
  have pieces := congrArg (split separator) same
  rw [split_append_cons cs whole, split_append_cons cs' whole'] at pieces
  obtain ⟨before, behind⟩ := List.append_inj' pieces rfl
  have joined := congrArg [separator].intercalate before
  rw [intercalate_split, intercalate_split] at joined
  exact ⟨joined, List.singleton_inj.1 behind⟩

/-- The last separator of a text. -/
theorem exists_last {separator : Char} {cs : List Char} (member : separator ∈ cs) :
    ∃ before last, cs = before ++ separator :: last ∧ separator ∉ last := by
  obtain ⟨last, before, parts, whole⟩ := List.eq_append_cons_of_mem (List.mem_reverse.2 member)
  refine ⟨before.reverse, last.reverse, ?_, by simpa using whole⟩
  rw [← List.reverse_reverse cs, parts, List.reverse_append, List.reverse_cons,
    List.append_assoc, List.singleton_append]

theorem dropWhile_append_cons {p : α → Bool} {a : α} (stop : p a = false) (l l' : List α) :
    (l ++ a :: l').dropWhile p = l.dropWhile p ++ a :: l' := by
  rw [List.dropWhile_append]
  split
  next none => simp [List.isEmpty_iff.1 none, stop]
  next => rfl

theorem rdropWhile_append_cons {p : α → Bool} {a : α} (stop : p a = false) (l l' : List α) :
    (l ++ a :: l').rdropWhile p = l ++ a :: l'.rdropWhile p := by
  simp only [List.rdropWhile, List.reverse_append, List.reverse_cons, List.append_assoc,
    List.singleton_append, dropWhile_append_cons stop, List.reverse_reverse]

theorem rdropWhile_append_of_pos {p : α → Bool} {l' : List α} (all : ∀ a ∈ l', p a) (l : List α) :
    (l ++ l').rdropWhile p = l.rdropWhile p := by
  rw [List.rdropWhile, List.reverse_append,
    List.dropWhile_append_of_pos fun a member => all a (List.mem_reverse.1 member), List.rdropWhile]

theorem trimList_eq (cs : List Char) :
    trimList cs = (cs.dropWhile isBlank).rdropWhile isBlank := rfl

theorem trimList_append_left {blanks : List Char} (blank : ∀ c ∈ blanks, isBlank c)
    (cs : List Char) : trimList (blanks ++ cs) = trimList cs := by
  rw [trimList_eq, List.dropWhile_append_of_pos blank, trimList_eq]

theorem trimList_append_right (cs : List Char) {blanks : List Char}
    (blank : ∀ c ∈ blanks, isBlank c) : trimList (cs ++ blanks) = trimList cs := by
  rw [trimList_eq, List.dropWhile_append, trimList_eq]
  split
  next none =>
    have gone : blanks.dropWhile isBlank = [] := List.dropWhile_eq_nil_iff.2 blank
    rw [gone, List.isEmpty_iff.1 none]
  next => exact rdropWhile_append_of_pos blank _

theorem trimList_blanks {blanks : List Char} (blank : ∀ c ∈ blanks, isBlank c) :
    trimList blanks = [] := by
  have trimmed := trimList_append_left blank []
  rwa [List.append_nil] at trimmed

/-- Of a text that begins with a character that is no blank only the end is trimmed. -/
theorem trimList_cons {c : Char} (visible : isBlank c = false) (cs : List Char) :
    trimList (c :: cs) = c :: cs.rdropWhile isBlank := by
  rw [trimList_eq, List.dropWhile_cons_of_neg (by simp [visible])]
  exact rdropWhile_append_cons visible [] cs

theorem trimList_rdropWhile (cs : List Char) : trimList (cs.rdropWhile isBlank) = trimList cs :=
  calc trimList (cs.rdropWhile isBlank)
    _ = trimList (cs.rdropWhile isBlank ++ cs.rtakeWhile isBlank) :=
      (trimList_append_right _ fun _ => List.mem_rtakeWhile_imp).symm
    _ = trimList cs := by rw [List.rdropWhile_append_rtakeWhile]

/-- A trimmed text that is not empty begins with a character that is no blank. -/
theorem visible_of_trimmed {c : Char} {cs : List Char} (trimmed : trimList (c :: cs) = c :: cs) :
    isBlank c = false := by
  by_contra blank
  have shorter : (trimList (c :: cs)).length ≤ cs.length := by
    rw [trimList_eq, List.dropWhile_cons_of_pos (by simpa using blank)]
    exact (List.rdropWhile_prefix isBlank _).length_le.trans (List.dropWhile_sublist _).length_le
  rw [trimmed, List.length_cons] at shorter
  omega

end CallTelemetry.Text
