import CallTelemetry.Proofs.SortedMap
import CallTelemetry.Proofs.Text.Blank
import CallTelemetry.Settings.Properties

/-! Settings in writing. Keys and values are written line by line, with blanks wherever they may stand
and with empty lines and comments in between; parsing finds what was written last of each key. -/
namespace CallTelemetry.Settings

/-- The value that is told last of a key. -/
def lastOf (pairs : List (String × String)) (key : String) : Option String :=
  pairs.reverse.lookup key

theorem lastOf_concat (pairs : List (String × String)) (e : String × String) (key : String) :
    lastOf (pairs ++ [e]) key = if key = e.1 then some e.2 else lastOf pairs key := by
  rw [lastOf, List.reverse_concat', List.lookup_cons]
  by_cases here : key = e.1
  · simp [here]
  · simp [here, beq_eq_false_iff_ne.2 here, lastOf]

theorem lastOf_eq_some_iff {pairs : List (String × String)} {key value : String} :
    lastOf pairs key = some value ↔
      ∃ before after, pairs = before ++ (key, value) :: after ∧ ∀ e ∈ after, e.1 ≠ key := by
  rw [lastOf, List.lookup_eq_some_iff]
  constructor
  · rintro ⟨after, before, parts, others⟩
    refine ⟨before.reverse, after.reverse, ?_, fun e member same => ?_⟩
    · rw [← List.reverse_reverse pairs, parts, List.reverse_append, List.reverse_cons,
        List.append_assoc, List.singleton_append]
    · have apart := others e (List.mem_reverse.1 member)
      simp [same] at apart
  · rintro ⟨before, after, rfl, others⟩
    refine ⟨after.reverse, before.reverse, by simp, fun e member => ?_⟩
    simpa using (others e (List.mem_reverse.1 member)).symm

theorem get?_ofList (pairs : List (String × String)) (key : String) :
    (SortedMap.ofList pairs).get? key = lastOf pairs key := by
  induction pairs using List.reverseRecOn with
  | nil => rfl
  | append_singleton pairs e ih =>
    rw [SortedMap.ofList, List.foldl_append, ← SortedMap.ofList, List.foldl_cons, List.foldl_nil,
      SortedMap.get?_insert, ih, lastOf_concat]

namespace Properties

theorem isSeparator_eq_false_iff {c : Char} : isSeparator c = false ↔ c ≠ '=' ∧ c ≠ ':' := by
  simp [isSeparator]

theorem isComment_eq_false {cs : List Char} (uncommented : ∀ c ∈ cs.head?, c ≠ '#' ∧ c ≠ '!') :
    isComment cs = false := by
  unfold isComment
  split
  next => exact absurd rfl (uncommented '#' rfl).1
  next => exact absurd rfl (uncommented '!' rfl).2
  next => rfl

theorem isComment_append {cs : List Char} (some_ : cs ≠ []) (cs' : List Char) :
    isComment (cs ++ cs') = isComment cs := by
  cases cs with
  | nil => exact absurd rfl some_
  | cons c cs =>
    rw [List.cons_append]
    unfold isComment
    split <;> simp_all

/-- A line is a key and a value if it has a separator and does not begin as a comment does. -/
theorem line?_of_trimmed {line key value : List Char} {separator : Char}
    (parts : Text.trimList line = key ++ separator :: value) (named : key ≠ [])
    (uncommented : isComment key = false) (plain : ∀ c ∈ key, isSeparator c = false)
    (separates : isSeparator separator) :
    line? line = some (String.ofList (Text.trimList key), String.ofList (Text.trimList value)) := by
  have before : ∀ c ∈ key, (!isSeparator c) = true := fun c member => by
    rw [plain c member, Bool.not_false]
  have keyed : (key ++ separator :: value).takeWhile (fun c => !isSeparator c) = key := by
    rw [List.takeWhile_append_of_pos before]
    simp [separates]
  have valued : (key ++ separator :: value).dropWhile (fun c => !isSeparator c) =
      separator :: value := by
    rw [List.dropWhile_append_of_pos before]
    simp [separates]
  rw [line?, parts, isComment_append named, uncommented, keyed, valued]
  rfl

end Properties

namespace Writing

/-- Blanks within a line. A carriage return at its end is one of them. -/
structure Blanks where
  chars : List Char
  blank : ∀ c ∈ chars, Text.isBlank c
  unbroken : '\n' ∉ chars

/-- A key and a value that fit into a line. -/
structure Entry where
  key : String
  value : String
  named : key ≠ ""
  trimmed : Text.trim key = key
  uncommented : ∀ c ∈ key.toList.head?, c ≠ '#' ∧ c ≠ '!'
  plain : ∀ c ∈ key.toList, c ≠ '=' ∧ c ≠ ':' ∧ c ≠ '\n'
  trimmed_value : Text.trim value = value
  unbroken : '\n' ∉ value.toList

inductive Separator where
  | equals
  | colon

def Separator.char : Separator → Char
  | equals => '='
  | colon => ':'

inductive CommentSign where
  | hash
  | exclamation

def CommentSign.char : CommentSign → Char
  | hash => '#'
  | exclamation => '!'

inductive Line where
  | blank (blanks : Blanks)
  | comment (before : Blanks) (sign : CommentSign) (text : List Char) (unbroken : '\n' ∉ text)
  | entry (e : Entry) (separator : Separator) (before middle gap behind : Blanks)

namespace Line

def chars : Line → List Char
  | blank blanks => blanks.chars
  | comment before sign text _ => before.chars ++ sign.char :: text
  | entry e separator before middle gap behind =>
    before.chars ++ (e.key.toList ++ middle.chars ++
      separator.char :: (gap.chars ++ (e.value.toList ++ behind.chars)))

def pair? : Line → Option (String × String)
  | entry e _ _ _ _ _ => some (e.key, e.value)
  | _ => none

end Line

/-- The text of some lines. It ends in a line break if the last line is empty. -/
def render (lines : List Line) : String := String.ofList (['\n'].intercalate (lines.map Line.chars))

def pairs (lines : List Line) : List (String × String) := lines.filterMap Line.pair?

theorem toList_of_trimmed {s : String} (trimmed : Text.trim s = s) :
    Text.trimList s.toList = s.toList := by
  have chars := congrArg String.toList trimmed
  rwa [Text.trim, String.toList_ofList] at chars

theorem Separator.isSeparator_char (s : Separator) : Properties.isSeparator s.char := by
  cases s <;> decide

theorem Separator.visible (s : Separator) : Text.isBlank s.char = false := by
  cases s <;> decide

theorem Blanks.not_separator (b : Blanks) : ∀ c ∈ b.chars, Properties.isSeparator c = false := by
  intro c member
  have blank := b.blank c member
  refine Properties.isSeparator_eq_false_iff.2 ⟨?_, ?_⟩
  all_goals
    rintro rfl
    cases blank

theorem Line.trimList_entry (e : Entry) (s : Separator) (before middle gap behind : Blanks) :
    Text.trimList (entry e s before middle gap behind).chars = e.key.toList ++ middle.chars ++
      s.char :: (gap.chars ++ (e.value.toList ++ behind.chars)).rdropWhile Text.isBlank := by
  obtain ⟨c, cs, key⟩ := List.exists_cons_of_ne_nil (mt String.toList_eq_nil_iff.1 e.named)
  have visible : Text.isBlank c = false := by
    have trimmed := toList_of_trimmed e.trimmed
    rw [key] at trimmed
    exact Text.visible_of_trimmed trimmed
  rw [chars, Text.trimList_append_left before.blank, key, List.cons_append, List.cons_append,
    Text.trimList_cons visible, Text.rdropWhile_append_cons s.visible]
  rfl

/-- A line is read as what was written into it. -/
theorem Line.line?_chars (l : Line) : Properties.line? l.chars = l.pair? := by
  cases l with
  | blank blanks =>
    rw [Properties.line?, chars, Text.trimList_blanks blanks.blank]
    rfl
  | comment before sign text _ =>
    have visible : Text.isBlank sign.char = false := by cases sign <;> rfl
    have commented : Properties.isComment (sign.char :: text.rdropWhile Text.isBlank) := by
      cases sign <;> rfl
    rw [Properties.line?, chars, Text.trimList_append_left before.blank, Text.trimList_cons visible]
    simp only [commented, if_true]
    rfl
  | entry e s before middle gap behind =>
    have named : e.key.toList ≠ [] := mt String.toList_eq_nil_iff.1 e.named
    have plain : ∀ c ∈ e.key.toList ++ middle.chars, Properties.isSeparator c = false := by
      intro c member
      rcases List.mem_append.1 member with inside | beside
      · obtain ⟨equals, colon, -⟩ := e.plain c inside
        exact Properties.isSeparator_eq_false_iff.2 ⟨equals, colon⟩
      · exact middle.not_separator c beside
    have uncommented : Properties.isComment (e.key.toList ++ middle.chars) = false := by
      rw [Properties.isComment_append named, Properties.isComment_eq_false e.uncommented]
    rw [Properties.line?_of_trimmed (trimList_entry e s before middle gap behind) (by simp [e.named])
        uncommented plain s.isSeparator_char,
      Text.trimList_append_right _ middle.blank, toList_of_trimmed e.trimmed,
      Text.trimList_rdropWhile, Text.trimList_append_left gap.blank,
      Text.trimList_append_right _ behind.blank, toList_of_trimmed e.trimmed_value,
      String.ofList_toList, String.ofList_toList]
    rfl

theorem Line.unbroken (l : Line) : '\n' ∉ l.chars := by
  cases l with
  | blank blanks => exact blanks.unbroken
  | comment before sign text unbroken =>
    have other : '\n' ≠ sign.char := by cases sign <;> decide
    simp [chars, before.unbroken, other, unbroken]
  | entry e s before middle gap behind =>
    have other : '\n' ≠ s.char := by cases s <;> decide
    have plain : '\n' ∉ e.key.toList := fun member => (e.plain _ member).2.2 rfl
    simp [chars, before.unbroken, plain, middle.unbroken, other, gap.unbroken, e.unbroken,
      behind.unbroken]

/-- Of written lines, the pairs are found in their order. -/
theorem filterMap_line?_render (lines : List Line) :
    (Text.split '\n' (render lines).toList).filterMap Properties.line? = pairs lines := by
  rw [render, String.toList_ofList, pairs]
  cases lines with
  | nil => rfl
  | cons line lines =>
    have unbroken : ∀ piece ∈ (line :: lines).map Line.chars, '\n' ∉ piece := by
      simp [Line.unbroken]
    rw [Text.split_intercalate unbroken (by simp), List.filterMap_map]
    exact List.filterMap_congr fun l _ => l.line?_chars

theorem parse_render (lines : List Line) :
    Properties.parse (render lines) = .ofList (pairs lines) := by
  rw [Properties.parse, filterMap_line?_render]

/-- Parsing finds the value that was written last of each key and finds no other keys, however the
lines are laid out: it comes to setting the keys one after the other. A value that is empty counts as
absent when it is asked for. -/
theorem parsed_as_written (lines : List Line) :
    let p := Properties.parse (render lines)
    (∀ key value, p.get? key = some value ↔
      ∃ before after, pairs lines = before ++ (key, value) :: after ∧ ∀ e ∈ after, e.1 ≠ key) ∧
    (∀ key, key ∈ p.keys ↔ ∃ value, (key, value) ∈ pairs lines) ∧
    (∀ key, p.value? key = (lastOf (pairs lines) key).filter fun value => !value.isEmpty) ∧
    p = (pairs lines).foldl (fun p e => p.insert e.1 e.2) .empty := by
  intro p
  have parsed : p = .ofList (pairs lines) := parse_render lines
  refine ⟨fun key value => ?_, fun key => ?_, fun key => ?_, parsed⟩
  · rw [parsed, get?_ofList, lastOf_eq_some_iff]
  · rw [parsed, SortedMap.mem_keys_ofList]
  · rw [Properties.value?, parsed, get?_ofList]

/-- Lines with a comment, carriage returns, a key that comes twice, a value with separators and comment
signs in it, and one that is empty. -/
def layout : List Line :=
  let none : Blanks := ⟨[], by simp, by decide⟩
  let spaces : Blanks := ⟨[' ', '\t'], by simp [Text.isBlank], by decide⟩
  let return_ : Blanks := ⟨['\r'], by simp [Text.isBlank], by decide⟩
  let small : Entry :=
    ⟨"limit size", "10", by decide, by decide, by simp, by simp, by decide, by decide⟩
  let odd : Entry :=
    ⟨"limit size", "=:# !", by decide, by decide, by simp, by simp, by decide, by decide⟩
  let empty : Entry :=
    ⟨"empty", "", by decide, by decide, by simp, by simp, by decide, by decide⟩
  [.comment none .hash "a=b\r".toList (by decide), .entry small .equals spaces spaces none return_,
    .blank spaces, .entry odd .colon none none spaces none, .entry empty .equals none none none none]

theorem parsed_as_written_layout :
    render layout = "#a=b\r\n \tlimit size \t=10\r\n \t\nlimit size: \t=:# !\nempty=" ∧
      let p := Properties.parse (render layout)
      p.get? "limit size" = some "=:# !" ∧ p.get? "empty" = some "" ∧ p.value? "empty" = none ∧
        "#a" ∉ p.keys := by
  obtain ⟨found, keys, valued, -⟩ := parsed_as_written layout
  refine ⟨by decide +kernel, ?_, ?_, ?_, ?_⟩
  · exact (found _ _).2 ⟨[("limit size", "10")], [("empty", "")], rfl, by decide⟩
  · exact (found _ _).2 ⟨[("limit size", "10"), ("limit size", "=:# !")], [], rfl, nofun⟩
  · exact (valued "empty").trans (by decide)
  · exact fun member => absurd ((keys "#a").1 member) (by simp [pairs, layout, Line.pair?])

end Writing

end CallTelemetry.Settings
