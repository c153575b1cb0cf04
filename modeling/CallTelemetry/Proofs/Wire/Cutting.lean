import CallTelemetry.Proofs.Wire.Decoding

/-! Streams of frames that arrive in chunks. Wherever a stream is cut, the decoder answers the frames
of the whole, then the same error or none, and keeps the same bytes for later. -/
namespace CallTelemetry.Wire.Frame

/-- Feeds a decoder with the chunks of a stream, up to the first error. -/
def Decoder.feedAll (d : Decoder) : List Bytes → List Frame × Option FrameError × Decoder
  | [] => ([], none, d)
  | chunk :: chunks =>
    match d.feed chunk with
    | (frames, some e, d) => (frames, some e, d)
    | (frames, none, d) =>
      let (later, e, d) := d.feedAll chunks
      (frames ++ later, e, d)

namespace Decodes

variable {limit : Nat} {bytes next rest : Bytes} {fs gs : List Frame} {e : Option FrameError}

theorem asks_for_more (decodes : Decodes limit bytes fs e rest) (ended : e = none) :
    step limit rest = .needsMore := by
  induction decodes with
  | needsMore found => exact found
  | error => cases ended
  | frame _ _ ih => exact ih ended

/-- An error is found before the bytes that follow are looked at. -/
theorem append_error {e : FrameError} (decodes : Decodes limit bytes fs (some e) rest)
    (more : Bytes) : Decodes limit (bytes ++ more) fs (some e) (rest ++ more) := by
  generalize ended : some e = outcome at decodes
  induction decodes with
  | needsMore => cases ended
  | error found =>
    refine .error ?_
    rw [step_append (by simp [found]), found, Step.before]
  | frame found _ ih =>
    refine .frame ?_ (ih ended)
    rw [step_append (by simp [found]), found, Step.before]

/-- Bytes that are left over are decoded with those that follow. -/
theorem append {more : Bytes} (decodes : Decodes limit bytes fs none next)
    (later : Decodes limit (next ++ more) gs e rest) :
    Decodes limit (bytes ++ more) (fs ++ gs) e rest := by
  generalize ended : none = outcome at decodes
  induction decodes with
  | needsMore => exact later
  | error => cases ended
  | frame found _ ih =>
    refine .frame ?_ (ih later ended)
    rw [step_append (by simp [found]), found, Step.before]

end Decodes

/-- A decoder that waits for more bytes decodes, chunk by chunk, what it has and all that is to come. -/
theorem decodes_feedAll {d : Decoder} (waiting : step d.limit d.bytes = .needsMore)
    (chunks : List Bytes) :
    ∃ rest, Decodes d.limit (d.bytes ++ chunks.flatten) (d.feedAll chunks).1
      (d.feedAll chunks).2.1 rest ∧
        ((d.feedAll chunks).2.1 = none → rest = (d.feedAll chunks).2.2.bytes) := by
  induction chunks generalizing d with
  | nil =>
    refine ⟨d.bytes, ?_, fun _ => rfl⟩
    rw [List.flatten_nil, List.append_nil]
    exact .needsMore waiting
  | cons chunk chunks ih =>
    have first := decodes_decode d.limit (d.bytes ++ chunk)
    rw [List.flatten_cons, ← List.append_assoc]
    simp only [Decoder.feedAll, Decoder.feed]
    generalize decode d.limit (d.bytes ++ chunk) = answer at first
    obtain ⟨fs, e, left⟩ := answer
    cases e with
    | some e => exact ⟨left ++ chunks.flatten, first.append_error _, fun ended => by cases ended⟩
    | none =>
      obtain ⟨rest, later, same⟩ := ih (d := { d with bytes := left, failed := false })
        (first.asks_for_more rfl)
      exact ⟨rest, first.append later, same⟩

/-- Cutting a stream changes nothing: chunk by chunk a decoder answers the frames of the whole stream
and its first error, if there is one, and otherwise keeps the same bytes. A frame takes two bytes at
least, and a call that asks for more takes none. -/
theorem decoding_ignores_cuts (limit : Nat) (chunks : List Bytes) :
    let cut := (Decoder.mk limit [] false).feedAll chunks
    let whole := decode limit chunks.flatten
    cut.1 = whole.1 ∧ cut.2.1 = whole.2.1 ∧
      (whole.2.1 = none → cut.2.2.bytes = whole.2.2 ∧ step limit whole.2.2 = .needsMore) ∧
      (∀ bytes f rest, step limit bytes = .frame f rest →
        ∃ taken, bytes = taken ++ rest ∧ 2 ≤ taken.length) ∧
      ∀ (d : Decoder) chunk, step d.limit (d.bytes ++ chunk) = .needsMore →
        d.feed chunk = ([], none, { d with bytes := d.bytes ++ chunk, failed := false }) := by
  intro cut whole
  obtain ⟨rest, decodes, same⟩ := decodes_feedAll (d := ⟨limit, [], false⟩) rfl chunks
  have answer : whole = (cut.1, cut.2.1, rest) := decodes.decode_eq
  rw [answer]
  refine ⟨rfl, rfl, fun ended => ⟨(same ended).symm, decodes.asks_for_more ended⟩,
    fun _ _ _ => step_taken, ?_⟩
  intro d chunk waiting
  rw [Decoder.feed, (Decodes.needsMore waiting).decode_eq]
  rfl

end CallTelemetry.Wire.Frame
