import CallTelemetry.Wire.Frame

/-! What one call of a frame decoder does, and what calls in sequence come to. A call that has found
a frame or an error finds the same when more bytes follow; only a call that asks for more can change
its mind. -/
namespace CallTelemetry.Wire.Frame

theorem readLength_append {value : UInt64} {position : Nat} {bytes : Bytes}
    (complete : readLength value position bytes ≠ .incomplete) (more : Bytes) :
    readLength value position (bytes ++ more) = readLength value position bytes := by
  induction bytes generalizing value position with
  | nil =>
    by_cases room : position < Varint.maxLength
    · simp [readLength, room] at complete
    · cases more <;> simp [readLength, room]
  | cons b bytes ih =>
    rw [List.cons_append]
    simp only [readLength] at complete ⊢
    split at complete
    next room =>
      rw [if_pos room, if_pos room]
      split at complete
      next last => rw [if_pos last, if_pos last]
      next last => rw [if_neg last, if_neg last, ih complete]
    next room => rw [if_neg room, if_neg room]

/-- A length ends within the bytes that it is read from, and takes one of them at least. -/
theorem readLength_width {value : UInt64} {position : Nat} {bytes : Bytes} {length : UInt64}
    {width : Nat} (found : readLength value position bytes = .known length width) :
    position < width ∧ width ≤ position + bytes.length := by
  induction bytes generalizing value position with
  | nil =>
    simp only [readLength] at found
    split at found <;> cases found
  | cons b bytes ih =>
    simp only [readLength] at found
    split at found
    · split at found
      · cases found
        simp only [List.length_cons]
        omega
      · have := ih found
        simp only [List.length_cons]
        omega
    · cases found

/-- What a call answers when more bytes stand behind those that it looked at. -/
def Step.before (more : Bytes) : Step → Step
  | .needsMore => .needsMore
  | .frame f rest => .frame f (rest ++ more)
  | .error e rest => .error e (rest ++ more)

theorem step_append {limit : Nat} {bytes : Bytes} (complete : step limit bytes ≠ .needsMore)
    (more : Bytes) : step limit (bytes ++ more) = (step limit bytes).before more := by
  cases bytes with
  | nil => exact absurd rfl complete
  | cons kind tail =>
    rw [List.cons_append]
    simp only [step] at complete ⊢
    cases found : readLength 0 0 tail with
    | incomplete => simp [found] at complete
    | malformed =>
      rw [readLength_append (by simp [found]), found]
      rfl
    | known length width =>
      have inside : width ≤ tail.length := by
        have := readLength_width found
        omega
      rw [readLength_append (by simp [found]), found]
      simp only [found] at complete ⊢
      split at complete
      next large => rw [if_pos large, if_pos large]; rfl
      next large =>
        rw [if_neg large, if_neg large]
        split at complete
        · exact absurd rfl complete
        next short =>
          have whole : length.toNat ≤ (tail.drop width).length := Nat.not_lt.1 short
          rw [List.drop_append_of_le_length inside, List.length_append, if_neg (by omega),
            if_neg short, List.take_append_of_le_length whole, List.drop_append_of_le_length whole]
          cases ofBody kind ((tail.drop width).take length.toNat) <;> rfl

/-- The bytes of a frame are those of its kind, of its length and of its body. -/
theorem step_taken {limit : Nat} {bytes rest : Bytes} {f : Frame}
    (found : step limit bytes = .frame f rest) :
    ∃ taken, bytes = taken ++ rest ∧ 2 ≤ taken.length := by
  cases bytes with
  | nil => cases found
  | cons kind tail =>
    simp only [step] at found
    cases length_ : readLength 0 0 tail with
    | incomplete => simp [length_] at found
    | malformed => simp [length_] at found
    | known length width =>
      have inside := readLength_width length_
      simp only [length_] at found
      split at found
      · cases found
      · split at found
        · cases found
        next short =>
          have whole : (tail.drop width).drop length.toNat = rest := by
            revert found
            cases ofBody kind ((tail.drop width).take length.toNat) <;> simp
          rw [List.drop_drop] at whole
          refine ⟨kind :: tail.take (width + length.toNat), ?_, ?_⟩
          · rw [List.cons_append, ← whole, List.take_append_drop]
          · rw [List.length_drop] at short
            rw [List.length_cons, List.length_take]
            omega

/-- The frames that calls answer one after the other, until one of them asks for more bytes or ends
in an error, and the bytes that are then left. -/
inductive Decodes (limit : Nat) : Bytes → List Frame → Option FrameError → Bytes → Prop
  | needsMore {bytes : Bytes} : step limit bytes = .needsMore → Decodes limit bytes [] none bytes
  | error {bytes rest : Bytes} {e : FrameError} :
    step limit bytes = .error e rest → Decodes limit bytes [] (some e) rest
  | frame {bytes next rest : Bytes} {f : Frame} {fs : List Frame} {e : Option FrameError} :
    step limit bytes = .frame f next → Decodes limit next fs e rest →
      Decodes limit bytes (f :: fs) e rest

namespace Decodes

variable {limit : Nat} {bytes rest : Bytes} {fs : List Frame} {e : Option FrameError}

/-- Enough calls to look at every byte come to the end of the frames. -/
theorem decodeAll_eq (decodes : Decodes limit bytes fs e rest) {fuel : Nat}
    (enough : bytes.length < fuel) : decodeAll limit fuel bytes = (fs, e, rest) := by
  induction decodes generalizing fuel with
  | needsMore found =>
    obtain ⟨fuel, rfl⟩ := Nat.exists_eq_succ_of_ne_zero (Nat.ne_zero_of_lt enough)
    rw [decodeAll, found]
  | error found =>
    obtain ⟨fuel, rfl⟩ := Nat.exists_eq_succ_of_ne_zero (Nat.ne_zero_of_lt enough)
    rw [decodeAll, found]
  | @frame _ next _ _ _ _ found _ ih =>
    obtain ⟨fuel, rfl⟩ := Nat.exists_eq_succ_of_ne_zero (Nat.ne_zero_of_lt enough)
    obtain ⟨taken, rfl, two⟩ := step_taken found
    have enough : next.length < fuel := by
      rw [List.length_append] at enough
      omega
    rw [decodeAll, found]
    simp only [ih enough]

theorem decode_eq (decodes : Decodes limit bytes fs e rest) : decode limit bytes = (fs, e, rest) :=
  decodes.decodeAll_eq (Nat.lt_succ_self _)

end Decodes

theorem decodes_decode (limit : Nat) (bytes : Bytes) :
    Decodes limit bytes (decode limit bytes).1 (decode limit bytes).2.1
      (decode limit bytes).2.2 := by
  suffices answer : ∃ fs e rest, Decodes limit bytes fs e rest by
    obtain ⟨fs, e, rest, decodes⟩ := answer
    rw [decodes.decode_eq]
    exact decodes
  induction size : bytes.length using Nat.strongRecOn generalizing bytes with
  | ind n ih =>
    cases found : step limit bytes with
    | needsMore => exact ⟨_, _, _, .needsMore found⟩
    | error e rest => exact ⟨_, _, _, .error found⟩
    | frame f next =>
      have fewer : next.length < n := by
        obtain ⟨taken, rfl, two⟩ := step_taken found
        rw [List.length_append] at size
        omega
      obtain ⟨fs, e, rest, decodes⟩ := ih next.length fewer next rfl
      exact ⟨_, _, _, .frame found decodes⟩

end CallTelemetry.Wire.Frame
