import CallTelemetry.Proofs.Wire.Decoding
import CallTelemetry.Proofs.Wire.Message

/-! Frames that are written one behind the other are decoded again, whatever they hold, and a frame
that is refused leaves nothing behind. -/
namespace CallTelemetry.Wire.Frame

/-- The unit of the group that `position` groups stand before. -/
def unit : Nat → Nat
  | 0 => 1
  | position + 1 => unit position * 128

theorem shiftLeft_group (group position : Nat) :
    group <<< (7 * position) = unit position * group := by
  induction position with
  | zero => rw [Nat.mul_zero, Nat.shiftLeft_zero, unit, Nat.one_mul]
  | succ position ih =>
    rw [Nat.mul_succ, Nat.shiftLeft_add, ih, Nat.shiftLeft_eq, unit, Nat.mul_right_comm]

theorem add_mul_groups (position n : Nat) :
    unit position * n = unit position * (n % 128) + unit (position + 1) * (n / 128) := by
  rw [unit, Nat.mul_assoc, ← Nat.mul_add, Nat.mod_add_div]

theorem add_group_lt {value position group : Nat} (below : value < unit position)
    (small : group < 128) : value + unit position * group < unit (position + 1) := by
  have whole : unit position * (group + 1) ≤ unit position * 128 := Nat.mul_le_mul_left _ small
  rw [Nat.mul_succ] at whole
  rw [unit]
  omega

/-- The group of a byte is what its seven low bits hold. -/
theorem and_group (b : UInt8) : (b &&& 0x7f).toUInt64 = UInt64.ofNat (b.toNat % 128) := by
  have small : b.toNat % 128 < UInt64.size :=
    Nat.lt_trans (Nat.mod_lt _ (by decide)) (by decide : 128 < UInt64.size)
  rw [← UInt64.toNat_inj, UInt8.toNat_toUInt64, UInt8.toNat_and, UInt64.toNat_ofNat_of_lt' small]
  exact Nat.and_two_pow_sub_one_eq_mod b.toNat 7

theorem ends_iff (b : UInt8) : b &&& 0x80 = 0 ↔ b < 128 := by
  have all : ∀ n : Fin 256, UInt8.ofFin n &&& 0x80 = 0 ↔ UInt8.ofFin n < 128 := by decide +kernel
  exact all b.toFin

variable {n position : Nat} {value whole : UInt64}

/-- A group is put above those that have been read. -/
theorem or_group (group : Nat) (place : position ≤ 9) (below : value.toNat < unit position)
    (fits : unit position * group < UInt64.size) :
    (value ||| (UInt64.ofNat group <<< UInt64.ofNat (7 * position))).toNat =
      value.toNat + unit position * group := by
  have power : unit position = 2 ^ (7 * position) := by
    rw [← Nat.mul_one (unit position), ← shiftLeft_group, Nat.shiftLeft_eq, Nat.one_mul]
  have word : (UInt64.ofNat group).toNat = group := by
    refine UInt64.toNat_ofNat_of_lt' (Nat.lt_of_le_of_lt ?_ fits)
    rw [power]
    exact Nat.le_mul_of_pos_left _ (Nat.two_pow_pos _)
  have amount : (UInt64.ofNat (7 * position)).toNat = 7 * position :=
    UInt64.toNat_ofNat_of_lt' (Nat.lt_of_le_of_lt (m := 63) (by omega) (by decide))
  have inside : 7 * position % 64 = 7 * position := Nat.mod_eq_of_lt (by omega)
  rw [UInt64.toNat_or, UInt64.toNat_shiftLeft, word, amount, inside, shiftLeft_group,
    Nat.mod_eq_of_lt fits]
  rw [power] at below ⊢
  rw [Nat.or_comm, Nat.add_comm, Nat.two_pow_add_eq_or_of_lt below]

theorem readLength_last (small : n < 128) (place : position ≤ 9)
    (below : value.toNat < unit position) (sum : whole.toNat = value.toNat + unit position * n)
    (rest : Bytes) :
    readLength value position (UInt8.ofNat n :: rest) = .known whole (position + 1) := by
  obtain ⟨group, last⟩ := Varint.toNat_last small
  have bound : whole.toNat < UInt64.size := whole.toNat_lt
  have put := or_group n place below (by omega)
  rw [← sum, UInt64.toNat_inj] at put
  have room : position < Varint.maxLength := Nat.lt_succ_of_le place
  rw [readLength, if_pos room]
  simp only [and_group, group, Nat.mod_eq_of_lt small, put, (ends_iff _).2 last, if_true]

theorem readLength_continued (place : position ≤ 9) (rest : Bytes) :
    readLength value position (UInt8.ofNat (n % 128 + 128) :: rest) =
      readLength (value ||| (UInt64.ofNat (n % 128) <<< UInt64.ofNat (7 * position)))
        (position + 1) rest := by
  obtain ⟨group, continued⟩ := Varint.toNat_continued n
  have low : (n % 128 + 128) % 128 = n % 128 := by omega
  have room : position < Varint.maxLength := Nat.lt_succ_of_le place
  rw [readLength, if_pos room]
  simp only [and_group, group, low, mt (ends_iff _).1 continued, if_false]

open Varint in
/-- The bytes of the high groups are read onto the low ones. -/
theorem readLength_encodeWithin {room : Nat} (fits : n < capacity room)
    (place : position + room = 9) (below : value.toNat < unit position)
    (sum : whole.toNat = value.toNat + unit position * n) (rest : Bytes) :
    readLength value position (encodeWithin (room + 1) n ++ rest) =
      .known whole (position + (encodeWithin (room + 1) n).length) := by
  induction room generalizing n position value with
  | zero =>
    have small : n < 128 := Nat.lt_trans fits (by decide)
    rw [encodeWithin_small small, List.singleton_append,
      readLength_last small (by omega) below sum]
    rfl
  | succ room ih =>
    by_cases small : n < 128
    · rw [encodeWithin_small small, List.singleton_append,
        readLength_last small (by omega) below sum]
      rfl
    · have bound : whole.toNat < UInt64.size := whole.toNat_lt
      rw [add_mul_groups, ← Nat.add_assoc] at sum
      have put := or_group (n % 128) (by omega) below (by omega)
      rw [← put] at sum
      have below := add_group_lt below (Nat.mod_lt n (by decide))
      rw [← put] at below
      rw [encodeWithin_large small, List.cons_append, readLength_continued (by omega),
        ih (div_lt_capacity fits) (by omega) below sum, List.length_cons]
      congr 1
      omega

/-- A length is read back from the bytes that it begins. -/
theorem readLength_encode (n : UInt64) (rest : Bytes) :
    readLength 0 0 (Varint.encode n ++ rest) = .known n (Varint.encode n).length := by
  have start : n.toNat = (0 : UInt64).toNat + unit 0 * n.toNat := by simp [unit]
  rw [Varint.encode, Varint.maxLength,
    readLength_encodeWithin (Varint.toNat_lt_capacity n) rfl (by decide) start, Nat.zero_add]

/-- A frame is read back from its kind and its body. -/
theorem ofBody_body {f : Frame} (short : f.body.length < UInt64.size) :
    ofBody f.kind f.body = .ok f := by
  cases f with
  | handshake m => simp [ofBody, kind, body, Schema.decode?, Handshake.faithful.merge_encode short]
  | span m => simp [ofBody, kind, body, Schema.decode?, Span.faithful.merge_encode short]
  | spanChunk m => simp [ofBody, kind, body, Schema.decode?, SpanChunk.faithful.merge_encode short]
  | api m => simp [ofBody, kind, body, Schema.decode?, ApiMetadata.faithful.merge_encode short]
  | string m => simp [ofBody, kind, body, Schema.decode?, StringMetadata.faithful.merge_encode short]
  | sql m => simp [ofBody, kind, body, Schema.decode?, SqlMetadata.faithful.merge_encode short]

/-- The bytes that a frame takes on a stream. -/
def bytes (f : Frame) : Bytes :=
  f.kind :: (Varint.encode (UInt64.ofNat f.body.length) ++ f.body)

variable {limit : Nat} {f : Frame}

theorem step_bytes (bound : limit < UInt64.size) (fits : f.body.length ≤ limit) (rest : Bytes) :
    step limit (f.bytes ++ rest) = .frame f rest := by
  have short : f.body.length < UInt64.size := Nat.lt_of_le_of_lt fits bound
  have length : (UInt64.ofNat f.body.length).toNat = f.body.length :=
    UInt64.toNat_ofNat_of_lt' short
  have whole : ¬(f.body ++ rest).length < f.body.length := by
    rw [List.length_append]
    omega
  rw [bytes, List.cons_append, List.append_assoc, step, readLength_encode]
  simp only [length, if_neg (Nat.not_lt.2 fits), List.drop_left, if_neg whole, List.take_left,
    ofBody_body short]

/-- What becomes of a frame that is to be written. -/
def outcome (limit : Nat) (f : Frame) : Except FrameError Unit :=
  if limit < f.body.length then .error (.tooLarge (UInt64.ofNat f.body.length) limit) else .ok ()

theorem write_refused (large : limit < f.body.length) (bytes : Bytes) :
    (f.write limit).run.run bytes = (f.outcome limit, bytes) := by
  rw [write, outcome, if_pos large, if_pos large]
  rfl

theorem write_accepted (fits : f.body.length ≤ limit) (bytes : Bytes) :
    (f.write limit).run.run bytes = (f.outcome limit, bytes ++ f.bytes) := by
  have written : (f.write limit).run.run bytes = (.ok (),
      bytes ++ [f.kind] ++ Varint.encode (UInt64.ofNat f.body.length) ++ f.body) := by
    rw [write, if_neg (Nat.not_lt.2 fits)]
    rfl
  rw [written, outcome, if_neg (Nat.not_lt.2 fits), Frame.bytes, List.append_assoc,
    List.append_assoc, List.singleton_append]

/-- Writes frames in their order, also those that come after a refused one. -/
def writeAll (limit : Nat) (fs : List Frame) : StateM Bytes (List (Except FrameError Unit)) :=
  fs.mapM fun f => (f.write limit).run

/-- The frames that are not refused. -/
def accepted (limit : Nat) (fs : List Frame) : List Frame :=
  fs.filter fun f => f.body.length ≤ limit

theorem writeAll_run (limit : Nat) (fs : List Frame) (bytes : Bytes) :
    (writeAll limit fs).run bytes =
      (fs.map (outcome limit), bytes ++ (accepted limit fs).flatMap Frame.bytes) := by
  induction fs generalizing bytes with
  | nil =>
    rw [accepted, List.filter_nil, List.flatMap_nil, List.append_nil]
    rfl
  | cons f fs ih =>
    have next : (writeAll limit (f :: fs)).run bytes =
        let first := (f.write limit).run.run bytes
        let later := (writeAll limit fs).run first.2
        (first.1 :: later.1, later.2) := by
      rw [writeAll, List.mapM_cons]
      rfl
    rw [next]
    by_cases fits : f.body.length ≤ limit
    · have kept : accepted limit (f :: fs) = f :: accepted limit fs :=
        List.filter_cons_of_pos (by simpa using fits)
      simp only [write_accepted fits, ih, kept, List.map_cons, List.flatMap_cons, List.append_assoc]
    · have dropped : accepted limit (f :: fs) = accepted limit fs :=
        List.filter_cons_of_neg (by simpa using fits)
      simp only [write_refused (Nat.lt_of_not_le fits), ih, dropped, List.map_cons]

theorem decodes_bytes (bound : limit < UInt64.size) {fs : List Frame}
    (fit : ∀ f ∈ fs, f.body.length ≤ limit) : Decodes limit (fs.flatMap Frame.bytes) fs none [] := by
  induction fs with
  | nil => exact .needsMore rfl
  | cons f fs ih =>
    refine .frame ?_ (ih fun f member => fit f (List.mem_cons_of_mem _ member))
    rw [List.flatMap_cons]
    exact step_bytes bound (fit f List.mem_cons_self) _

/-- Frames that are written in their order are decoded in their order, and nothing is left. A frame
whose body is over the limit is refused and leaves the bytes as they were, so that only it is missing
among those decoded. -/
theorem frames_read_back (limit : Nat) (bound : limit < UInt64.size) (fs : List Frame) :
    let (outcomes, bytes) := (writeAll limit fs).run []
    ((∀ f ∈ fs, f.body.length ≤ limit) → decode limit bytes = (fs, none, [])) ∧
      decode limit bytes = (fs.filter (fun f => f.body.length ≤ limit), none, []) ∧
      outcomes = fs.map (fun f =>
        if limit < f.body.length then .error (.tooLarge (UInt64.ofNat f.body.length) limit)
        else .ok ()) ∧
      ∀ (f : Frame) (before : Bytes), limit < f.body.length → (f.write limit).run.run before =
        (.error (.tooLarge (UInt64.ofNat f.body.length) limit), before) := by
  rw [writeAll_run, List.nil_append]
  have decoded : decode limit ((accepted limit fs).flatMap Frame.bytes) =
      (accepted limit fs, none, []) := by
    refine (decodes_bytes bound fun f member => ?_).decode_eq
    simpa using (List.mem_filter.1 member).2
  refine ⟨fun fit => ?_, decoded, rfl, fun f before large => ?_⟩
  · rw [decoded, accepted, List.filter_eq_self.2]
    simpa using fit
  · rw [write_refused large, outcome, if_pos large]

/-- Two short names are decoded, the statement between them is over the limit. -/
theorem frames_read_back_around_refused :
    12 < UInt64.size ∧
      let (outcomes, bytes) := (writeAll 12 [.string ⟨1, "get"⟩, .sql ⟨2, "select 1 from a"⟩,
        .string ⟨-1, ""⟩]).run []
      decode 12 bytes = ([.string ⟨1, "get"⟩, .string ⟨-1, ""⟩], none, []) ∧
        outcomes = [.ok (), .error (.tooLarge 19 12), .ok ()] := by
  obtain ⟨_, decoded, outcomes, _⟩ := frames_read_back 12 (by decide)
    [.string ⟨1, "get"⟩, .sql ⟨2, "select 1 from a"⟩, .string ⟨-1, ""⟩]
  refine ⟨by decide, decoded.trans (by rfl), outcomes.trans (by rfl)⟩

end CallTelemetry.Wire.Frame
