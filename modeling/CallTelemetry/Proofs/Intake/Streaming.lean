import CallTelemetry.Intake.Stream
import CallTelemetry.Proofs.Wire.Cutting
import CallTelemetry.Proofs.Wire.RoundTrip

/-! The stream of one agent, from its first frame to its end. However it is cut into chunks, its
frames are received in their order; those behind a handshake that is accepted are handled one by one,
and without such a handshake none is. -/
namespace CallTelemetry.Intake

theorem Attribute.eq_of_ofHandshake {m : Wire.Handshake} {time : Int64} {a : Attribute}
    (accepted : ofHandshake m time = .ok a) :
    a = ⟨m.agentId, nonEmpty m.agentName, m.applicationName, m.agentStartTime, time⟩ := by
  unfold ofHandshake at accepted
  split at accepted
  · cases accepted
  · split at accepted
    · cases accepted
    · exact (Except.ok.inj accepted).symm

namespace Collector

/-- Handles frames one after another, each under what is known of its agent. -/
def handleAll (c : Collector) (fs : List (Attribute × Wire.Frame)) : Collector :=
  fs.foldl (fun c (a, f) => (c.handle a f).2) c

/-- Taking a frame does not count it. -/
theorem counts_take (c : Collector) (a : Attribute) (f : Wire.Frame) :
    (c.take a f).2.accepted = c.accepted ∧ (c.take a f).2.rejected = c.rejected := by
  have register (f : ColumnFamily) (key : Metadata.Key) (payload : Bytes) :
      (c.register f key payload).2.accepted = c.accepted ∧
        (c.register f key payload).2.rejected = c.rejected := by
    unfold register
    split <;> exact ⟨rfl, rfl⟩
  cases f with
  | handshake => exact ⟨rfl, rfl⟩
  | span m =>
    simp only [take, addSpan]
    split <;> exact ⟨rfl, rfl⟩
  | spanChunk m =>
    simp only [take, addChunk]
    split <;> exact ⟨rfl, rfl⟩
  | api => exact register _ _ _
  | string => exact register _ _ _
  | sql => exact register _ _ _

/-- Whether or not a frame is refused, it is counted once. -/
theorem counts_handle (c : Collector) (a : Attribute) (f : Wire.Frame) :
    (c.handle a f).2.accepted + (c.handle a f).2.rejected = c.accepted + c.rejected + 1 := by
  obtain ⟨accepted, rejected⟩ := c.counts_take a f
  unfold handle
  cases taken : c.take a f with
  | mk outcome c' =>
    rw [taken] at accepted rejected
    cases outcome <;> simp only at accepted rejected ⊢ <;> omega

theorem counts_handleAll (c : Collector) (fs : List (Attribute × Wire.Frame)) :
    (c.handleAll fs).accepted + (c.handleAll fs).rejected =
      c.accepted + c.rejected + fs.length := by
  induction fs generalizing c with
  | nil => rfl
  | cons e fs ih =>
    have first := c.counts_handle e.1 e.2
    have rest := ih (c.handle e.1 e.2).2
    rw [handleAll, List.foldl_cons, ← handleAll, rest, first, List.length_cons]
    omega

end Collector

namespace Phase

theorem receiveAll_append (p : Phase) (c : Collector) (l l' : List (Int64 × Wire.Frame)) :
    p.receiveAll c (l ++ l') =
      (p.receiveAll c l).1.receiveAll (p.receiveAll c l).2 l' := List.foldl_append

theorem receiveAll_timed (p : Phase) (c : Collector) (clock : Nat → Int64) (n : Nat)
    (f : Wire.Frame) (fs : List Wire.Frame) :
    p.receiveAll c (Stream.timed clock n (f :: fs)) =
      (p.receive c (clock n) f).1.receiveAll (p.receive c (clock n) f).2
        (Stream.timed clock (n + 1) fs) := rfl

/-- Nothing is received behind a frame that closes the stream. -/
theorem receiveAll_closed (c : Collector) (fs : List (Int64 × Wire.Frame)) :
    closed.receiveAll c fs = (closed, c) := by
  induction fs with
  | nil => rfl
  | cons e fs ih => exact ih

theorem receiveAll_established (a : Attribute) (c : Collector) (fs : List (Int64 × Wire.Frame)) :
    (established a).receiveAll c fs =
      (established a, c.handleAll (fs.map fun (time, f) => (a.acceptedAt time, f))) := by
  induction fs generalizing c with
  | nil => rfl
  | cons e fs ih => exact ih (c.handle (a.acceptedAt e.1) e.2).2

end Phase

namespace Stream

variable {clock : Nat → Int64}

theorem timed_append (clock : Nat → Int64) (n : Nat) (l l' : List Wire.Frame) :
    timed clock n (l ++ l') = timed clock n l ++ timed clock (n + l.length) l' := by
  simp [timed, List.zipIdx_append]

theorem feedAll_cons (s : Stream) (c : Collector) (chunk : Bytes) (chunks : List Bytes) :
    s.feedAll clock c (chunk :: chunks) =
      (s.feed clock c chunk).1.feedAll clock (s.feed clock c chunk).2 chunks := rfl

theorem feedAll_failed {s : Stream} (failed : s.decoder.failed = true) (c : Collector)
    (chunks : List Bytes) : s.feedAll clock c chunks = (s, c) := by
  have none (chunk : Bytes) : s.feed clock c chunk = (s, c) := if_pos failed
  induction chunks with
  | nil => rfl
  | cons chunk chunks ih => rw [feedAll_cons, none, ih]

/-- Chunk by chunk a stream receives the frames that its decoder answers, up to the first error. -/
theorem feedAll_eq {s : Stream} (sound : s.decoder.failed = false) (c : Collector)
    (chunks : List Bytes) :
    (s.feedAll clock c chunks).2 =
      (s.phase.receiveAll c (timed clock s.received (s.decoder.feedAll chunks).1)).2 := by
  induction chunks generalizing s c with
  | nil => rfl
  | cons chunk chunks ih =>
    have told : (s.decoder.feed chunk).2.2.failed = (s.decoder.feed chunk).2.1.isSome := rfl
    have first : s.feed clock c chunk =
        let fed := s.decoder.feed chunk
        let received := s.phase.receiveAll c (timed clock s.received fed.1)
        (⟨received.1, fed.2.2, s.received + fed.1.length⟩, received.2) := by
      simp [feed, sound]
    rw [feedAll_cons, first, Wire.Frame.Decoder.feedAll]
    revert told
    rcases s.decoder.feed chunk with ⟨frames, _ | e, decoder⟩
    · intro told
      rw [ih told, timed_append, Phase.receiveAll_append]
    · intro told
      rw [feedAll_failed told]

/-- A stream receives the frames of all its bytes, wherever it is cut. -/
theorem consume_eq (limit : Nat) (clock : Nat → Int64) (c : Collector) (chunks : List Bytes) :
    consume limit clock c chunks = (Phase.awaitingHandshake.receiveAll c
      (timed clock 0 (Wire.Frame.decode limit chunks.flatten).1)).2 := by
  obtain ⟨rest, decodes, -⟩ := Wire.Frame.decodes_feedAll (d := ⟨limit, [], false⟩) rfl chunks
  have frames : ((opened limit).decoder.feedAll chunks).1 =
      (Wire.Frame.decode limit chunks.flatten).1 := congrArg Prod.fst decodes.decode_eq.symm
  rw [consume, feedAll_eq (s := opened limit) rfl, frames]
  rfl

/-- A stream whose first frame is a handshake that is accepted has every later frame handled, once and
in order, under what the handshake told of the agent. Refused frames, such as another handshake, are
counted like the others and do not end it. Of any other stream nothing is handled. -/
theorem frames_handled_behind_handshake (limit : Nat) (clock : Nat → Int64) (c : Collector)
    (chunks : List Bytes) :
    let frames := (Wire.Frame.decode limit chunks.flatten).1
    let done := consume limit clock c chunks
    (frames = [] → done = c) ∧
      (∀ f rest, frames = f :: rest → (∀ m, f ≠ .handshake m) → done = c) ∧
      (∀ m rest e, frames = .handshake m :: rest →
        Attribute.ofHandshake m (clock 0) = .error e → done = c) ∧
      (∀ (c : Collector) a m, c.handle a (.handshake m) =
        (.error (.handshake .alreadyCompleted), { c with rejected := c.rejected + 1 })) ∧
      ∀ m rest a, frames = .handshake m :: rest → Attribute.ofHandshake m (clock 0) = .ok a →
        done = c.handleAll ((rest.zipIdx 1).map fun (f, n) =>
          (⟨m.agentId, nonEmpty m.agentName, m.applicationName, m.agentStartTime, clock n⟩, f)) ∧
        done.accepted + done.rejected = c.accepted + c.rejected + rest.length := by
  intro frames done
  have received : done = (Phase.awaitingHandshake.receiveAll c (timed clock 0 frames)).2 :=
    consume_eq limit clock c chunks
  refine ⟨fun none => ?_, fun f rest first other => ?_, fun m rest e first refused => ?_,
    fun _ _ _ => rfl, fun m rest a first accepted => ?_⟩
  · rw [received, none]
    rfl
  · have closed : Phase.awaitingHandshake.receive c (clock 0) f = (.closed, c) := by
      cases f with
      | handshake m => exact absurd rfl (other m)
      | _ => rfl
    rw [received, first, Phase.receiveAll_timed, closed, Phase.receiveAll_closed]
  · have closed : Phase.awaitingHandshake.receive c (clock 0) (.handshake m) = (.closed, c) := by
      rw [Phase.receive, refused]
    rw [received, first, Phase.receiveAll_timed, closed, Phase.receiveAll_closed]
  · have bound : Phase.awaitingHandshake.receive c (clock 0) (.handshake m) =
        (.established a, c) := by
      rw [Phase.receive, accepted]
    obtain rfl := Attribute.eq_of_ofHandshake accepted
    rw [received, first, Phase.receiveAll_timed, bound, Phase.receiveAll_established]
    refine ⟨?_, ?_⟩
    · rw [timed, List.map_map]
      rfl
    · rw [Collector.counts_handleAll]
      simp [timed]

/-- An agent shakes hands twice, and says something after each. -/
def twoHandshakes : List Wire.Frame :=
  [.handshake ⟨"agent-1", "", "shop", 7, 0⟩, .string ⟨1, "get"⟩,
    .handshake ⟨"agent-2", "", "cart", 8, 0⟩, .string ⟨2, "put"⟩]

/-- The stream ends in a byte of no kind. -/
def twoHandshakesCut : List Bytes :=
  let bytes := twoHandshakes.flatMap Wire.Frame.bytes ++ [9, 0]
  [bytes.take 3, [], (bytes.drop 3).take 30, bytes.drop 33]

def idleCollector : Collector := ⟨.start [], .empty, "a", ⟨8, by decide, by decide⟩, 0, 0⟩

theorem frames_handled_behind_handshake_twice :
    let agent (n : Int64) : Attribute := ⟨"agent-1", none, "shop", 7, n⟩
    let done := consume 64 Int64.ofNat idleCollector twoHandshakesCut
    done = idleCollector.handleAll [(agent 1, .string ⟨1, "get"⟩),
        (agent 2, .handshake ⟨"agent-2", "", "cart", 8, 0⟩), (agent 3, .string ⟨2, "put"⟩)] ∧
      done.accepted + done.rejected = 3 := by
  have frames : (Wire.Frame.decode 64 twoHandshakesCut.flatten).1 = twoHandshakes := by rfl
  have accepted : Attribute.ofHandshake ⟨"agent-1", "", "shop", 7, 0⟩ (Int64.ofNat 0) =
      .ok ⟨"agent-1", none, "shop", 7, 0⟩ := by rfl
  exact (frames_handled_behind_handshake 64 Int64.ofNat idleCollector twoHandshakesCut).2.2.2.2 _ _ _
    frames accepted

end Stream

end CallTelemetry.Intake
