import CallTelemetry.Proofs.Statistics.Recording

/-! The records of answers. An application keeps what its agents answered in a row of its own, in the
way in which calls are kept, and tells its agents apart by the columns. -/
namespace CallTelemetry.Statistics

open Latency

/-- What one agent of an application answered, and how long it took. -/
structure Answer where
  application : Application
  agentId : String
  elapsed : Int32
  failed : Bool
  timestamp : Int
  deriving DecidableEq

namespace Answer

def mutations (c : Answer) : Except RowError (List Pending.Mutation) :=
  response c.application c.agentId c.elapsed c.failed c.timestamp

/-- Whether an answer has a row key, and an agent the length of whose name can be written. -/
structure Sound (c : Answer) : Prop where
  name : Identifier.valid c.application.name
  agent : Writable c.agentId
  nonneg : 0 ≤ c.timestamp
  bound : c.timestamp ≤ lastMillis

instance (c : Answer) : Decidable c.Sound :=
  decidable_of_iff (Identifier.valid c.application.name ∧ Writable c.agentId ∧ 0 ≤ c.timestamp ∧
      c.timestamp ≤ lastMillis)
    ⟨fun ⟨name, agent, nonneg, bound⟩ => ⟨name, agent, nonneg, bound⟩,
      fun sound => ⟨sound.name, sound.agent, sound.nonneg, sound.bound⟩⟩

/-- An answer is kept as a call that an agent made to its own application. -/
def call (c : Answer) : Call :=
  ⟨c.application, c.agentId, c.application, "", c.elapsed, c.failed, c.timestamp⟩

end Answer

namespace Half

/-- Applications keep what they answered. -/
def response : Half ResponseColumn where
  row c := ⟨c.callee.name, c.callee.type.code, timeSlot c.timestamp⟩
  column c slot := ⟨c.callee.type.scheme.code slot, c.callerAgentId⟩

theorem response_eq {c : Answer} (valid : Identifier.valid c.application.name) :
    c.mutations = .ok ((response.records c.call).map (·.mutation ResponseColumn.encode)) := by
  have short : ¬Identifier.maxLength < c.application.name.utf8ByteSize :=
    Nat.not_lt.2 (Identifier.fits_of_valid valid).1
  rw [mutation_records, Answer.mutations, Statistics.response, RowKey.of, if_neg short]
  rfl

theorem response_readable {answers : List Answer} (sound : ∀ c ∈ answers, c.Sound) :
    response.Readable ResponseColumn.encode ResponseColumn.decode (answers.map Answer.call) where
  row c member := by
    obtain ⟨answer, inside, rfl⟩ := List.mem_map.1 member
    exact row_sound (sound answer inside).nonneg (sound answer inside).bound
      (sound answer inside).name _
  column c member slot := by
    obtain ⟨answer, inside, rfl⟩ := List.mem_map.1 member
    exact ResponseColumn.decode_encode (sound answer inside).agent
  slot c member c' member' slot slot' rows columns := by
    obtain ⟨-, types, -⟩ := RowKey.mk.inj rows
    obtain ⟨codes, -⟩ := ResponseColumn.mk.inj columns
    exact slot_injective (ServiceType.code_injective _ _ types) codes

end Half

end CallTelemetry.Statistics
