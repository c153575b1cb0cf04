import CallTelemetry.Proofs.Bytes.Cursor
import CallTelemetry.Statistics.Column

/-! Columns of the statistics tables are read back from their bytes, so two columns do not share a
cell. Their texts must leave room for their lengths. -/
namespace CallTelemetry.Statistics

/-- Whether the length of a text can be written before it. -/
def Writable (s : String) : Prop := s.utf8ByteSize ≤ 0x7fffffff

instance (s : String) : Decidable (Writable s) := inferInstanceAs (Decidable (_ ≤ _))

namespace CalleeColumn

structure Sound (c : CalleeColumn) : Prop where
  application : Writable c.application
  host : Writable c.host
  agentId : Writable c.agentId

theorem decode_encode {c : CalleeColumn} (sound : c.Sound) : decode c.encode = .ok c := by
  have last := (Reader.reads_textOrEmpty sound.agentId).map fun agentId =>
    (⟨c.type, c.application, c.host, c.slot, agentId⟩ : CalleeColumn)
  have reads : reader.Reads c.encode c := by
    simp only [encode, List.append_assoc]
    exact (Reader.reads_int16 _).bind ((Reader.reads_textOrEmpty sound.application).bind
      ((Reader.reads_textOrEmpty sound.host).bind ((Reader.reads_int16 _).bind last)))
  exact reads.whole

end CalleeColumn

namespace CallerColumn

structure Sound (c : CallerColumn) : Prop where
  application : Writable c.application
  host : Writable c.host

theorem decode_encode {c : CallerColumn} (sound : c.Sound) : decode c.encode = .ok c := by
  have last := (Reader.reads_int16 c.slot).map fun slot =>
    (⟨c.type, c.application, c.host, slot⟩ : CallerColumn)
  have reads : reader.Reads c.encode c := by
    simp only [encode, List.append_assoc]
    exact (Reader.reads_int16 _).bind ((Reader.reads_textOrEmpty sound.application).bind
      ((Reader.reads_textOrEmpty sound.host).bind last))
  exact reads.whole

/-- The code of the slot in the bytes of a column, where it stands last. -/
def codeIn (column : Bytes) : Int16 := Bytes.toInt16 (column.drop (column.length - 2))

theorem codeIn_encode (c : CallerColumn) : codeIn c.encode = c.slot := by
  rw [codeIn, encode, List.drop_left' (by simp; omega), Bytes.toInt16_ofInt16]

/-- The type of the caller in the bytes of a column, where it stands first. -/
def typeIn (column : Bytes) : Int16 := Bytes.toInt16 (column.take 2)

theorem typeIn_encode (c : CallerColumn) : typeIn c.encode = c.type := by
  rw [typeIn, encode, List.append_assoc, List.append_assoc, List.take_left' (by simp),
    Bytes.toInt16_ofInt16]

end CallerColumn

namespace ResponseColumn

theorem decode_encode {c : ResponseColumn} (agentId : Writable c.agentId) :
    decode c.encode = .ok c := by
  have last := (Reader.reads_textOrEmpty agentId).map fun agentId =>
    (⟨c.slot, agentId⟩ : ResponseColumn)
  have reads : reader.Reads c.encode c := (Reader.reads_int16 _).bind last
  exact reads.whole

/-- The code of the slot in the bytes of a column, where it stands first. -/
def codeIn (column : Bytes) : Int16 := Bytes.toInt16 (column.take 2)

theorem codeIn_encode (c : ResponseColumn) : codeIn c.encode = c.slot := by
  rw [codeIn, encode, List.take_left' (by simp), Bytes.toInt16_ofInt16]

end ResponseColumn

end CallTelemetry.Statistics
