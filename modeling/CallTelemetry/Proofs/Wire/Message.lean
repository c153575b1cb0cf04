import CallTelemetry.Proofs.Wire.Schema
import CallTelemetry.Wire.Message

/-! Every message that agents send is read back from its bytes. The fields are gone through in the
order in which they are written; each one finds those before it in place, and its own still empty. -/
namespace CallTelemetry.Wire

open CallTelemetry.Wire.Field Scalar

theorem TransactionRef.faithful : TransactionRef.schema.Faithful where
  numbered := by decide
  distinct := by decide
  carried m := by
    refine .cons (plain_carries text_faithful rfl) ?_
    refine .cons (plain_carries int64_faithful rfl) ?_
    refine .cons (plain_carries int64_faithful rfl) ?_
    exact .nil

theorem ParentInfo.faithful : ParentInfo.schema.Faithful where
  numbered := by decide
  distinct := by decide
  carried m := by
    refine .cons (plain_carries text_faithful rfl) ?_
    refine .cons (plain_carries int32_faithful rfl) ?_
    refine .cons (plain_carries text_faithful rfl) ?_
    exact .nil

theorem AcceptEvent.faithful : AcceptEvent.schema.Faithful where
  numbered := by decide
  distinct := by decide
  carried m := by
    refine .cons (plain_carries text_faithful rfl) ?_
    refine .cons (plain_carries text_faithful rfl) ?_
    refine .cons (plain_carries text_faithful rfl) ?_
    refine .cons (message_carries (fun v m => { m with parentInfo := v })
      ParentInfo.faithful rfl rfl fun _ => rfl) ?_
    exact .nil

theorem MessageEvent.faithful : MessageEvent.schema.Faithful where
  numbered := by decide
  distinct := by decide
  carried m := by
    refine .cons (plain_carries int64_faithful rfl) ?_
    refine .cons (plain_carries text_faithful rfl) ?_
    refine .cons (plain_carries text_faithful rfl) ?_
    exact .nil

theorem NextEvent.faithful : NextEvent.schema.Faithful where
  numbered := by decide
  distinct := by decide
  carried m := by
    refine .cons (message_carries (fun v m => { m with messageEvent := v })
      MessageEvent.faithful rfl rfl fun _ => rfl) ?_
    exact .nil

theorem IntText.faithful : IntText.schema.Faithful where
  numbered := by decide
  distinct := by decide
  carried m := by
    refine .cons (plain_carries int32_faithful rfl) ?_
    refine .cons (maybe_carries (fun v m => { m with text := v }) text_faithful rfl fun _ => rfl) ?_
    exact .nil

theorem TextText.faithful : TextText.schema.Faithful where
  numbered := by decide
  distinct := by decide
  carried m := by
    refine .cons (maybe_carries (fun v m => { m with first := v })
      text_faithful rfl fun _ => rfl) ?_
    refine .cons (maybe_carries (fun v m => { m with second := v })
      text_faithful rfl fun _ => rfl) ?_
    exact .nil

theorem NumbersText.faithful : NumbersText.schema.Faithful where
  numbered := by decide
  distinct := by decide
  carried m := by
    refine .cons (plain_carries int64_faithful rfl) ?_
    refine .cons (plain_carries int32_faithful rfl) ?_
    refine .cons (plain_carries int32_faithful rfl) ?_
    refine .cons (plain_carries sint32_faithful rfl) ?_
    refine .cons (plain_carries sint32_faithful rfl) ?_
    refine .cons (maybe_carries (fun v m => { m with text := v }) text_faithful rfl fun _ => rfl) ?_
    exact .nil

/-- Only the field of the content that there is carries anything. -/
theorem TagValue.faithful : TagValue.schema.Faithful where
  numbered := by decide
  distinct := by decide
  carried m := by
    rcases m with ⟨_ | _ | _ | _ | _ | _ | _ | _ | _ | _ | _ | _⟩
    all_goals
      refine .cons (maybe_chosen text_faithful) ?_
      refine .cons (maybe_chosen boolean_faithful) ?_
      refine .cons (maybe_chosen int32_faithful) ?_
      refine .cons (maybe_chosen int64_faithful) ?_
      refine .cons (maybe_chosen sint32_faithful) ?_
      refine .cons (maybe_chosen double_faithful) ?_
      refine .cons (maybe_chosen binary_faithful) ?_
      refine .cons (maybe_chosen sint32_faithful) ?_
      refine .cons (message_chosen IntText.faithful rfl) ?_
      refine .cons (message_chosen TextText.faithful rfl) ?_
      refine .cons (message_chosen NumbersText.faithful rfl) ?_
      exact .nil

theorem Tag.faithful : Tag.schema.Faithful where
  numbered := by decide
  distinct := by decide
  carried m := by
    refine .cons (plain_carries int32_faithful rfl) ?_
    refine .cons (message_carries (fun v m => { m with value := v })
      TagValue.faithful rfl rfl fun _ => rfl) ?_
    exact .nil

theorem SpanEvent.faithful : SpanEvent.schema.Faithful where
  numbered := by decide
  distinct := by decide
  carried m := by
    refine .cons (plain_carries int32_faithful rfl) ?_
    refine .cons (plain_carries int32_faithful rfl) ?_
    refine .cons (plain_carries int32_faithful rfl) ?_
    refine .cons (plain_carries int32_faithful rfl) ?_
    refine .cons (plain_carries int32_faithful rfl) ?_
    refine .cons (repeated_carries Tag.faithful rfl (fun _ => rfl) fun _ _ => rfl) ?_
    refine .cons (plain_carries int32_faithful rfl) ?_
    refine .cons (message_carries (fun v m => { m with exceptionInfo := v })
      IntText.faithful rfl rfl fun _ => rfl) ?_
    refine .cons (message_carries (fun v m => { m with nextEvent := v })
      NextEvent.faithful rfl rfl fun _ => rfl) ?_
    refine .cons (plain_carries int32_faithful rfl) ?_
    exact .nil

theorem Span.faithful : Span.schema.Faithful where
  numbered := by decide
  distinct := by decide
  carried m := by
    refine .cons (plain_carries int32_faithful rfl) ?_
    refine .cons (message_carries (fun v m => { m with transactionId := v })
      TransactionRef.faithful rfl rfl fun _ => rfl) ?_
    refine .cons (plain_carries fixed64_faithful rfl) ?_
    refine .cons (plain_carries fixed64_faithful rfl) ?_
    refine .cons (plain_carries int64_faithful rfl) ?_
    refine .cons (plain_carries int32_faithful rfl) ?_
    refine .cons (plain_carries int32_faithful rfl) ?_
    refine .cons (plain_carries int32_faithful rfl) ?_
    refine .cons (message_carries (fun v m => { m with acceptEvent := v })
      AcceptEvent.faithful rfl rfl fun _ => rfl) ?_
    refine .cons (repeated_carries Tag.faithful rfl (fun _ => rfl) fun _ _ => rfl) ?_
    refine .cons (plain_carries int32_faithful rfl) ?_
    refine .cons (plain_carries sint32_faithful rfl) ?_
    refine .cons (repeated_carries SpanEvent.faithful rfl (fun _ => rfl) fun _ _ => rfl) ?_
    refine .cons (message_carries (fun v m => { m with exceptionInfo := v })
      IntText.faithful rfl rfl fun _ => rfl) ?_
    refine .cons (plain_carries int32_faithful rfl) ?_
    refine .cons (plain_carries int32_faithful rfl) ?_
    exact .nil

theorem LocalAsyncId.faithful : LocalAsyncId.schema.Faithful where
  numbered := by decide
  distinct := by decide
  carried m := by
    refine .cons (plain_carries int32_faithful rfl) ?_
    refine .cons (plain_carries int32_faithful rfl) ?_
    exact .nil

theorem SpanChunk.faithful : SpanChunk.schema.Faithful where
  numbered := by decide
  distinct := by decide
  carried m := by
    refine .cons (plain_carries int32_faithful rfl) ?_
    refine .cons (message_carries (fun v m => { m with transactionId := v })
      TransactionRef.faithful rfl rfl fun _ => rfl) ?_
    refine .cons (plain_carries fixed64_faithful rfl) ?_
    refine .cons (plain_carries text_faithful rfl) ?_
    refine .cons (repeated_carries SpanEvent.faithful rfl (fun _ => rfl) fun _ _ => rfl) ?_
    refine .cons (plain_carries int32_faithful rfl) ?_
    refine .cons (plain_carries int64_faithful rfl) ?_
    refine .cons (message_carries (fun v m => { m with localAsyncId := v })
      LocalAsyncId.faithful rfl rfl fun _ => rfl) ?_
    exact .nil

theorem ApiMetadata.faithful : ApiMetadata.schema.Faithful where
  numbered := by decide
  distinct := by decide
  carried m := by
    refine .cons (plain_carries int32_faithful rfl) ?_
    refine .cons (plain_carries text_faithful rfl) ?_
    refine .cons (plain_carries int32_faithful rfl) ?_
    refine .cons (plain_carries int32_faithful rfl) ?_
    refine .cons (plain_carries text_faithful rfl) ?_
    exact .nil

theorem StringMetadata.faithful : StringMetadata.schema.Faithful where
  numbered := by decide
  distinct := by decide
  carried m := by
    refine .cons (plain_carries int32_faithful rfl) ?_
    refine .cons (plain_carries text_faithful rfl) ?_
    exact .nil

theorem SqlMetadata.faithful : SqlMetadata.schema.Faithful where
  numbered := by decide
  distinct := by decide
  carried m := by
    refine .cons (plain_carries int32_faithful rfl) ?_
    refine .cons (plain_carries text_faithful rfl) ?_
    exact .nil

theorem Handshake.faithful : Handshake.schema.Faithful where
  numbered := by decide
  distinct := by decide
  carried m := by
    refine .cons (plain_carries text_faithful rfl) ?_
    refine .cons (plain_carries text_faithful rfl) ?_
    refine .cons (plain_carries text_faithful rfl) ?_
    refine .cons (plain_carries int64_faithful rfl) ?_
    refine .cons (plain_carries int32_faithful rfl) ?_
    exact .nil

end CallTelemetry.Wire
