import Southbound.Connection.Basic
import Southbound.Proofs.Flow.Faithful
import Southbound.Proofs.Json.ReadBack

/-!
# Messages are read as they were written

`Faithful` for groups, messages and envelopes, and from it the round trip of
the codec: the frame that an envelope is written to carries that envelope.  An
envelope nests ten levels at most, far below what a document may hold back.
-/

namespace Southbound

open Json

/-! ## Groups -/

instance : Faithful GroupType 0 where
  encode_ne_null _ := nofun
  decode_encode _ t _ := by cases t <;> rfl
  holdable_encode _ _ _ := rfl

instance : Faithful Bucket 5 where
  encode_ne_null _ := nofun
  decode_encode p b h := by
    unfold instEncodeBucket instDecodeBucket
    simp (disch := first | omega | simp)
      [member_eq_written, optionalMember_eq_written, List.lookup_cons]
  holdable_encode depth b h := by
    have hdepth : depth < maxNesting := by omega
    unfold instEncodeBucket
    simp (disch := omega) [hdepth]

instance : Faithful Group 7 where
  encode_ne_null _ := nofun
  decode_encode p g h := by
    unfold instEncodeGroup instDecodeGroup
    simp (disch := first | omega | simp) [member_eq_written, List.lookup_cons]
  holdable_encode depth g h := by
    have hdepth : depth < maxNesting := by omega
    unfold instEncodeGroup
    simp (disch := omega) [hdepth]

/-! ## Messages -/

instance : Faithful FlowCommand 0 where
  encode_ne_null _ := nofun
  decode_encode _ c _ := by cases c <;> rfl
  holdable_encode _ _ _ := rfl

instance : Faithful FlowMod 8 where
  encode_ne_null _ := nofun
  decode_encode p m h := by
    unfold instEncodeFlowMod instDecodeFlowMod
    simp (disch := first | omega | simp) [member_eq_written, List.lookup_cons]
  holdable_encode depth m h := by
    have hdepth : depth < maxNesting := by omega
    unfold instEncodeFlowMod
    simp (disch := omega) [hdepth]

instance : Faithful GroupCommand 0 where
  encode_ne_null _ := nofun
  decode_encode _ c _ := by cases c <;> rfl
  holdable_encode _ _ _ := rfl

instance : Faithful GroupMod 8 where
  encode_ne_null _ := nofun
  decode_encode p m h := by
    unfold instEncodeGroupMod instDecodeGroupMod
    simp (disch := first | omega | simp) [member_eq_written, List.lookup_cons]
  holdable_encode depth m h := by
    have hdepth : depth < maxNesting := by omega
    unfold instEncodeGroupMod
    simp (disch := omega) [hdepth]

instance : Faithful Rejection 1 where
  encode_ne_null _ := nofun
  decode_encode p r h := by
    unfold instEncodeRejection instDecodeRejection
    simp (disch := first | omega | simp) [member_eq_written, List.lookup_cons]
  holdable_encode depth r h := by
    have hdepth : depth < maxNesting := by omega
    unfold instEncodeRejection
    simp (disch := omega) [hdepth]

instance : Faithful Message 9 where
  encode_ne_null _ := nofun
  decode_encode p m h := by
    have hpayload : p.inner.depth + 8 ≤ maxNesting := by simp only [Place.inner]; omega
    cases m with
    | flowMod mod =>
      exact (decodeBeside_beside (by decide) (by rfl)).trans (contentVariant_encode (by omega))
    | groupMod mod =>
      exact (decodeBeside_beside (by decide) (by rfl)).trans (contentVariant_encode (by omega))
    | error rejection =>
      exact (decodeBeside_beside (by decide) (by rfl)).trans (contentVariant_encode (by omega))
    | barrierRequest | ack | barrierReply =>
      exact (decodeBeside_beside (by decide) (by rfl)).trans (noContentVariant_none _ _)
  holdable_encode depth m h := by
    have hdepth : depth < maxNesting := by omega
    unfold instEncodeMessage
    cases m <;> simp (disch := omega) [Message.parts, beside, hdepth, holdable_encode]

instance : Faithful Envelope 10 where
  encode_ne_null _ := nofun
  decode_encode p e h := by
    unfold instEncodeEnvelope instDecodeEnvelope
    simp (disch := first | omega | simp) [member_eq_written, List.lookup_cons]
  holdable_encode depth e h := by
    have hdepth : depth < maxNesting := by omega
    unfold instEncodeEnvelope
    simp (disch := omega) [hdepth]

/-! ## Frames -/

/-- A frame carries the envelope that it was written from. -/
theorem Envelope.ofFrame?_toFrame (e : Envelope) : Envelope.ofFrame? e.toFrame = some e := by
  rw [Envelope.ofFrame?, Envelope.toFrame, read_octets, Option.bind_some]
  exact decode_encode {} e (by decide)

/-- Every envelope can be written, and what is written is read as that
envelope: whatever its transaction id, the kind of its message, the number of
instructions, buckets and actions, the fields that are there and the characters
of its texts. -/
theorem json_read_write (e : Envelope) :
    ∃ frame, Codec.json.write e = .ok frame ∧ Codec.json.read frame = some e :=
  ⟨e.toFrame, rfl, e.ofFrame?_toFrame⟩

end Southbound
