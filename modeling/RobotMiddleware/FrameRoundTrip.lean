import RobotMiddleware.FrameLayout

/-! The two directions of the codec together. -/
namespace RobotMiddleware
variable {W V : SizeT}

/-- A frame goes from a peer with the limits `here` to a peer with the limits `there`
exactly when it is within both. -/
theorem frame_round_trip (frame : Frame) (here : FrameLimits W) (there : FrameLimits V) :
    ((∃ encoded, encodeFrame frame here = .ok encoded) ↔
      frame.topic.length ≤ 65535 ∧ frame.payload.length ≤ 2 ^ 32 - 1 ∧
      frame.topic.length ≤ here.maxTopicSize.toNat ∧
      frame.payload.length ≤ here.maxPayloadSize.toNat ∧
      56 + frame.topic.length + frame.payload.length ≤ here.maxFrameSize.toNat) ∧
    ∀ encoded, encodeFrame frame here = .ok encoded →
      (decodeBuffer encoded there = .ok frame ↔
        frame.topic.length ≤ there.maxTopicSize.toNat ∧
        frame.payload.length ≤ there.maxPayloadSize.toNat ∧
        56 + frame.topic.length + frame.payload.length ≤ there.maxFrameSize.toNat) ∧
      (decodeBuffer encoded there ≠ .ok frame →
        ∃ what, decodeBuffer encoded there = .error (.transportError what)) := by
  constructor
  · simp only [encodeFrame_eq_ok_iff, exists_and_left, exists_eq, and_true]
    exact ⟨fun h => ⟨h.topic_wire, h.payload_wire, h.topic_le, h.payload_le, h.frame_le⟩,
      fun ⟨htopic, hpayload, htopic', hpayload', hframe⟩ =>
        ⟨htopic, hpayload, htopic', hpayload', hframe⟩⟩
  · intro encoded hencode
    obtain ⟨hhere, rfl⟩ := encodeFrame_eq_ok_iff.mp hencode
    constructor
    · rw [decodeBuffer_eq_ok_iff, and_iff_left rfl]
      exact ⟨fun h => ⟨h.topic_le, h.payload_le, h.frame_le⟩,
        fun ⟨htopic, hpayload, hframe⟩ =>
          ⟨hhere.topic_wire, hhere.payload_wire, htopic, hpayload, hframe⟩⟩
    · intro hne
      refine decodeBuffer_inBounds.throws fun other hother => ?_
      obtain ⟨hthere, hwire⟩ := decodeBuffer_eq_ok_iff.mp hother
      obtain rfl := wire_injective hhere hthere hwire
      exact hne hother

/-- Between peers that differ in their payload limit only, a frame may pass one way. -/
theorem frame_round_trip_one_way : ∃ encoded,
    encodeFrame { topic := [97], payload := [1, 2] } ({} : FrameLimits .bits64) = .ok encoded ∧
    decodeBuffer encoded ({} : FrameLimits .bits32) =
      .ok { topic := [97], payload := [1, 2] } ∧
    ∃ what, decodeBuffer encoded ({ maxPayloadSize := 1 } : FrameLimits .bits32) =
      .error (.transportError what) := by
  have hwide := frame_round_trip { topic := [97], payload := [1, 2] }
    ({} : FrameLimits .bits64) ({} : FrameLimits .bits32)
  have hnarrow := frame_round_trip { topic := [97], payload := [1, 2] }
    ({} : FrameLimits .bits64) ({ maxPayloadSize := 1 } : FrameLimits .bits32)
  obtain ⟨encoded, hencode⟩ := hwide.1.mpr (by decide)
  refine ⟨encoded, hencode, (hwide.2 encoded hencode).1.mpr (by decide), ?_⟩
  exact (hnarrow.2 encoded hencode).2 fun h =>
    absurd ((hnarrow.2 encoded hencode).1.mp h) (by decide)

/-- The wire format is canonical: a frame has one encoding, and `decodeFrame` accepts
that one only. -/
theorem wire_format_canonical (limits : FrameLimits W) :
    (∀ data frame, decodeBuffer data limits = .ok frame → encodeFrame frame limits = .ok data) ∧
    (∀ data, (∃ frame, decodeBuffer data limits = .ok frame) ↔
      ∃ frame, encodeFrame frame limits = .ok data) ∧
    (∀ data data' frame, decodeBuffer data limits = .ok frame →
      decodeBuffer data' limits = .ok frame → data = data') ∧
    ∀ data frame, decodeBuffer data limits = .ok frame → data = frame.wire := by
  have hsame (data : Bytes) (frame : Frame) :
      decodeBuffer data limits = .ok frame ↔ encodeFrame frame limits = .ok data :=
    decodeBuffer_eq_ok_iff.trans encodeFrame_eq_ok_iff.symm
  have hwire (data : Bytes) (frame : Frame) (h : decodeBuffer data limits = .ok frame) :
      data = frame.wire := (decodeBuffer_eq_ok_iff.mp h).2
  exact ⟨fun data frame => (hsame data frame).mp, fun data => exists_congr (hsame data),
    fun data data' frame h h' => (hwire data frame h).trans (hwire data' frame h').symm, hwire⟩

/-- The 61 bytes of a frame with a topic and a payload are accepted, and they are its encoding. -/
theorem wire_format_canonical_reading :
    let frame : Frame :=
      { flags := 1, typeId := 7, schemaHash := 9, sequence := 2, publisherId := 3, sendTimeNs := 5,
        topic := [47, 97], payload := [1, 2, 3] }
    frame.wire.length = 61 ∧ encodeFrame frame ({} : FrameLimits .bits64) = .ok frame.wire := by
  intro frame
  refine ⟨by decide +kernel, ?_⟩
  exact (wire_format_canonical ({} : FrameLimits .bits64)).1 frame.wire frame (by decide +kernel)

end RobotMiddleware
