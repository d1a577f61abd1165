import RobotMiddleware.FrameLayout

/-! Decoding bytes from a hostile peer. A call on a block reads inside the block only, so
whatever lies behind the block has no influence on it; sizes never wrap around. -/
namespace RobotMiddleware

/-! A block with more bytes behind it. -/

/-- What a call does on a longer block: the same, unless it reads past the end of the
shorter one. -/
def ExtendsTo {α : Type} (x y : Except Fault α) : Prop :=
  InBounds x → y = x

namespace ExtendsTo
variable {α β : Type}

theorem refl (x : Except Fault α) : ExtendsTo x x := fun _ => rfl

theorem bind {x y : Except Fault α} {f g : α → Except Fault β} (hx : ExtendsTo x y)
    (hf : ∀ a, ExtendsTo (f a) (g a)) : ExtendsTo (x >>= f) (y >>= g) := by
  intro hbound
  cases x with
  | error e =>
    have hy : y = .error e := by
      apply hx
      intro i hi
      exact hbound i (congrArg Except.error (Except.error.inj hi))
    rw [hy]
    rfl
  | ok a =>
    have hy : y = .ok a := hx (.ok a)
    have hg : g a = f a := hf a hbound
    rw [hy, ok_bind, ok_bind, hg]

theorem mapM {γ : Type} {f g : γ → Except Fault α} (hf : ∀ c, ExtendsTo (f c) (g c))
    (cs : List γ) : ExtendsTo (cs.mapM f) (cs.mapM g) := by
  induction cs with
  | nil => exact refl _
  | cons c cs ih =>
    rw [List.mapM_cons, List.mapM_cons]
    exact bind (hf c) fun _ => bind ih fun _ => refl _

theorem foldlM {γ : Type} {f g : α → γ → Except Fault α} (hf : ∀ a c, ExtendsTo (f a c) (g a c))
    (cs : List γ) (a : α) : ExtendsTo (cs.foldlM f a) (cs.foldlM g a) := by
  induction cs generalizing a with
  | nil => exact refl _
  | cons c cs ih =>
    rw [List.foldlM_cons, List.foldlM_cons]
    exact bind (hf a c) ih

end ExtendsTo

section Beyond
variable {W : SizeT} (limits : FrameLimits W) (data beyond : Bytes)

theorem byteAt_extendsTo (i : ℕ) :
    ExtendsTo (byteAt (some data) i) (byteAt (some (data ++ beyond)) i) := by
  intro hbound
  by_cases hi : i < data.length
  · simp only [byteAt, Option.bind_some, List.getElem?_append_left hi]
  · have hnone : data[i]? = none := List.getElem?_eq_none (not_lt.mp hi)
    exact absurd (by simp only [byteAt, Option.bind_some, hnone]) (hbound i)

theorem readU16_extendsTo (offset : ℕ) :
    ExtendsTo (readU16 (some data) offset) (readU16 (some (data ++ beyond)) offset) :=
  .bind (byteAt_extendsTo data beyond _) fun _ => .bind (byteAt_extendsTo data beyond _) fun _ =>
    .refl _

theorem readU32_extendsTo (offset : ℕ) :
    ExtendsTo (readU32 (some data) offset) (readU32 (some (data ++ beyond)) offset) :=
  .bind (byteAt_extendsTo data beyond _) fun _ => .bind (byteAt_extendsTo data beyond _) fun _ =>
    .bind (byteAt_extendsTo data beyond _) fun _ => .bind (byteAt_extendsTo data beyond _) fun _ =>
    .refl _

theorem readU64_extendsTo (offset : ℕ) :
    ExtendsTo (readU64 (some data) offset) (readU64 (some (data ++ beyond)) offset) :=
  .foldlM (fun _ _ => .bind (byteAt_extendsTo data beyond _) fun _ => .refl _) _ _

theorem readRange_extendsTo (first last : ℕ) :
    ExtendsTo (readRange (some data) first last) (readRange (some (data ++ beyond)) first last) :=
  .mapM (byteAt_extendsTo data beyond) _

theorem requirePointer_extendsTo (size : ℕ) :
    ExtendsTo (requirePointer (some data) size) (requirePointer (some (data ++ beyond)) size) := by
  rw [requirePointer_some, requirePointer_some]
  exact .refl _

theorem frameSizeFromHeader_extendsTo (size : ℕ) :
    ExtendsTo (frameSizeFromHeader (some data) size limits)
      (frameSizeFromHeader (some (data ++ beyond)) size limits) :=
  .bind (requirePointer_extendsTo data beyond size) fun _ => .bind (.refl _) fun _ =>
    .bind (readU32_extendsTo data beyond _) fun _ => .bind (.refl _) fun _ =>
    .bind (byteAt_extendsTo data beyond _) fun _ => .bind (.refl _) fun _ =>
    .bind (readU16_extendsTo data beyond _) fun _ => .bind (.refl _) fun _ =>
    .bind (readU16_extendsTo data beyond _) fun _ => .bind (.refl _) fun _ =>
    .bind (readU16_extendsTo data beyond _) fun _ =>
    .bind (readU32_extendsTo data beyond _) fun _ => .refl _

theorem decodeFrame_extendsTo (size : ℕ) :
    ExtendsTo (decodeFrame (some data) size limits)
      (decodeFrame (some (data ++ beyond)) size limits) :=
  .bind (requirePointer_extendsTo data beyond size) fun _ =>
    .bind (frameSizeFromHeader_extendsTo limits data beyond size) fun _ => .bind (.refl _) fun _ =>
    .bind (readU32_extendsTo data beyond _) fun _ =>
    .bind (readRange_extendsTo data beyond _ _) fun _ => .bind (.refl _) fun _ =>
    .bind (readU16_extendsTo data beyond _) fun _ =>
    .bind (readU32_extendsTo data beyond _) fun _ =>
    .bind (byteAt_extendsTo data beyond _) fun _ =>
    .bind (readU32_extendsTo data beyond _) fun _ =>
    .bind (readU64_extendsTo data beyond _) fun _ =>
    .bind (readU64_extendsTo data beyond _) fun _ =>
    .bind (readU64_extendsTo data beyond _) fun _ =>
    .bind (readU64_extendsTo data beyond _) fun _ =>
    .bind (readRange_extendsTo data beyond _ _) fun _ =>
    .bind (readRange_extendsTo data beyond _ _) fun _ => .refl _

end Beyond

/-! The results of a call. -/

theorem InBounds.ok_or_throws {α : Type} {x : Except Fault α} (hx : InBounds x) :
    (∃ a, x = .ok a) ∨ ∃ what, x = .error (.transportError what) := by
  by_cases hok : ∃ a, x = .ok a
  · exact .inl hok
  · exact .inr (hx.throws fun a ha => hok ⟨a, ha⟩)

section Sizes
variable {W : SizeT} {limits : FrameLimits W} {data : Bytes}

/-- A null pointer with a size is refused, and one without is too short. -/
theorem frameSizeFromHeader_null (size : ℕ) :
    ∃ what, frameSizeFromHeader none size limits = .error (.transportError what) := by
  by_cases hsize : size = 0
  · exact ⟨"truncated frame header", by subst hsize; rfl⟩
  · exact ⟨"frame data pointer is null", by
      simp [frameSizeFromHeader, requirePointer, throwIf, hsize, bind, Except.bind]⟩

theorem decodeFrame_null (size : ℕ) :
    ∃ what, decodeFrame none size limits = .error (.transportError what) := by
  by_cases hsize : size = 0
  · exact ⟨"truncated frame header", by subst hsize; rfl⟩
  · exact ⟨"frame data pointer is null", by
      simp [decodeFrame, requirePointer, throwIf, hsize, bind, Except.bind]⟩

/-- The total that passes every check is the mathematical sum. -/
theorem checkedFrameSize_exact {topicSize payloadSize total : ℕ}
    (hok : checkedFrameSize topicSize payloadSize limits = .ok total) :
    total = 56 + topicSize + payloadSize ∧ total < 2 ^ W.width ∧
      total ≤ limits.maxFrameSize.toNat := by
  obtain ⟨hadmits, rfl⟩ := (checkedFrameSize_eq_ok_iff limits).mp hok
  have hlimit : limits.maxFrameSize.toNat < 2 ^ W.width := limits.maxFrameSize.isLt
  have hframe := hadmits.frame_le
  exact ⟨rfl, by omega, hframe⟩

/-- Where the topic and the payload of an accepted block lie. -/
theorem decodeBuffer_slices {frame : Frame} (hdecode : decodeBuffer data limits = .ok frame) :
    ∃ (topicSize : BitVec 16) (payloadSize : BitVec 32),
      readU16 (some data) kTopicSizeOffset = .ok topicSize ∧
      readU32 (some data) kPayloadSizeOffset = .ok payloadSize ∧
      checkedFrameSize topicSize.toNat payloadSize.toNat limits = .ok data.length ∧
      frame.topic = slice data 56 topicSize.toNat ∧
      frame.payload = slice data (56 + topicSize.toNat)
        (data.length - (56 + topicSize.toNat)) := by
  obtain ⟨hadmits, rfl⟩ := wire_of_decodeBuffer hdecode
  have hlength := frame.length_wire
  obtain ⟨-, -, -, -, htopic, -, hpayload, -, -, -, -, -, -, hbody⟩ :=
    eq_wire_iff.mp (Eq.refl frame.wire)
  have htopicSize : (BitVec.ofNat 16 frame.topic.length).toNat = frame.topic.length :=
    (BitVec.toNat_ofNat _ _).trans (Nat.mod_eq_of_lt (Nat.lt_succ_of_le hadmits.topic_wire))
  have hpayloadSize : (BitVec.ofNat 32 frame.payload.length).toNat = frame.payload.length :=
    (BitVec.toNat_ofNat _ _).trans (Nat.mod_eq_of_lt (Nat.lt_succ_of_le hadmits.payload_wire))
  have hheader : 56 ≤ frame.wire.length := by
    rw [hlength]
    exact (Nat.le_add_right _ _).trans (Nat.le_add_right _ _)
  generalize frame.wire = data at *
  have hrest : data.length - (56 + frame.topic.length) = frame.payload.length := by
    rw [hlength, Frame.kHeaderSize]
    omega
  refine ⟨_, _, (readU16_eq_ok_iff ?_).mpr htopic, (readU32_eq_ok_iff ?_).mpr hpayload, ?_⟩
  · exact le_trans (by decide) hheader
  · exact le_trans (by decide) hheader
  rw [htopicSize, hpayloadSize, hrest]
  refine ⟨(checkedFrameSize_eq_ok_iff limits).mpr ⟨hadmits, hlength⟩, ?_, ?_⟩
  · exact (List.take_left.symm.trans (congrArg (List.take _) hbody.symm))
  · have hdrop : data.drop (56 + frame.topic.length) = frame.payload := by
      rw [← List.drop_drop]
      exact (congrArg (List.drop _) hbody).trans List.drop_left
    rw [slice, hdrop, List.take_length]

end Sizes

/-- Whatever the bytes and the limits, the two parsers succeed or throw `TransportError`
and read below the given size only: the block is all they can read, and bytes behind it
change nothing. The sizes are exact, and an accepted frame is cut where its header says. -/
theorem frame_decoding_safe {W : SizeT} (limits : FrameLimits W) :
    (∀ data beyond : Bytes,
      ((∃ total, frameSizeFromHeader (some data) data.length limits = .ok total) ∨
        ∃ what, frameSizeFromHeader (some data) data.length limits =
          .error (.transportError what)) ∧
      ((∃ frame, decodeFrame (some data) data.length limits = .ok frame) ∨
        ∃ what, decodeFrame (some data) data.length limits = .error (.transportError what)) ∧
      frameSizeFromHeader (some (data ++ beyond)) data.length limits =
        frameSizeFromHeader (some data) data.length limits ∧
      decodeFrame (some (data ++ beyond)) data.length limits =
        decodeFrame (some data) data.length limits) ∧
    (∀ size,
      (∃ what, frameSizeFromHeader none size limits = .error (.transportError what)) ∧
      ∃ what, decodeFrame none size limits = .error (.transportError what)) ∧
    (∀ topicSize ≤ 65535, 56 + topicSize ≤ W.max) ∧
    (∀ topicSize payloadSize total, checkedFrameSize topicSize payloadSize limits = .ok total →
      total = 56 + topicSize + payloadSize ∧ total < 2 ^ W.width ∧
        total ≤ limits.maxFrameSize.toNat) ∧
    ∀ data frame, decodeFrame (some data) data.length limits = .ok frame →
      ∃ (topicSize : BitVec 16) (payloadSize : BitVec 32),
        readU16 (some data) kTopicSizeOffset = .ok topicSize ∧
        readU32 (some data) kPayloadSizeOffset = .ok payloadSize ∧
        checkedFrameSize topicSize.toNat payloadSize.toNat limits = .ok data.length ∧
        frame.topic = slice data 56 topicSize.toNat ∧
        frame.payload = slice data (56 + topicSize.toNat)
          (data.length - (56 + topicSize.toNat)) := by
  refine ⟨?_, fun size => ⟨frameSizeFromHeader_null size, decodeFrame_null size⟩, ?_,
    fun _ _ _ => checkedFrameSize_exact, fun _ _ => decodeBuffer_slices⟩
  · intro data beyond
    have hheader : InBounds (frameSizeFromHeader (some data) data.length limits) :=
      frameSizeFromHeader_inBounds le_rfl
    have hdecode : InBounds (decodeFrame (some data) data.length limits) := decodeBuffer_inBounds
    exact ⟨hheader.ok_or_throws, hdecode.ok_or_throws,
      frameSizeFromHeader_extendsTo limits data beyond _ hheader,
      decodeFrame_extendsTo limits data beyond _ hdecode⟩
  · intro topicSize htopic
    have hmax := W.lt_max
    rw [Frame.kHeaderSize] at hmax
    omega

/-- The 61 bytes of a frame with a topic and a payload, read from a longer block. -/
theorem frame_decoding_safe_reading :
    let frame : Frame :=
      { flags := 1, typeId := 7, schemaHash := 9, sequence := 2, publisherId := 3, sendTimeNs := 5,
        topic := [47, 97], payload := [1, 2, 3] }
    decodeFrame (some (frame.wire ++ [1, 2, 3])) 61 ({} : FrameLimits .bits32) = .ok frame ∧
    ∃ (topicSize : BitVec 16) (payloadSize : BitVec 32),
      checkedFrameSize topicSize.toNat payloadSize.toNat ({} : FrameLimits .bits32) = .ok 61 := by
  intro frame
  have hsafe := frame_decoding_safe ({} : FrameLimits .bits32)
  have hlength : frame.wire.length = 61 := by decide +kernel
  have hok : decodeFrame (some frame.wire) frame.wire.length ({} : FrameLimits .bits32) =
      .ok frame := by decide +kernel
  obtain ⟨topicSize, payloadSize, -, -, htotal, -⟩ := hsafe.2.2.2.2 frame.wire frame hok
  have hlonger := ((hsafe.1 frame.wire [1, 2, 3]).2.2.2).trans hok
  rw [hlength] at htotal hlonger
  exact ⟨hlonger, topicSize, payloadSize, htotal⟩

end RobotMiddleware
