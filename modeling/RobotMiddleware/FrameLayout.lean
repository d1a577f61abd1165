import RobotMiddleware.BigEndian
import RobotMiddleware.FrameModel

/-! The bytes of an encoded frame. `Frame.wire` says where everything lies; `encodeFrame`
produces it and `decodeFrame` accepts nothing else. -/
namespace RobotMiddleware

/-! Sequencing calls that may fail. -/

theorem bind_eq_ok_iff {α β : Type} {x : Except Fault α} {f : α → Except Fault β} {b : β} :
    (x >>= f) = .ok b ↔ ∃ a, x = .ok a ∧ f a = .ok b := by
  cases x <;> simp [bind, Except.bind]

theorem ok_bind {α β : Type} (a : α) (f : α → Except Fault β) :
    ((.ok a : Except Fault α) >>= f) = f a := rfl

theorem throwIf_eq_ok_iff {p : Prop} [Decidable p] {what : String} {u : Unit} :
    throwIf p what = .ok u ↔ ¬ p := by
  by_cases hp : p <;> simp [throwIf, hp]

theorem throwIf_bind_eq_ok_iff {α : Type} {p : Prop} [Decidable p] {what : String}
    {f : Unit → Except Fault α} {a : α} :
    (throwIf p what >>= f) = .ok a ↔ ¬ p ∧ f () = .ok a := by
  rw [bind_eq_ok_iff]
  simp only [throwIf_eq_ok_iff]
  exact ⟨fun ⟨_, h⟩ => h, fun h => ⟨(), h⟩⟩

/-- A call that either succeeds or throws `TransportError`. -/
def InBounds {α : Type} (x : Except Fault α) : Prop :=
  ∀ i, x ≠ .error (.outOfBounds i)

namespace InBounds
variable {α β : Type}

theorem ok (a : α) : InBounds (.ok a) := by simp [InBounds]

theorem throwIf (p : Prop) [Decidable p] (what : String) : InBounds (throwIf p what) := by
  by_cases hp : p <;> simp [InBounds, RobotMiddleware.throwIf, hp]

theorem bind {x : Except Fault α} {f : α → Except Fault β} (hx : InBounds x)
    (hf : ∀ a, x = .ok a → InBounds (f a)) : InBounds (x >>= f) := by
  cases x with
  | error e =>
    intro i hi
    exact hx i (congrArg Except.error (Except.error.inj hi))
  | ok a => exact hf a rfl

/-- A call in bounds that does not succeed throws. -/
theorem throws {x : Except Fault α} (hx : InBounds x) (hne : ∀ a, x ≠ .ok a) :
    ∃ what, x = .error (.transportError what) := by
  rcases x with (what | i) | a
  · exact ⟨what, rfl⟩
  · exact absurd rfl (hx i)
  · exact absurd rfl (hne a)

end InBounds

/-! Reads. -/

def slice (data : Bytes) (offset n : ℕ) : Bytes :=
  (data.drop offset).take n

theorem length_slice {data : Bytes} {offset n : ℕ} (h : offset + n ≤ data.length) :
    (slice data offset n).length = n := by
  rw [slice, List.length_take, List.length_drop]
  omega

theorem slice_succ {data : Bytes} {offset n : ℕ} (h : offset < data.length) :
    slice data offset (n + 1) = data[offset] :: slice data (offset + 1) n := by
  rw [slice, List.drop_eq_getElem_cons h, List.take_succ_cons, slice]

theorem slice_zero (data : Bytes) (offset : ℕ) : slice data offset 0 = [] :=
  List.take_zero

theorem byteAt_of_lt {data : Bytes} {i : ℕ} (h : i < data.length) :
    byteAt (some data) i = .ok data[i] := by
  simp [byteAt, h]

theorem byteAt_eq_ok_iff {data : Bytes} {i : ℕ} (h : i + 1 ≤ data.length) {b : Byte} :
    byteAt (some data) i = .ok b ↔ slice data i 1 = [b] := by
  rw [byteAt_of_lt h, slice_succ h, slice_zero]
  simp

theorem readU16_of_le {data : Bytes} {offset : ℕ} (h : offset + 2 ≤ data.length) :
    readU16 (some data) offset = .ok (BigEndian.word 16 (slice data offset 2)) := by
  rw [readU16, byteAt_of_lt (by omega), byteAt_of_lt (by omega), slice_succ (by omega),
    slice_succ (by omega), slice_zero]
  simp [BigEndian.word, BigEndian.push, bind, Except.bind, pure, Except.pure]

theorem readU32_of_le {data : Bytes} {offset : ℕ} (h : offset + 4 ≤ data.length) :
    readU32 (some data) offset = .ok (BigEndian.word 32 (slice data offset 4)) := by
  rw [readU32, byteAt_of_lt (by omega), byteAt_of_lt (by omega), byteAt_of_lt (by omega),
    byteAt_of_lt (by omega), slice_succ (by omega), slice_succ (by omega),
    slice_succ (by omega), slice_succ (by omega), slice_zero]
  simp [BigEndian.word, BigEndian.push, bind, Except.bind, pure, Except.pure,
    BitVec.shiftLeft_or_distrib, ← BitVec.shiftLeft_add]

theorem foldlM_byteAt {data : Bytes} {offset first n : ℕ} (acc : BitVec 64)
    (h : offset + (first + n) ≤ data.length) :
    (List.range' first n).foldlM (fun result i => do
        let b ← byteAt (some data) (offset + i)
        return (result <<< 8) ||| b.setWidth 64) acc =
      (.ok ((slice data (offset + first) n).foldl BigEndian.push acc) : Except Fault _) := by
  induction n generalizing first acc with
  | zero => rw [slice_zero]; rfl
  | succ n ih =>
    rw [List.range'_succ, List.foldlM_cons, byteAt_of_lt (by omega), slice_succ (by omega),
      List.foldl_cons]
    exact ih _ (by omega)

theorem readU64_of_le {data : Bytes} {offset : ℕ} (h : offset + 8 ≤ data.length) :
    readU64 (some data) offset = .ok (BigEndian.word 64 (slice data offset 8)) := by
  rw [readU64, List.range_eq_range']
  exact foldlM_byteAt 0 (by omega)

theorem readRange_of_le {data : Bytes} {first last : ℕ} (h : last ≤ data.length)
    (hle : first ≤ last) :
    readRange (some data) first last = .ok (slice data first (last - first)) := by
  obtain ⟨n, rfl⟩ := Nat.exists_eq_add_of_le hle
  rw [readRange, Nat.add_sub_cancel_left]
  induction n generalizing first with
  | zero => rw [slice_zero]; rfl
  | succ n ih =>
    rw [List.range'_succ, List.mapM_cons, byteAt_of_lt (by omega), slice_succ (by omega),
      ih (by omega) (by omega)]
    rfl

/-! The hand-written writers are the big-endian bytes. -/

theorem and_byteMask (b : Byte) : b &&& 255#8 = b := by
  have hmask : (255#8) = BitVec.allOnes 8 := rfl
  rw [hmask, BitVec.and_allOnes]

theorem writeU16_eq_bytes (v : BitVec 16) : writeU16 v = BigEndian.bytes 2 v := by
  simp [writeU16, BigEndian.bytes, BigEndian.byte, and_byteMask]

theorem writeU32_eq_bytes (v : BitVec 32) : writeU32 v = BigEndian.bytes 4 v := by
  simp [writeU32, BigEndian.bytes, BigEndian.byte, and_byteMask]

theorem writeU64_eq_bytes (v : BitVec 64) : writeU64 v = BigEndian.bytes 8 v := by
  simp [writeU64, BigEndian.bytes, BigEndian.byte, and_byteMask, List.range, List.range.loop]

/-- Reading a word is the same as comparing with its written form. -/
theorem word_eq_iff {n w : ℕ} (hw : w = 8 * n) {bs : Bytes} (h : bs.length = n)
    (v : BitVec w) : BigEndian.word w bs = v ↔ bs = BigEndian.bytes n v := by
  constructor
  · rintro rfl
    exact (BigEndian.bytes_word hw h).symm
  · rintro rfl
    exact BigEndian.word_bytes hw v

section Reads
variable {data : Bytes} {offset : ℕ}

theorem readU16_eq_ok_iff (h : offset + 2 ≤ data.length) {v : BitVec 16} :
    readU16 (some data) offset = .ok v ↔ slice data offset 2 = writeU16 v := by
  rw [readU16_of_le h, Except.ok.injEq, word_eq_iff rfl (length_slice h), writeU16_eq_bytes]

theorem readU32_eq_ok_iff (h : offset + 4 ≤ data.length) {v : BitVec 32} :
    readU32 (some data) offset = .ok v ↔ slice data offset 4 = writeU32 v := by
  rw [readU32_of_le h, Except.ok.injEq, word_eq_iff rfl (length_slice h), writeU32_eq_bytes]

theorem readU64_eq_ok_iff (h : offset + 8 ≤ data.length) {v : BitVec 64} :
    readU64 (some data) offset = .ok v ↔ slice data offset 8 = writeU64 v := by
  rw [readU64_of_le h, Except.ok.injEq, word_eq_iff rfl (length_slice h), writeU64_eq_bytes]

end Reads

/-! Limits. -/

section Limits
variable {W : SizeT} (limits : FrameLimits W)

structure FrameLimits.Admits (topicSize payloadSize : ℕ) : Prop where
  topic_wire : topicSize ≤ 65535
  payload_wire : payloadSize ≤ 4294967295
  topic_le : topicSize ≤ limits.maxTopicSize.toNat
  payload_le : payloadSize ≤ limits.maxPayloadSize.toNat
  frame_le : Frame.kHeaderSize + topicSize + payloadSize ≤ limits.maxFrameSize.toNat

theorem SizeT.lt_max (W : SizeT) : Frame.kHeaderSize + 65535 < W.max := by
  cases W <;> decide

theorem SizeT.max_lt (W : SizeT) : W.max < 2 ^ W.width := by
  cases W <;> decide

/-- The sum does not wrap around, whatever the limits. -/
theorem checkedFrameSize_eq_ok_iff {topicSize payloadSize n : ℕ} :
    checkedFrameSize topicSize payloadSize limits = .ok n ↔
      limits.Admits topicSize payloadSize ∧ n = Frame.kHeaderSize + topicSize + payloadSize := by
  have hmax := W.lt_max
  have hpow := W.max_lt
  have hlimit : limits.maxFrameSize.toNat ≤ W.max := Nat.le_sub_one_of_lt limits.maxFrameSize.isLt
  simp only [checkedFrameSize, throwIf_bind_eq_ok_iff, not_lt, not_or]
  constructor
  · rintro ⟨htopic, hpayload, htopic', hpayload', ⟨-, hfits⟩, hframe, hn⟩
    have hsum : Frame.kHeaderSize + topicSize + payloadSize < 2 ^ W.width := by omega
    rw [Nat.mod_eq_of_lt hsum] at hframe hn
    exact ⟨⟨htopic, hpayload, htopic', hpayload', hframe⟩, (Except.ok.inj hn).symm⟩
  · rintro ⟨⟨htopic, hpayload, htopic', hpayload', hframe⟩, rfl⟩
    have hsum : Frame.kHeaderSize + topicSize + payloadSize < 2 ^ W.width := by omega
    rw [Nat.mod_eq_of_lt hsum]
    exact ⟨htopic, hpayload, htopic', hpayload', by omega, hframe, rfl⟩

theorem checkedFrameSize_inBounds (topicSize payloadSize : ℕ) :
    InBounds (checkedFrameSize topicSize payloadSize limits) := by
  refine .bind (.throwIf _ _) fun _ _ => .bind (.throwIf _ _) fun _ _ =>
    .bind (.throwIf _ _) fun _ _ => .bind (.throwIf _ _) fun _ _ =>
    .bind (.throwIf _ _) fun _ _ => .bind (.throwIf _ _) fun _ _ => .ok _

end Limits

/-! The layout. -/

namespace Frame

def fields (frame : Frame) : List Bytes :=
  [writeU32 kMagic, [kVersion], [frame.flags], writeU16 (BitVec.ofNat 16 kHeaderSize),
    writeU16 (BitVec.ofNat 16 frame.topic.length), writeU16 0,
    writeU32 (BitVec.ofNat 32 frame.payload.length), writeU32 frame.typeId,
    writeU64 frame.schemaHash, writeU64 frame.sequence, writeU64 frame.publisherId,
    writeU64 frame.sendTimeNs]

def wire (frame : Frame) : Bytes :=
  frame.fields.flatten ++ (writeU32 (crc32 (frame.topic ++ frame.payload)) ++
    (frame.topic ++ frame.payload))

theorem length_fields (frame : Frame) : frame.fields.flatten.length = kCrcOffset := rfl

theorem length_wire (frame : Frame) :
    frame.wire.length = kHeaderSize + frame.topic.length + frame.payload.length := by
  have hcrc (v : BitVec 32) : (writeU32 v).length = 4 := rfl
  rw [wire, List.length_append, length_fields, List.length_append, hcrc, List.length_append,
    ← Nat.add_assoc, ← Nat.add_assoc]
  rfl

end Frame

/-- A write that replaces exactly `old`. -/
theorem writeAt_append {before old after bytes : Bytes} {offset : ℕ}
    (hoffset : offset = before.length) (hold : old.length = bytes.length) :
    writeAt (before ++ (old ++ after)) offset bytes = before ++ (bytes ++ after) := by
  subst hoffset
  rw [writeAt, List.take_left, ← List.drop_drop, List.drop_left, ← hold, List.drop_left,
    List.append_assoc]

def writeAll : Bytes → ℕ → List Bytes → Bytes
  | buffer, _, [] => buffer
  | buffer, offset, bytes :: rest =>
    writeAll (writeAt buffer offset bytes) (offset + bytes.length) rest

theorem writeAll_zeros (n : ℕ) (chunks : List Bytes) {before : Bytes} {offset : ℕ}
    (hoffset : offset = before.length) :
    writeAll (before ++ List.replicate (chunks.flatten.length + n) 0) offset chunks =
      before ++ chunks.flatten ++ List.replicate n 0 := by
  induction chunks generalizing before offset with
  | nil => simp [writeAll]
  | cons bytes rest ih =>
    rw [List.flatten_cons, List.length_append, Nat.add_assoc, List.replicate_add, writeAll,
      writeAt_append hoffset List.length_replicate, ← List.append_assoc,
      ih (by rw [hoffset, List.length_append]), List.append_assoc before]

/-- The buffer of `encodeFrame` before the checksum is written. -/
theorem writeAll_body (frame : Frame) :
    writeAt (writeAt (writeAll (List.replicate (Frame.kHeaderSize + frame.topic.length +
        frame.payload.length) 0) 0 frame.fields) Frame.kHeaderSize frame.topic)
        (Frame.kHeaderSize + frame.topic.length) frame.payload =
      frame.fields.flatten ++ (List.replicate 4 0 ++ (frame.topic ++ frame.payload)) := by
  have hlength : Frame.kHeaderSize + frame.topic.length + frame.payload.length =
      frame.fields.flatten.length + (4 + (frame.topic.length + frame.payload.length)) := by
    rw [Frame.length_fields, ← Nat.add_assoc, ← Nat.add_assoc]
    rfl
  have hheader : writeAll ([] ++ List.replicate (frame.fields.flatten.length +
      (4 + (frame.topic.length + frame.payload.length))) 0) 0 frame.fields = _ :=
    writeAll_zeros _ _ rfl
  have hgap : (frame.fields.flatten ++ List.replicate 4 (0 : Byte)).length =
      Frame.kHeaderSize := rfl
  rw [hlength]
  rw [List.nil_append, List.nil_append] at hheader
  rw [hheader, List.replicate_add, List.replicate_add, ← List.append_assoc,
    writeAt_append hgap.symm List.length_replicate, ← List.append_assoc,
    ← List.append_nil (List.replicate frame.payload.length 0),
    writeAt_append (by rw [List.length_append, hgap]) List.length_replicate]
  simp only [List.append_nil, List.append_assoc]

/-- The writes of `encodeFrame` fill the layout. -/
theorem encodeFrame_eq_ok_iff {W : SizeT} {frame : Frame} {limits : FrameLimits W}
    {encoded : Bytes} :
    encodeFrame frame limits = .ok encoded ↔
      limits.Admits frame.topic.length frame.payload.length ∧ encoded = frame.wire := by
  have hencode : encodeFrame frame limits =
      checkedFrameSize frame.topic.length frame.payload.length limits >>= fun n =>
        let body := writeAt (writeAt (writeAll (List.replicate n 0) 0 frame.fields)
          Frame.kHeaderSize frame.topic) (Frame.kHeaderSize + frame.topic.length) frame.payload
        .ok (writeAt body kCrcOffset (writeU32 (crc32 (body.drop Frame.kHeaderSize)))) := rfl
  have hgap : Frame.kHeaderSize = (frame.fields.flatten ++ List.replicate 4 (0 : Byte)).length :=
    rfl
  have hdrop : (frame.fields.flatten ++ (List.replicate 4 0 ++
      (frame.topic ++ frame.payload))).drop Frame.kHeaderSize = frame.topic ++ frame.payload := by
    rw [← List.append_assoc, hgap, List.drop_left]
  have hcrc (checksum : BitVec 32) :
      writeAt (frame.fields.flatten ++ (List.replicate 4 0 ++ (frame.topic ++ frame.payload)))
        kCrcOffset (writeU32 checksum) =
      frame.fields.flatten ++ (writeU32 checksum ++ (frame.topic ++ frame.payload)) :=
    writeAt_append frame.length_fields.symm rfl
  rw [hencode, bind_eq_ok_iff]
  simp only [checkedFrameSize_eq_ok_iff]
  constructor
  · rintro ⟨n, ⟨hadmits, rfl⟩, h⟩
    rw [writeAll_body, hdrop, hcrc] at h
    exact ⟨hadmits, (Except.ok.inj h).symm⟩
  · rintro ⟨hadmits, rfl⟩
    refine ⟨_, ⟨hadmits, rfl⟩, ?_⟩
    rw [writeAll_body, hdrop, hcrc, Frame.wire]

/-! Parsing. -/

/-- Peeling one field off the layout. -/
theorem drop_eq_append_iff {data bytes rest : Bytes} {offset : ℕ} :
    data.drop offset = bytes ++ rest ↔
      slice data offset bytes.length = bytes ∧ data.drop (offset + bytes.length) = rest := by
  rw [slice, ← List.drop_drop]
  constructor
  · intro h
    rw [h, List.take_left, List.drop_left]
    exact ⟨rfl, rfl⟩
  · rintro ⟨hbytes, hrest⟩
    calc data.drop offset
        = (data.drop offset).take bytes.length ++ (data.drop offset).drop bytes.length :=
          (List.take_append_drop _ _).symm
      _ = bytes ++ rest := by rw [hbytes, hrest]

theorem eq_wire_iff {data : Bytes} {frame : Frame} :
    data = frame.wire ↔
      slice data kMagicOffset 4 = writeU32 Frame.kMagic ∧
      slice data kVersionOffset 1 = [Frame.kVersion] ∧
      slice data kFlagsOffset 1 = [frame.flags] ∧
      slice data kHeaderSizeOffset 2 = writeU16 (BitVec.ofNat 16 Frame.kHeaderSize) ∧
      slice data kTopicSizeOffset 2 = writeU16 (BitVec.ofNat 16 frame.topic.length) ∧
      slice data kReservedOffset 2 = writeU16 0 ∧
      slice data kPayloadSizeOffset 4 = writeU32 (BitVec.ofNat 32 frame.payload.length) ∧
      slice data kTypeIdOffset 4 = writeU32 frame.typeId ∧
      slice data kSchemaHashOffset 8 = writeU64 frame.schemaHash ∧
      slice data kSequenceOffset 8 = writeU64 frame.sequence ∧
      slice data kPublisherIdOffset 8 = writeU64 frame.publisherId ∧
      slice data kSendTimeOffset 8 = writeU64 frame.sendTimeNs ∧
      slice data kCrcOffset 4 = writeU32 (crc32 (frame.topic ++ frame.payload)) ∧
      data.drop Frame.kHeaderSize = frame.topic ++ frame.payload := by
  have hzero : data = frame.wire ↔ data.drop 0 = frame.wire := by rw [List.drop_zero]
  rw [hzero, Frame.wire, Frame.fields]
  simp only [List.flatten_cons, List.flatten_nil, List.append_assoc, List.append_nil,
    drop_eq_append_iff]
  rfl

section Decode
variable {W : SizeT} {limits : FrameLimits W} {data : Bytes}

theorem requirePointer_some (size : ℕ) : requirePointer (some data) size = .ok () := by
  simp [requirePointer, throwIf]

structure HeaderDeclares (limits : FrameLimits W) (data : Bytes) (topicSize : BitVec 16)
    (payloadSize : BitVec 32) : Prop where
  magic : slice data kMagicOffset 4 = writeU32 Frame.kMagic
  version : slice data kVersionOffset 1 = [Frame.kVersion]
  headerSize : slice data kHeaderSizeOffset 2 = writeU16 (BitVec.ofNat 16 Frame.kHeaderSize)
  reserved : slice data kReservedOffset 2 = writeU16 0
  topic : slice data kTopicSizeOffset 2 = writeU16 topicSize
  payload : slice data kPayloadSizeOffset 4 = writeU32 payloadSize
  admits : limits.Admits topicSize.toNat payloadSize.toNat

theorem frameSizeFromHeader_eq_ok_iff {size n : ℕ} (hsize : size ≤ data.length) :
    frameSizeFromHeader (some data) size limits = .ok n ↔
      Frame.kHeaderSize ≤ size ∧ ∃ topicSize payloadSize,
        HeaderDeclares limits data topicSize payloadSize ∧
        n = Frame.kHeaderSize + topicSize.toNat + payloadSize.toNat := by
  rw [frameSizeFromHeader, requirePointer_some, ok_bind, throwIf_bind_eq_ok_iff, not_lt]
  refine and_congr_right fun hheader => ?_
  have hle (i : ℕ) (hi : i ≤ Frame.kHeaderSize) : i ≤ data.length := hi.trans (hheader.trans hsize)
  simp only [bind_eq_ok_iff, throwIf_eq_ok_iff, not_not, exists_const, checkedFrameSize_eq_ok_iff,
    readU32_eq_ok_iff (hle (kMagicOffset + 4) (by decide)),
    readU32_eq_ok_iff (hle (kPayloadSizeOffset + 4) (by decide)),
    readU16_eq_ok_iff (hle (kHeaderSizeOffset + 2) (by decide)),
    readU16_eq_ok_iff (hle (kReservedOffset + 2) (by decide)),
    readU16_eq_ok_iff (hle (kTopicSizeOffset + 2) (by decide)),
    byteAt_eq_ok_iff (hle (kVersionOffset + 1) (by decide))]
  constructor
  · rintro ⟨_, hmagic, rfl, _, hversion, rfl, _, hsize, rfl, _, hreserved, rfl, t, htopic, p,
      hpayload, hadmits, rfl⟩
    exact ⟨t, p, ⟨hmagic, hversion, hsize, hreserved, htopic, hpayload, hadmits⟩, rfl⟩
  · rintro ⟨t, p, h, rfl⟩
    exact ⟨_, h.magic, rfl, _, h.version, rfl, _, h.headerSize, rfl, _, h.reserved, rfl, t,
      h.topic, p, h.payload, h.admits, rfl⟩

/-- The body of a block of the declared size is its topic followed by its payload. -/
theorem drop_header_eq {t p : ℕ} (hsize : data.length = Frame.kHeaderSize + t + p) :
    data.drop Frame.kHeaderSize =
      slice data Frame.kHeaderSize t ++ slice data (Frame.kHeaderSize + t) p := by
  have hpayload : slice data (Frame.kHeaderSize + t) p = data.drop (Frame.kHeaderSize + t) := by
    rw [slice, List.take_of_length_le]
    rw [List.length_drop]
    omega
  rw [hpayload, slice, ← List.drop_drop, List.take_append_drop]

/-- Every byte that `decodeFrame` accepts is the layout's byte. -/
theorem wire_of_decodeBuffer {frame : Frame} (hdecode : decodeBuffer data limits = .ok frame) :
    limits.Admits frame.topic.length frame.payload.length ∧ data = frame.wire := by
  rw [decodeBuffer, decodeFrame, requirePointer_some, ok_bind] at hdecode
  simp only [bind_eq_ok_iff, frameSizeFromHeader_eq_ok_iff le_rfl, throwIf_eq_ok_iff, not_not,
    exists_const] at hdecode
  obtain ⟨_, ⟨hheader, t, p, h, rfl⟩, hsize, crc, hcrc, body, hbody, rfl, t', ht', p', hp',
    flags, hflags, typeId, htypeId, schemaHash, hschemaHash, sequence, hsequence,
    publisherId, hpublisherId, sendTimeNs, hsendTimeNs, topic, htopic, payload, hpayload,
    hframe⟩ := hdecode
  have hle (i : ℕ) (hi : i ≤ Frame.kHeaderSize) : i ≤ data.length := hi.trans hheader
  -- the second reading of the two lengths gives what the header check read
  obtain rfl : t = t' := by
    have hread := (readU16_eq_ok_iff (hle (kTopicSizeOffset + 2) (by decide))).mpr h.topic
    exact Except.ok.inj (hread.symm.trans ht')
  obtain rfl : p = p' := by
    have hread := (readU32_eq_ok_iff (hle (kPayloadSizeOffset + 4) (by decide))).mpr h.payload
    exact Except.ok.inj (hread.symm.trans hp')
  rw [readRange_of_le (by omega) (by omega), Nat.add_sub_cancel_left] at htopic hpayload
  rw [readRange_of_le le_rfl hheader, hsize, Nat.add_assoc, Nat.add_sub_cancel_left] at hbody
  cases htopic
  cases hpayload
  cases hframe
  -- what follows the header is the topic and the payload, and it is what the checksum covers
  have hsplit := drop_header_eq hsize
  have htopicSize : (slice data Frame.kHeaderSize t.toNat).length = t.toNat :=
    length_slice (by omega)
  have hpayloadSize :
      (slice data (Frame.kHeaderSize + t.toNat) p.toNat).length = p.toNat :=
    length_slice (by omega)
  have hbody' : body = data.drop Frame.kHeaderSize := by
    rw [← Except.ok.inj hbody, slice, List.take_of_length_le]
    rw [List.length_drop]
    omega
  simp only [htopicSize, hpayloadSize]
  refine ⟨h.admits, eq_wire_iff.mpr ⟨h.magic, h.version, ?_, h.headerSize, ?_, h.reserved, ?_,
    ?_, ?_, ?_, ?_, ?_, ?_, hsplit⟩⟩
  · exact (byteAt_eq_ok_iff (hle (kFlagsOffset + 1) (by decide))).mp hflags
  · simpa only [htopicSize, BitVec.ofNat_toNat, BitVec.setWidth_eq] using h.topic
  · simpa only [hpayloadSize, BitVec.ofNat_toNat, BitVec.setWidth_eq] using h.payload
  · exact (readU32_eq_ok_iff (hle (kTypeIdOffset + 4) (by decide))).mp htypeId
  · exact (readU64_eq_ok_iff (hle (kSchemaHashOffset + 8) (by decide))).mp hschemaHash
  · exact (readU64_eq_ok_iff (hle (kSequenceOffset + 8) (by decide))).mp hsequence
  · exact (readU64_eq_ok_iff (hle (kPublisherIdOffset + 8) (by decide))).mp hpublisherId
  · exact (readU64_eq_ok_iff (hle (kSendTimeOffset + 8) (by decide))).mp hsendTimeNs
  · rw [← hsplit, ← hbody']
    exact (readU32_eq_ok_iff (hle (kCrcOffset + 4) (by decide))).mp hcrc

/-- `decodeFrame` reads the layout back. -/
theorem decodeBuffer_wire {frame : Frame}
    (hadmits : limits.Admits frame.topic.length frame.payload.length) :
    decodeBuffer frame.wire limits = .ok frame := by
  have hlength := frame.length_wire
  obtain ⟨hmagic, hversion, hflags, hheaderSize, htopic, hreserved, hpayload, htypeId,
    hschemaHash, hsequence, hpublisherId, hsendTimeNs, hcrc, hbody⟩ := eq_wire_iff.mp (Eq.refl frame.wire)
  generalize frame.wire = data at *
  have hheader : Frame.kHeaderSize ≤ data.length := by omega
  have hle (i : ℕ) (hi : i ≤ Frame.kHeaderSize) : i ≤ data.length := hi.trans hheader
  have htopicSize : (BitVec.ofNat 16 frame.topic.length).toNat = frame.topic.length :=
    (BitVec.toNat_ofNat _ _).trans (Nat.mod_eq_of_lt (Nat.lt_succ_of_le hadmits.topic_wire))
  have hpayloadSize : (BitVec.ofNat 32 frame.payload.length).toNat = frame.payload.length :=
    (BitVec.toNat_ofNat _ _).trans (Nat.mod_eq_of_lt (Nat.lt_succ_of_le hadmits.payload_wire))
  have hdeclared : frameSizeFromHeader (some data) data.length limits = .ok data.length := by
    refine (frameSizeFromHeader_eq_ok_iff le_rfl).mpr ⟨hheader, _, _,
      ⟨hmagic, hversion, hheaderSize, hreserved, htopic, hpayload, ?_⟩, ?_⟩
    · rwa [htopicSize, hpayloadSize]
    · rw [hlength, htopicSize, hpayloadSize]
  have htopicBytes : slice data Frame.kHeaderSize frame.topic.length = frame.topic := by
    rw [slice, hbody, List.take_left]
  have hpayloadBytes : slice data (Frame.kHeaderSize + frame.topic.length)
      frame.payload.length = frame.payload := by
    rw [slice, ← List.drop_drop, hbody, List.drop_left, List.take_length]
  have hwhole : slice data Frame.kHeaderSize (data.length - Frame.kHeaderSize) =
      frame.topic ++ frame.payload := by
    rw [slice, hbody, List.take_of_length_le]
    rw [List.length_append]
    omega
  rw [decodeBuffer, decodeFrame, requirePointer_some, ok_bind]
  simp only [bind_eq_ok_iff, throwIf_eq_ok_iff, not_not, exists_const]
  refine ⟨_, hdeclared, rfl, _, (readU32_eq_ok_iff (hle (kCrcOffset + 4) (by decide))).mpr hcrc,
    _, readRange_of_le le_rfl hheader, by rw [hwhole],
    _, (readU16_eq_ok_iff (hle (kTopicSizeOffset + 2) (by decide))).mpr htopic,
    _, (readU32_eq_ok_iff (hle (kPayloadSizeOffset + 4) (by decide))).mpr hpayload,
    _, (byteAt_eq_ok_iff (hle (kFlagsOffset + 1) (by decide))).mpr hflags,
    _, (readU32_eq_ok_iff (hle (kTypeIdOffset + 4) (by decide))).mpr htypeId,
    _, (readU64_eq_ok_iff (hle (kSchemaHashOffset + 8) (by decide))).mpr hschemaHash,
    _, (readU64_eq_ok_iff (hle (kSequenceOffset + 8) (by decide))).mpr hsequence,
    _, (readU64_eq_ok_iff (hle (kPublisherIdOffset + 8) (by decide))).mpr hpublisherId,
    _, (readU64_eq_ok_iff (hle (kSendTimeOffset + 8) (by decide))).mpr hsendTimeNs,
    _, readRange_of_le (by omega) (by omega), _, readRange_of_le (by omega) (by omega), ?_⟩
  simp only [htopicSize, hpayloadSize, Nat.add_sub_cancel_left, htopicBytes, hpayloadBytes]
  rfl

theorem decodeBuffer_eq_ok_iff {frame : Frame} :
    decodeBuffer data limits = .ok frame ↔
      limits.Admits frame.topic.length frame.payload.length ∧ data = frame.wire :=
  ⟨wire_of_decodeBuffer, fun ⟨hadmits, hwire⟩ => hwire ▸ decodeBuffer_wire hadmits⟩

/-- Limits that a frame of the wire format never exceeds. -/
def FrameLimits.widest : FrameLimits .bits64 where
  maxTopicSize := BitVec.allOnes 64
  maxPayloadSize := BitVec.allOnes 64
  maxFrameSize := BitVec.allOnes 64

theorem FrameLimits.Admits.widest {t p : ℕ} (h : limits.Admits t p) :
    FrameLimits.widest.Admits t p := by
  have hmax : (BitVec.allOnes 64).toNat = 18446744073709551615 := rfl
  have htopic := h.topic_wire
  have hpayload := h.payload_wire
  refine ⟨htopic, hpayload, ?_, ?_, ?_⟩ <;>
    simp only [FrameLimits.widest, Frame.kHeaderSize, SizeT.width, hmax] <;> omega

/-- Two frames that some limits admit differ on the wire. -/
theorem wire_injective {V : SizeT} {limits' : FrameLimits V} {frame other : Frame}
    (h : limits.Admits frame.topic.length frame.payload.length)
    (h' : limits'.Admits other.topic.length other.payload.length)
    (hwire : frame.wire = other.wire) : frame = other := by
  -- decoding under limits that admit both gives one frame
  have hdecode := decodeBuffer_wire h.widest
  rw [hwire, decodeBuffer_wire h'.widest] at hdecode
  exact (Except.ok.inj hdecode).symm

/-! No read leaves the buffer. -/

theorem readU16_inBounds {offset : ℕ} (h : offset + 2 ≤ data.length) :
    InBounds (readU16 (some data) offset) :=
  readU16_of_le h ▸ .ok _

theorem readU32_inBounds {offset : ℕ} (h : offset + 4 ≤ data.length) :
    InBounds (readU32 (some data) offset) :=
  readU32_of_le h ▸ .ok _

theorem readU64_inBounds {offset : ℕ} (h : offset + 8 ≤ data.length) :
    InBounds (readU64 (some data) offset) :=
  readU64_of_le h ▸ .ok _

theorem byteAt_inBounds {i : ℕ} (h : i + 1 ≤ data.length) : InBounds (byteAt (some data) i) :=
  byteAt_of_lt h ▸ .ok _

theorem readRange_inBounds {first last : ℕ} (hle : first ≤ last) (h : last ≤ data.length) :
    InBounds (readRange (some data) first last) :=
  readRange_of_le h hle ▸ .ok _

theorem frameSizeFromHeader_inBounds {size : ℕ} (hsize : size ≤ data.length) :
    InBounds (frameSizeFromHeader (some data) size limits) := by
  refine .bind (.throwIf _ _) fun _ _ => .bind (.throwIf _ _) fun _ hheader => ?_
  rw [throwIf_eq_ok_iff, not_lt] at hheader
  have hle (i : ℕ) (hi : i ≤ Frame.kHeaderSize) : i ≤ data.length := hi.trans (hheader.trans hsize)
  exact .bind (readU32_inBounds (hle _ (by decide))) fun _ _ => .bind (.throwIf _ _) fun _ _ =>
    .bind (byteAt_inBounds (hle _ (by decide))) fun _ _ => .bind (.throwIf _ _) fun _ _ =>
    .bind (readU16_inBounds (hle _ (by decide))) fun _ _ => .bind (.throwIf _ _) fun _ _ =>
    .bind (readU16_inBounds (hle _ (by decide))) fun _ _ => .bind (.throwIf _ _) fun _ _ =>
    .bind (readU16_inBounds (hle _ (by decide))) fun _ _ =>
    .bind (readU32_inBounds (hle _ (by decide))) fun _ _ => checkedFrameSize_inBounds _ _ _

theorem decodeBuffer_inBounds : InBounds (decodeBuffer data limits) := by
  refine .bind (.throwIf _ _) fun _ _ => .bind (frameSizeFromHeader_inBounds le_rfl)
    fun n hn => .bind (.throwIf _ _) fun _ hlength => ?_
  rw [throwIf_eq_ok_iff, not_not] at hlength
  obtain ⟨hheader, t, p, h, hsum⟩ := (frameSizeFromHeader_eq_ok_iff le_rfl).mp hn
  have hle (i : ℕ) (hi : i ≤ Frame.kHeaderSize) : i ≤ data.length := hi.trans hheader
  have htopic := (readU16_eq_ok_iff (hle (kTopicSizeOffset + 2) (by decide))).mpr h.topic
  have hpayload := (readU32_eq_ok_iff (hle (kPayloadSizeOffset + 4) (by decide))).mpr h.payload
  refine .bind (readU32_inBounds (hle _ (by decide))) fun _ _ =>
    .bind (readRange_inBounds hheader le_rfl) fun _ _ => .bind (.throwIf _ _) fun _ _ =>
    .bind (readU16_inBounds (hle _ (by decide))) fun t' ht' =>
    .bind (readU32_inBounds (hle _ (by decide))) fun p' hp' => ?_
  obtain rfl : t = t' := Except.ok.inj (htopic.symm.trans ht')
  obtain rfl : p = p' := Except.ok.inj (hpayload.symm.trans hp')
  exact .bind (byteAt_inBounds (hle _ (by decide))) fun _ _ =>
    .bind (readU32_inBounds (hle _ (by decide))) fun _ _ =>
    .bind (readU64_inBounds (hle _ (by decide))) fun _ _ =>
    .bind (readU64_inBounds (hle _ (by decide))) fun _ _ =>
    .bind (readU64_inBounds (hle _ (by decide))) fun _ _ =>
    .bind (readU64_inBounds (hle _ (by decide))) fun _ _ =>
    .bind (readRange_inBounds (by omega) (by omega)) fun _ _ =>
    .bind (readRange_inBounds (by omega) (by omega)) fun _ _ => .ok _

end Decode

end RobotMiddleware
