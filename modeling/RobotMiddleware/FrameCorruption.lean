import RobotMiddleware.FrameRoundTrip
import RobotMiddleware.ShiftRegister

/-! What becomes of a frame whose bytes change on the way: the checksum sees every burst of up to
32 bits in the body, and every field of the header that the decoder relies on is checked. -/
namespace RobotMiddleware

/-! The checksum takes the bits in byte by byte, the lowest of a byte first. -/

def byteBits (b : Byte) : List Bool :=
  (List.range 8).map b.getLsbD

def bitsOf (data : Bytes) : List Bool :=
  data.flatMap byteBits

def bitAt (data : Bytes) (j : ℕ) : Bool :=
  (data.getD (j / 8) 0).getLsbD (j % 8)

theorem bitsOf_cons (b : Byte) (rest : Bytes) : bitsOf (b :: rest) = byteBits b ++ bitsOf rest :=
  List.flatMap_cons

theorem length_bitsOf (data : Bytes) : (bitsOf data).length = 8 * data.length := by
  induction data with
  | nil => rfl
  | cons b rest ih =>
    rw [bitsOf_cons, List.length_append, ih]
    simp [byteBits]
    omega

theorem getD_bitsOf (data : Bytes) (j : ℕ) : (bitsOf data).getD j false = bitAt data j := by
  induction data generalizing j with
  | nil => simp [bitsOf, bitAt]
  | cons b rest ih =>
    rw [bitsOf_cons]
    have hbyte : (byteBits b).length = 8 := by simp [byteBits]
    by_cases hj : j < 8
    · rw [List.getD_eq_getElem?_getD, List.getElem?_append_left (by omega), bitAt,
        Nat.div_eq_of_lt hj, Nat.mod_eq_of_lt hj]
      simp [byteBits, hj]
    · have hdiv : j / 8 = (j - 8) / 8 + 1 := by omega
      have hmod : j % 8 = (j - 8) % 8 := by omega
      rw [List.getD_eq_getElem?_getD, List.getElem?_append_right (by omega), hbyte,
        ← List.getD_eq_getElem?_getD, ih, bitAt, bitAt, hdiv, hmod]
      rfl

theorem crcBit_eq_step (crc : BitVec 32) : crcBit crc = ShiftRegister.step 0xEDB88320 crc := by
  have hmask : crc &&& 1 = if crc.getLsbD 0 then 1 else 0 := by
    apply BitVec.eq_of_getLsbD_eq
    intro i _
    cases hlow : crc.getLsbD 0 <;> cases i <;> simp_all
  rw [crcBit, ShiftRegister.step, hmask]
  cases crc.getLsbD 0 <;> rfl

theorem crcByte_eq_feed (crc : BitVec 32) (b : Byte) :
    crcByte crc b = ShiftRegister.feed 0xEDB88320 (byteBits b) crc := by
  have hword : (ShiftRegister.word (byteBits b) : BitVec 32) = b.setWidth 32 := by
    apply BitVec.eq_of_getLsbD_eq
    intro i hi
    rw [ShiftRegister.getLsbD_word, BitVec.getLsbD_setWidth]
    by_cases hi8 : i < 8
    · simp [byteBits, hi8]
    · have hout : b.getLsbD i = false := BitVec.getLsbD_of_ge _ _ (by omega)
      simp [byteBits, hi8, hout]
  have hstep : crcBit = ShiftRegister.step 0xEDB88320 := funext crcBit_eq_step
  rw [ShiftRegister.feed_eq_iterate _ (by simp [byteBits]), hword, crcByte, hstep]
  simp [byteBits, List.range, List.range.loop]

theorem crc32_eq_feed (data : Bytes) :
    crc32 data = ~~~ ShiftRegister.feed 0xEDB88320 (bitsOf data) 0xFFFFFFFF := by
  have hfold (crc : BitVec 32) :
      data.foldl crcByte crc = ShiftRegister.feed 0xEDB88320 (bitsOf data) crc := by
    induction data generalizing crc with
    | nil => rfl
    | cons b rest ih =>
      rw [List.foldl_cons, ih, crcByte_eq_feed, bitsOf_cons, ShiftRegister.feed_append]
  rw [crc32, hfold]

/-- Two lists that differ within a window only. -/
theorem exists_window {α : Type} {l l' : List α} (hlength : l.length = l'.length) (start n : ℕ)
    (h : ∀ i, i < start ∨ start + n ≤ i → l[i]? = l'[i]?) :
    ∃ before changed changed' after, l = before ++ (changed ++ after) ∧
      l' = before ++ (changed' ++ after) ∧ changed.length = changed'.length ∧
      changed.length ≤ n := by
  have hbefore : l.take start = l'.take start := by
    apply List.ext_getElem?
    intro i
    by_cases hi : i < start
    · rw [List.getElem?_take_of_lt hi, List.getElem?_take_of_lt hi, h i (.inl hi)]
    · rw [List.getElem?_eq_none, List.getElem?_eq_none] <;> simp <;> omega
  have hafter : l.drop (start + n) = l'.drop (start + n) := by
    apply List.ext_getElem?
    intro i
    rw [List.getElem?_drop, List.getElem?_drop, h _ (.inr (by omega))]
  have hsplit (k : List α) : k = k.take start ++ ((k.drop start).take n ++ k.drop (start + n)) := by
    rw [← List.drop_drop, List.take_append_drop, List.take_append_drop]
  refine ⟨l.take start, (l.drop start).take n, (l'.drop start).take n, l.drop (start + n),
    hsplit l, ?_, ?_, ?_⟩
  · rw [hbefore, hafter]
    exact hsplit l'
  · simp [hlength]
  · simp

/-- A burst of up to 32 bits changes the checksum. -/
theorem crc32_ne_of_burst {data data' : Bytes} (hlength : data.length = data'.length)
    (start : ℕ) (hburst : ∀ i, bitAt data i ≠ bitAt data' i → start ≤ i ∧ i < start + 32)
    (hne : ∃ i, bitAt data i ≠ bitAt data' i) : crc32 data ≠ crc32 data' := by
  have hbits : (bitsOf data).length = (bitsOf data').length := by
    rw [length_bitsOf, length_bitsOf, hlength]
  have hsame (i : ℕ) (hi : i < start ∨ start + 32 ≤ i) :
      (bitsOf data)[i]? = (bitsOf data')[i]? := by
    by_cases hlt : i < (bitsOf data).length
    · have hbit : bitAt data i = bitAt data' i := by
        by_contra hdiff
        have := hburst i hdiff
        omega
      rw [← getD_bitsOf, ← getD_bitsOf] at hbit
      simpa [List.getD_eq_getElem?_getD, hlt, hbits ▸ hlt] using hbit
    · rw [List.getElem?_eq_none (by omega), List.getElem?_eq_none (by omega)]
  obtain ⟨before, changed, changed', after, hdata, hdata', hchanged, hle⟩ :=
    exists_window hbits start 32 hsame
  have hdiff : changed ≠ changed' := by
    rintro rfl
    obtain ⟨i, hi⟩ := hne
    rw [← getD_bitsOf, ← getD_bitsOf, hdata, hdata'] at hi
    exact hi rfl
  have hmsb : (0xEDB88320 : BitVec 32).msb = true := by decide
  rw [crc32_eq_feed, crc32_eq_feed, hdata, hdata']
  intro heq
  exact ShiftRegister.feed_ne_of_burst hmsb hchanged hle hdiff _ (BitVec.not_inj.mp heq)

/-! ### Changed frames -/

def FlipsBit (data data' : Bytes) (j : ℕ) : Prop :=
  j < 8 * data.length ∧ ∀ i, bitAt data' i ≠ bitAt data i ↔ i = j

/-- Some bits of topic and payload are changed, all within 32 consecutive ones. -/
def ChangesBurst (data data' : Bytes) : Prop :=
  ∃ start, 8 * Frame.kHeaderSize ≤ start ∧
    (∀ i, bitAt data' i ≠ bitAt data i → start ≤ i ∧ i < start + 32) ∧
    ∃ i, bitAt data' i ≠ bitAt data i

/-- The bytes of `flags`, `type_id`, `schema_hash`, `sequence`, `publisher_id` and
`send_time_ns`, which nothing checks. -/
def Unchecked (k : ℕ) : Prop :=
  k = kFlagsOffset ∨ (kTypeIdOffset ≤ k ∧ k < kCrcOffset)

theorem byte_eq_of_bits {data data' : Bytes} (hlength : data'.length = data.length) {k : ℕ}
    (h : ∀ i, i < 8 → bitAt data' (8 * k + i) = bitAt data (8 * k + i)) :
    data'[k]? = data[k]? := by
  by_cases hk : k < data.length
  · rw [List.getElem?_eq_getElem hk, List.getElem?_eq_getElem (hlength.symm ▸ hk)]
    congr 1
    apply BitVec.eq_of_getLsbD_eq
    intro i hi
    have hbit := h i hi
    have hdiv : (8 * k + i) / 8 = k := by omega
    have hmod : (8 * k + i) % 8 = i := by omega
    have hk' : k < data'.length := by omega
    simp only [bitAt, hdiv, hmod] at hbit
    simpa [List.getD_eq_getElem?_getD, hk, hk'] using hbit
  · rw [List.getElem?_eq_none (by omega), List.getElem?_eq_none (by omega)]

theorem FlipsBit.byte_eq {data data' : Bytes} {j k : ℕ} (h : FlipsBit data data' j)
    (hlength : data'.length = data.length) (hk : k ≠ j / 8) : data'[k]? = data[k]? := by
  apply byte_eq_of_bits hlength
  intro i hi
  by_contra hdiff
  have := (h.2 _).mp hdiff
  omega

theorem FlipsBit.byte_ne {data data' : Bytes} {j : ℕ} (h : FlipsBit data data' j) :
    data'[j / 8]? ≠ data[j / 8]? := by
  intro heq
  have hbit := (h.2 j).mpr rfl
  apply hbit
  rw [bitAt, bitAt, List.getD_eq_getElem?_getD, List.getD_eq_getElem?_getD, heq]

theorem slice_congr {data data' : Bytes} {offset n : ℕ}
    (h : ∀ k, offset ≤ k → k < offset + n → data'[k]? = data[k]?) :
    slice data' offset n = slice data offset n := by
  apply List.ext_getElem?
  intro i
  rw [slice, slice]
  by_cases hi : i < n
  · rw [List.getElem?_take_of_lt hi, List.getElem?_take_of_lt hi, List.getElem?_drop,
      List.getElem?_drop, h _ (by omega) (by omega)]
  · rw [List.getElem?_eq_none, List.getElem?_eq_none] <;> simp <;> omega

theorem byte_eq_of_slice {data data' : Bytes} {offset n k : ℕ}
    (h : slice data' offset n = slice data offset n) (hle : offset ≤ k) (hlt : k < offset + n) :
    data'[k]? = data[k]? := by
  have hbyte := congrArg (fun bytes : Bytes => bytes[k - offset]?) h
  simp only [slice] at hbyte
  rw [List.getElem?_take_of_lt (by omega), List.getElem?_take_of_lt (by omega),
    List.getElem?_drop, List.getElem?_drop] at hbyte
  rwa [Nat.add_sub_cancel' hle] at hbyte

theorem drop_congr (data : Bytes) {data' : Bytes} {offset : ℕ}
    (h : ∀ k, offset ≤ k → data'[k]? = data[k]?) : data'.drop offset = data.drop offset := by
  apply List.ext_getElem?
  intro i
  rw [List.getElem?_drop, List.getElem?_drop, h _ (by omega)]

theorem writeU16_injective {v v' : BitVec 16} (h : writeU16 v = writeU16 v') : v = v' := by
  rw [writeU16_eq_bytes, writeU16_eq_bytes] at h
  rw [← BigEndian.word_bytes (n := 2) rfl v, h, BigEndian.word_bytes rfl]

theorem writeU32_injective {v v' : BitVec 32} (h : writeU32 v = writeU32 v') : v = v' := by
  rw [writeU32_eq_bytes, writeU32_eq_bytes] at h
  rw [← BigEndian.word_bytes (n := 4) rfl v, h, BigEndian.word_bytes rfl]

section Decoding
variable {W : SizeT} {limits : FrameLimits W} {frame : Frame} {data : Bytes}

/-- Whatever stands in the unchecked bytes, the frame is accepted, with its topic and payload. -/
theorem decode_of_unchecked (hadmits : limits.Admits frame.topic.length frame.payload.length)
    (hlength : data.length = frame.wire.length)
    (h : ∀ k, ¬ Unchecked k → data[k]? = frame.wire[k]?) :
    ∃ other, decodeBuffer data limits = .ok other ∧ other.topic = frame.topic ∧
      other.payload = frame.payload := by
  have hsize : 56 ≤ data.length := by
    rw [hlength, frame.length_wire]
    exact Nat.le_add_right_of_le (Nat.le_add_right _ _)
  obtain ⟨hmagic, hversion, -, hheaderSize, htopic, hreserved, hpayload, -, -, -, -, -, hcrc,
    hbody⟩ := eq_wire_iff.mp (Eq.refl frame.wire)
  have hkept (offset n : ℕ)
      (hout : offset + n ≤ 5 ∨ (6 ≤ offset ∧ offset + n ≤ 16) ∨ 52 ≤ offset) :
      slice data offset n = slice frame.wire offset n := by
    apply slice_congr
    intro k hle hlt
    apply h
    simp only [Unchecked, kFlagsOffset, kTypeIdOffset, kCrcOffset]
    omega
  have hread {n w : ℕ} (hw : w = 8 * n) (offset : ℕ) (hle : offset + n ≤ 56) :
      slice data offset n = BigEndian.bytes n (BigEndian.word w (slice data offset n)) :=
    (BigEndian.bytes_word hw (length_slice (by omega))).symm
  let other : Frame := {
    flags := data.getD kFlagsOffset 0
    typeId := BigEndian.word 32 (slice data kTypeIdOffset 4)
    schemaHash := BigEndian.word 64 (slice data kSchemaHashOffset 8)
    sequence := BigEndian.word 64 (slice data kSequenceOffset 8)
    publisherId := BigEndian.word 64 (slice data kPublisherIdOffset 8)
    sendTimeNs := BigEndian.word 64 (slice data kSendTimeOffset 8)
    topic := frame.topic
    payload := frame.payload }
  have hwire : data = other.wire := by
    refine eq_wire_iff.mpr ⟨?_, ?_, ?_, ?_, ?_, ?_, ?_, ?_, ?_, ?_, ?_, ?_, ?_, ?_⟩
    · rw [hkept _ _ (by decide)]
      exact hmagic
    · rw [hkept _ _ (by decide)]
      exact hversion
    · have hlt : kFlagsOffset < data.length := lt_of_lt_of_le (by decide) hsize
      rw [slice_succ hlt, slice_zero]
      simp [other, hlt]
    · rw [hkept _ _ (by decide)]
      exact hheaderSize
    · rw [hkept _ _ (by decide)]
      exact htopic
    · rw [hkept _ _ (by decide)]
      exact hreserved
    · rw [hkept _ _ (by decide)]
      exact hpayload
    · rw [writeU32_eq_bytes]
      exact hread rfl kTypeIdOffset (by decide)
    · rw [writeU64_eq_bytes]
      exact hread rfl kSchemaHashOffset (by decide)
    · rw [writeU64_eq_bytes]
      exact hread rfl kSequenceOffset (by decide)
    · rw [writeU64_eq_bytes]
      exact hread rfl kPublisherIdOffset (by decide)
    · rw [writeU64_eq_bytes]
      exact hread rfl kSendTimeOffset (by decide)
    · rw [hkept _ _ (by decide)]
      exact hcrc
    · rw [drop_congr frame.wire, hbody]
      intro k hle
      apply h
      simp only [Unchecked, kFlagsOffset, kTypeIdOffset, kCrcOffset]
      simp only [Frame.kHeaderSize] at hle
      omega
  exact ⟨other, decodeBuffer_eq_ok_iff.mpr ⟨hadmits, hwire⟩, rfl, rfl⟩

/-- The decoder accepts no other encoding that differs in a checked byte of the header alone. -/
theorem header_byte_eq {other : Frame} {k : ℕ}
    (hadmits : limits.Admits frame.topic.length frame.payload.length)
    (hadmits' : limits.Admits other.topic.length other.payload.length)
    (hlength : other.wire.length = frame.wire.length)
    (hrest : ∀ i, i ≠ k → other.wire[i]? = frame.wire[i]?) (hk : k < Frame.kHeaderSize)
    (hchecked : ¬ Unchecked k) : other.wire[k]? = frame.wire[k]? := by
  obtain ⟨hmagic, hversion, -, hheaderSize, htopic, hreserved, hpayload, -, -, -, -, -, hcrc,
    hbody⟩ := eq_wire_iff.mp (Eq.refl frame.wire)
  obtain ⟨hmagic', hversion', -, hheaderSize', htopic', hreserved', hpayload', -, -, -, -, -,
    hcrc', hbody'⟩ := eq_wire_iff.mp (Eq.refl other.wire)
  have hkept (offset n : ℕ) (hout : k < offset ∨ offset + n ≤ k) :
      slice other.wire offset n = slice frame.wire offset n :=
    slice_congr fun i hle hlt => hrest i (by omega)
  rw [frame.length_wire, other.length_wire] at hlength
  have htopicWire := hadmits.topic_wire
  have htopicWire' := hadmits'.topic_wire
  have hpayloadWire := hadmits.payload_wire
  have hpayloadWire' := hadmits'.payload_wire
  simp only [Unchecked, kFlagsOffset, kTypeIdOffset, kCrcOffset, Frame.kHeaderSize] at hchecked hk
  have hcases : k < 4 ∨ (4 ≤ k ∧ k < 5) ∨ (6 ≤ k ∧ k < 8) ∨ (8 ≤ k ∧ k < 10) ∨
      (10 ≤ k ∧ k < 12) ∨ (12 ≤ k ∧ k < 16) ∨ (52 ≤ k ∧ k < 56) := by omega
  rcases hcases with hin | hin | hin | hin | hin | hin | hin
  · exact byte_eq_of_slice (hmagic'.trans hmagic.symm) (Nat.zero_le k) hin
  · exact byte_eq_of_slice (hversion'.trans hversion.symm) hin.1 hin.2
  · exact byte_eq_of_slice (hheaderSize'.trans hheaderSize.symm) hin.1 hin.2
  · -- the payload length is the same, so the topic length is, by the total length
    have hsize := hkept kPayloadSizeOffset 4 (.inl (by simp only [kPayloadSizeOffset]; omega))
    rw [hpayload, hpayload'] at hsize
    have hnat := congrArg BitVec.toNat (writeU32_injective hsize)
    simp only [BitVec.toNat_ofNat] at hnat
    have htopicLength : other.topic.length = frame.topic.length := by omega
    rw [htopicLength] at htopic'
    exact byte_eq_of_slice (htopic'.trans htopic.symm) hin.1 hin.2
  · exact byte_eq_of_slice (hreserved'.trans hreserved.symm) hin.1 hin.2
  · have hsize := hkept kTopicSizeOffset 2 (.inr (by simp only [kTopicSizeOffset]; omega))
    rw [htopic, htopic'] at hsize
    have hnat := congrArg BitVec.toNat (writeU16_injective hsize)
    simp only [BitVec.toNat_ofNat] at hnat
    have hpayloadLength : other.payload.length = frame.payload.length := by omega
    rw [hpayloadLength] at hpayload'
    exact byte_eq_of_slice (hpayload'.trans hpayload.symm) hin.1 hin.2
  · have hsame : other.wire.drop Frame.kHeaderSize = frame.wire.drop Frame.kHeaderSize :=
      drop_congr _ fun i hle => hrest i (by simp only [Frame.kHeaderSize] at hle; omega)
    rw [hbody, hbody'] at hsame
    rw [hsame] at hcrc'
    exact byte_eq_of_slice (hcrc'.trans hcrc.symm) hin.1 hin.2

/-- A burst in the body is found. -/
theorem not_decode_of_burst (hlength : data.length = frame.wire.length)
    (hburst : ChangesBurst frame.wire data) (other : Frame) :
    decodeBuffer data limits ≠ .ok other := by
  intro hdecode
  obtain ⟨-, rfl⟩ := decodeBuffer_eq_ok_iff.mp hdecode
  obtain ⟨start, hstart, hwithin, i, hi⟩ := hburst
  simp only [Frame.kHeaderSize] at hstart
  have hheader (k : ℕ) (hk : k < 56) : other.wire[k]? = frame.wire[k]? := by
    apply byte_eq_of_bits hlength
    intro m hm
    by_contra hdiff
    have := hwithin _ hdiff
    omega
  have hcrc := (eq_wire_iff.mp (Eq.refl frame.wire)).2.2.2.2.2.2.2.2.2.2.2.2
  have hcrc' := (eq_wire_iff.mp (Eq.refl other.wire)).2.2.2.2.2.2.2.2.2.2.2.2
  have hchecksum : slice other.wire kCrcOffset 4 = slice frame.wire kCrcOffset 4 :=
    slice_congr fun k hle hlt => hheader k (by simp only [kCrcOffset] at hlt; omega)
  rw [hcrc.1, hcrc'.1, ← hcrc.2, ← hcrc'.2] at hchecksum
  have hbit (bytes : Bytes) (m : ℕ) :
      bitAt (bytes.drop Frame.kHeaderSize) m = bitAt bytes (448 + m) := by
    have hdiv : (448 + m) / 8 = 56 + m / 8 := by omega
    have hmod : (448 + m) % 8 = m % 8 := by omega
    simp only [bitAt, hdiv, hmod, Frame.kHeaderSize, List.getD_eq_getElem?_getD,
      List.getElem?_drop]
  refine crc32_ne_of_burst (by simp [hlength]) (start - 448) ?_ ?_ (writeU32_injective hchecksum)
  · intro m hm
    rw [hbit, hbit] at hm
    have := hwithin _ hm
    omega
  · have := hwithin i hi
    refine ⟨i - 448, ?_⟩
    rw [hbit, hbit, Nat.add_sub_cancel' (by omega)]
    exact hi

/-- Corruption never yields a wrong topic or payload. -/
theorem corruption_never_misleads (limits : FrameLimits W) (frame : Frame) (encoded : Bytes)
    (hencode : encodeFrame frame limits = .ok encoded) (data : Bytes)
    (hlength : data.length = encoded.length) :
    (∀ j, FlipsBit encoded data j → ¬ Unchecked (j / 8) →
      ∃ what, decodeBuffer data limits = .error (.transportError what)) ∧
    (∀ j, FlipsBit encoded data j → Unchecked (j / 8) →
      ∃ other, decodeBuffer data limits = .ok other ∧ other.topic = frame.topic ∧
        other.payload = frame.payload) ∧
    (ChangesBurst encoded data →
      ∃ what, decodeBuffer data limits = .error (.transportError what)) := by
  obtain ⟨hadmits, rfl⟩ := encodeFrame_eq_ok_iff.mp hencode
  refine ⟨?_, ?_, ?_⟩
  · intro j hflip hchecked
    apply decodeBuffer_inBounds.throws
    intro other hdecode
    by_cases hbody : Frame.kHeaderSize ≤ j / 8
    · refine not_decode_of_burst hlength ⟨j, ?_, ?_, j, (hflip.2 j).mpr rfl⟩ other hdecode
      · simp only [Frame.kHeaderSize] at hbody ⊢
        omega
      · intro i hi
        have := (hflip.2 i).mp hi
        omega
    · obtain ⟨hadmits', rfl⟩ := decodeBuffer_eq_ok_iff.mp hdecode
      exact hflip.byte_ne (header_byte_eq hadmits hadmits' hlength
        (fun i hi => hflip.byte_eq hlength hi) (by omega) hchecked)
  · intro j hflip hunchecked
    apply decode_of_unchecked hadmits hlength
    intro k hk
    apply hflip.byte_eq hlength
    rintro rfl
    exact hk hunchecked
  · intro hburst
    exact decodeBuffer_inBounds.throws fun other => not_decode_of_burst hlength hburst other

/-- Seven bits of one payload byte are changed, and the frame is refused. -/
theorem corruption_never_misleads_burst :
    ∃ encoded, encodeFrame { topic := [97], payload := [1, 2] } ({} : FrameLimits .bits64) =
        .ok encoded ∧
      ∃ what, decodeBuffer (encoded.set 57 255) ({} : FrameLimits .bits64) =
        .error (.transportError what) := by
  have hencode : encodeFrame { topic := [97], payload := [1, 2] } ({} : FrameLimits .bits64) =
      .ok (Frame.wire { topic := [97], payload := [1, 2] }) :=
    encodeFrame_eq_ok_iff.mpr ⟨⟨by decide, by decide, by decide, by decide, by decide⟩, rfl⟩
  refine ⟨_, hencode, (corruption_never_misleads _ _ _ hencode _ (by simp)).2.2
    ⟨456, by decide, ?_, 457, by decide +kernel⟩⟩
  intro i hi
  by_contra hout
  have hbyte : 57 ≠ i / 8 := by omega
  apply hi
  rw [bitAt, bitAt, List.getD_eq_getElem?_getD, List.getElem?_set_ne hbyte,
    List.getD_eq_getElem?_getD]

end Decoding

end RobotMiddleware
