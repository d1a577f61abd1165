import Mathlib.Tactic

/-! Version 1 of the wire format: `frame.hpp` and `frame.cpp`. Sizes are natural numbers
and every `std::size_t` addition is reduced modulo the width of `size_t`; integers of a
fixed width are bit vectors. -/
namespace RobotMiddleware

abbrev Byte := BitVec 8

/-- `std::string` and `ByteBuffer` alike: both are the bytes they hold. -/
abbrev Bytes := List Byte

instance : LawfulBEq Bytes := inferInstanceAs (LawfulBEq (List Byte))

/-- A `const std::uint8_t*`: null, or the start of the bytes that may be read. -/
abbrev BytePointer := Option Bytes

/-- The two widths of `std::size_t` that the targets have. -/
inductive SizeT
  | bits32
  | bits64
  deriving DecidableEq, Repr

namespace SizeT

def width : SizeT → ℕ
  | bits32 => 32
  | bits64 => 64

/-- `std::numeric_limits<std::size_t>::max()`. -/
def max (W : SizeT) : ℕ :=
  2 ^ W.width - 1

end SizeT

/-- How a call on bytes fails: a `TransportError`, or a read past the end, which the
source rules out and C++ leaves undefined. -/
inductive Fault
  | transportError (what : String)
  | outOfBounds (index : ℕ)
  deriving DecidableEq, Repr

def throwIf (p : Prop) [Decidable p] (what : String) : Except Fault Unit :=
  if p then .error (.transportError what) else .ok ()

structure FrameLimits (W : SizeT) where
  maxTopicSize : BitVec W.width := 65535
  maxPayloadSize : BitVec W.width := 16777216
  maxFrameSize : BitVec W.width := 16842807
  deriving DecidableEq

structure Frame where
  flags : BitVec 8 := 0
  typeId : BitVec 32 := 0
  schemaHash : BitVec 64 := 0
  sequence : BitVec 64 := 0
  publisherId : BitVec 64 := 0
  sendTimeNs : BitVec 64 := 0
  topic : Bytes := []
  payload : Bytes := []
  deriving DecidableEq, Repr

namespace Frame

/-- "RMWL" -/
def kMagic : BitVec 32 := 0x524D574C
def kVersion : BitVec 8 := 1
def kHeaderSize : ℕ := 56

end Frame

/-! Byte offsets of the header fields. -/

def kMagicOffset : ℕ := 0
def kVersionOffset : ℕ := 4
def kFlagsOffset : ℕ := 5
def kHeaderSizeOffset : ℕ := 6
def kTopicSizeOffset : ℕ := 8
def kReservedOffset : ℕ := 10
def kPayloadSizeOffset : ℕ := 12
def kTypeIdOffset : ℕ := 16
def kSchemaHashOffset : ℕ := 20
def kSequenceOffset : ℕ := 28
def kPublisherIdOffset : ℕ := 36
def kSendTimeOffset : ℕ := 44
def kCrcOffset : ℕ := 52

def requirePointer (data : BytePointer) (size : ℕ) : Except Fault Unit :=
  throwIf (data = none ∧ size ≠ 0) "frame data pointer is null"

def writeU16 (value : BitVec 16) : Bytes :=
  [((value >>> 8) &&& 0xFF).setWidth 8, (value &&& 0xFF).setWidth 8]

def writeU32 (value : BitVec 32) : Bytes :=
  [((value >>> 24) &&& 0xFF).setWidth 8, ((value >>> 16) &&& 0xFF).setWidth 8,
    ((value >>> 8) &&& 0xFF).setWidth 8, (value &&& 0xFF).setWidth 8]

def writeU64 (value : BitVec 64) : Bytes :=
  (List.range 8).map fun i =>
    let shift := (7 - i) * 8
    ((value >>> shift) &&& 0xFF).setWidth 8

def writeAt (buffer : Bytes) (offset : ℕ) (bytes : Bytes) : Bytes :=
  buffer.take offset ++ bytes ++ buffer.drop (offset + bytes.length)

def byteAt (data : BytePointer) (index : ℕ) : Except Fault Byte :=
  match data.bind (·[index]?) with
  | some b => .ok b
  | none => .error (.outOfBounds index)

def readU16 (data : BytePointer) (offset : ℕ) : Except Fault (BitVec 16) := do
  let b0 ← byteAt data offset
  let b1 ← byteAt data (offset + 1)
  return (b0.setWidth 16 <<< 8) ||| b1.setWidth 16

def readU32 (data : BytePointer) (offset : ℕ) : Except Fault (BitVec 32) := do
  let b0 ← byteAt data offset
  let b1 ← byteAt data (offset + 1)
  let b2 ← byteAt data (offset + 2)
  let b3 ← byteAt data (offset + 3)
  return (b0.setWidth 32 <<< 24) ||| (b1.setWidth 32 <<< 16) ||| (b2.setWidth 32 <<< 8) |||
    b3.setWidth 32

def readU64 (data : BytePointer) (offset : ℕ) : Except Fault (BitVec 64) :=
  (List.range 8).foldlM (fun result i => do
    let b ← byteAt data (offset + i)
    return (result <<< 8) ||| b.setWidth 64) 0

/-- The bytes of `[first, last)`. -/
def readRange (data : BytePointer) (first last : ℕ) : Except Fault Bytes :=
  (List.range' first (last - first)).mapM (byteAt data)

/-- One turn of the bit loop of `crc32`. -/
def crcBit (crc : BitVec 32) : BitVec 32 :=
  let mask := 0 - (crc &&& 1)
  (crc >>> 1) ^^^ (0xEDB88320 &&& mask)

def crcByte (crc : BitVec 32) (b : Byte) : BitVec 32 :=
  (List.range 8).foldl (fun crc _ => crcBit crc) (crc ^^^ b.setWidth 32)

def crc32 (data : Bytes) : BitVec 32 :=
  ~~~ data.foldl crcByte 0xFFFFFFFF

section Codec
variable {W : SizeT}

/-- Limits first, then the two tests that keep the sum below from wrapping around. -/
def checkedFrameSize (topicSize payloadSize : ℕ) (limits : FrameLimits W) :
    Except Fault ℕ := do
  throwIf (65535 < topicSize) "topic is too large for the wire format"
  throwIf (4294967295 < payloadSize) "payload is too large for the wire format"
  throwIf (limits.maxTopicSize.toNat < topicSize) "topic exceeds configured size limit"
  throwIf (limits.maxPayloadSize.toNat < payloadSize) "payload exceeds configured size limit"
  throwIf (W.max - Frame.kHeaderSize < topicSize ∨
      W.max - Frame.kHeaderSize - topicSize < payloadSize)
    "declared frame size overflows size_t"
  let totalSize := (Frame.kHeaderSize + topicSize + payloadSize) % 2 ^ W.width
  throwIf (limits.maxFrameSize.toNat < totalSize) "frame exceeds configured size limit"
  return totalSize

def frameSizeFromHeader (data : BytePointer) (size : ℕ) (limits : FrameLimits W) :
    Except Fault ℕ := do
  requirePointer data size
  throwIf (size < Frame.kHeaderSize) "truncated frame header"
  let magic ← readU32 data kMagicOffset
  throwIf (magic ≠ Frame.kMagic) "invalid frame magic"
  let version ← byteAt data kVersionOffset
  throwIf (version ≠ Frame.kVersion) "unsupported frame version"
  let headerSize ← readU16 data kHeaderSizeOffset
  throwIf (headerSize ≠ BitVec.ofNat 16 Frame.kHeaderSize) "invalid frame header size"
  let reserved ← readU16 data kReservedOffset
  throwIf (reserved ≠ 0) "reserved frame header field must be zero"
  let topicSize ← readU16 data kTopicSizeOffset
  let payloadSize ← readU32 data kPayloadSizeOffset
  checkedFrameSize topicSize.toNat payloadSize.toNat limits

/-- The header is written in the order of its fields, the checksum last, over the body
that is then in place. -/
def encodeFrame (frame : Frame) (limits : FrameLimits W) : Except Fault Bytes := do
  let totalSize ← checkedFrameSize frame.topic.length frame.payload.length limits
  let encoded : Bytes := List.replicate totalSize 0
  let encoded := writeAt encoded kMagicOffset (writeU32 Frame.kMagic)
  let encoded := writeAt encoded kVersionOffset [Frame.kVersion]
  let encoded := writeAt encoded kFlagsOffset [frame.flags]
  let encoded := writeAt encoded kHeaderSizeOffset
    (writeU16 (BitVec.ofNat 16 Frame.kHeaderSize))
  let encoded := writeAt encoded kTopicSizeOffset
    (writeU16 (BitVec.ofNat 16 frame.topic.length))
  let encoded := writeAt encoded kReservedOffset (writeU16 0)
  let encoded := writeAt encoded kPayloadSizeOffset
    (writeU32 (BitVec.ofNat 32 frame.payload.length))
  let encoded := writeAt encoded kTypeIdOffset (writeU32 frame.typeId)
  let encoded := writeAt encoded kSchemaHashOffset (writeU64 frame.schemaHash)
  let encoded := writeAt encoded kSequenceOffset (writeU64 frame.sequence)
  let encoded := writeAt encoded kPublisherIdOffset (writeU64 frame.publisherId)
  let encoded := writeAt encoded kSendTimeOffset (writeU64 frame.sendTimeNs)
  let body := Frame.kHeaderSize
  let encoded := writeAt encoded body frame.topic
  let body := body + frame.topic.length
  let encoded := writeAt encoded body frame.payload
  let checksum := crc32 (encoded.drop Frame.kHeaderSize)
  return writeAt encoded kCrcOffset (writeU32 checksum)

/-- The overload over a pointer and a size. -/
def decodeFrame (data : BytePointer) (size : ℕ) (limits : FrameLimits W) :
    Except Fault Frame := do
  requirePointer data size
  let declaredSize ← frameSizeFromHeader data size limits
  throwIf (size ≠ declaredSize) ("frame length mismatch: declared " ++ toString declaredSize ++
    " bytes, received " ++ toString size)
  let expectedCrc ← readU32 data kCrcOffset
  let body ← readRange data Frame.kHeaderSize size
  let actualCrc := crc32 body
  throwIf (actualCrc ≠ expectedCrc) "frame CRC32 mismatch"
  let topicSize ← readU16 data kTopicSizeOffset
  let payloadSize ← readU32 data kPayloadSizeOffset
  let topicBegin := Frame.kHeaderSize
  let payloadBegin := topicBegin + topicSize.toNat
  let flags ← byteAt data kFlagsOffset
  let typeId ← readU32 data kTypeIdOffset
  let schemaHash ← readU64 data kSchemaHashOffset
  let sequence ← readU64 data kSequenceOffset
  let publisherId ← readU64 data kPublisherIdOffset
  let sendTimeNs ← readU64 data kSendTimeOffset
  let topic ← readRange data topicBegin payloadBegin
  let payload ← readRange data payloadBegin (payloadBegin + payloadSize.toNat)
  return { flags, typeId, schemaHash, sequence, publisherId, sendTimeNs, topic, payload }

def decodeBuffer (data : Bytes) (limits : FrameLimits W) : Except Fault Frame :=
  decodeFrame (some data) data.length limits

end Codec
end RobotMiddleware
