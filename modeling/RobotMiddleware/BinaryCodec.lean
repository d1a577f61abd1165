import RobotMiddleware.BigEndian
import RobotMiddleware.FrameModel

/-! `BinaryWriter` and `BinaryReader` of `serialization/binary_codec.hpp`. A reader keeps its
state when a read throws, so a read is a function on readers that returns its result, or
what it throws, beside the reader it leaves. -/
namespace RobotMiddleware

/-- How a call of the codec fails: a `SerializationError`, or an access outside the bytes it
was given, which the source rules out. -/
inductive CodecFault
  | serializationError (what : String)
  | outOfBounds (index : ℕ)
  deriving DecidableEq, Repr

/-- A `double`. The codec copies its bits with `memcpy` and never computes with it. -/
structure Double where
  bits : BitVec 64 := 0
  deriving DecidableEq, Repr

structure BinaryWriter where
  buffer : Bytes := []

namespace BinaryWriter

def writeU8 (writer : BinaryWriter) (value : BitVec 8) : BinaryWriter :=
  { writer with buffer := writer.buffer ++ [value] }

/-- The template over unsigned integers of `n` bytes. -/
def writeUnsigned (n : ℕ) (writer : BinaryWriter) (value : BitVec (8 * n)) : BinaryWriter :=
  (List.range n).foldl (fun writer i =>
    let shift := (n - 1 - i) * 8
    writer.writeU8 (((value >>> shift) &&& 0xff).setWidth 8)) writer

def writeU16 (writer : BinaryWriter) (value : BitVec 16) : BinaryWriter :=
  writer.writeUnsigned 2 value

def writeU32 (writer : BinaryWriter) (value : BitVec 32) : BinaryWriter :=
  writer.writeUnsigned 4 value

def writeU64 (writer : BinaryWriter) (value : BitVec 64) : BinaryWriter :=
  writer.writeUnsigned 8 value

def writeDouble (writer : BinaryWriter) (value : Double) : BinaryWriter :=
  writer.writeU64 value.bits

def writeBytes (writer : BinaryWriter) (data : BytePointer) (size : ℕ) :
    Except CodecFault BinaryWriter :=
  if size = 0 then .ok writer
  else
    match data with
    | none => .error (.serializationError "cannot write bytes from a null pointer")
    | some block =>
      if block.length < size then .error (.outOfBounds block.length)
      else .ok { writer with buffer := writer.buffer ++ block.take size }

def takeBuffer (writer : BinaryWriter) : Bytes :=
  writer.buffer

end BinaryWriter

/-- `data_[0, size_)` are the bytes that may be read. -/
structure BinaryReader where
  data : BytePointer
  size : ℕ
  offset : ℕ := 0

def Reading (α : Type) : Type :=
  BinaryReader → Except CodecFault α × BinaryReader

/-- An exception skips what follows and leaves the reader as it is. -/
instance : Monad Reading where
  pure a r := (.ok a, r)
  bind m f r :=
    match m r with
    | (.ok a, r') => f a r'
    | (.error e, r') => (.error e, r')

namespace BinaryReader

/-- Both constructors: a `ByteBuffer` passes its `data()` and `size()`. -/
def create (data : BytePointer) (size : ℕ) : Except CodecFault BinaryReader :=
  if size ≠ 0 ∧ data = none then
    .error (.serializationError "cannot read bytes from a null pointer")
  else .ok { data, size }

def remaining (r : BinaryReader) : ℕ :=
  r.size - r.offset

def empty (r : BinaryReader) : Bool :=
  r.remaining = 0

def requireConsumed : Reading Unit := fun r =>
  if !r.empty then
    (.error (.serializationError "message payload contains trailing bytes"), r)
  else (.ok (), r)

def require (count : ℕ) : Reading Unit := fun r =>
  if r.size - r.offset < count then
    (.error (.serializationError ("truncated message payload at byte " ++ toString r.offset)), r)
  else (.ok (), r)

/-- `data_[index]`. -/
def byteAt (r : BinaryReader) (index : ℕ) : Except CodecFault Byte :=
  if index < r.size then
    match r.data.bind (·[index]?) with
    | some b => .ok b
    | none => .error (.outOfBounds index)
  else .error (.outOfBounds index)

/-- `data_[offset_++]`. -/
def next : Reading Byte := fun r =>
  (r.byteAt r.offset, { r with offset := r.offset + 1 })

def readU8 : Reading (BitVec 8) := do
  require 1
  next

def readUnsigned (n : ℕ) : Reading (BitVec (8 * n)) := do
  require n
  (List.range n).foldlM (fun value _ => do
    let b ← next
    return (value <<< 8) ||| b.setWidth (8 * n)) 0

def readU16 : Reading (BitVec 16) := readUnsigned 2

def readU32 : Reading (BitVec 32) := readUnsigned 4

def readU64 : Reading (BitVec 64) := readUnsigned 8

def readDouble : Reading Double := do
  let bits ← readU64
  return ⟨bits⟩

/-- The copy of `[data_ + offset_, data_ + offset_ + count)`. -/
def copy (count : ℕ) : Reading Bytes := fun r =>
  ((List.range' r.offset count).mapM r.byteAt, { r with offset := r.offset + count })

def readBytes (count : ℕ) : Reading Bytes := do
  if count = 0 then return []
  require count
  copy count

end BinaryReader

/-! A schema is a list of typed fields, written and read one after the other. -/

inductive Field
  | u8 (value : BitVec 8)
  | u16 (value : BitVec 16)
  | u32 (value : BitVec 32)
  | u64 (value : BitVec 64)
  | double (value : Double)
  | bytes (data : Bytes)
  deriving DecidableEq, Repr

inductive FieldType
  | u8
  | u16
  | u32
  | u64
  | double
  | bytes (count : ℕ)
  deriving DecidableEq, Repr

def Field.type : Field → FieldType
  | .u8 _ => .u8
  | .u16 _ => .u16
  | .u32 _ => .u32
  | .u64 _ => .u64
  | .double _ => .double
  | .bytes data => .bytes data.length

def BinaryWriter.write (writer : BinaryWriter) : Field → Except CodecFault BinaryWriter
  | .u8 value => .ok (writer.writeU8 value)
  | .u16 value => .ok (writer.writeU16 value)
  | .u32 value => .ok (writer.writeU32 value)
  | .u64 value => .ok (writer.writeU64 value)
  | .double value => .ok (writer.writeDouble value)
  | .bytes data => writer.writeBytes (some data) data.length

def BinaryWriter.writeAll (writer : BinaryWriter) (fields : List Field) :
    Except CodecFault BinaryWriter :=
  fields.foldlM write writer

namespace BinaryReader

def read : FieldType → Reading Field
  | .u8 => return .u8 (← readU8)
  | .u16 => return .u16 (← readU16)
  | .u32 => return .u32 (← readU32)
  | .u64 => return .u64 (← readU64)
  | .double => return .double (← readDouble)
  | .bytes count => return .bytes (← readBytes count)

def readAll (types : List FieldType) : Reading (List Field) :=
  types.mapM read

/-- The reader after calls whose exceptions the caller swallows. -/
def after (r : BinaryReader) (types : List FieldType) : BinaryReader :=
  types.foldl (fun r type => (read type r).2) r

end BinaryReader
end RobotMiddleware
