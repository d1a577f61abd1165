import RobotMiddleware.BinaryCodecRoundTrip
import RobotMiddleware.BridgedRuntime

/-! The built-in messages of `core/message.hpp`, their codecs and their frames. A codec that
follows a schema inherits both directions of the round trip from the codec of fields. -/
namespace RobotMiddleware
open BinaryReader (readDouble readAll)

structure ImuMsg where
  timestampNs : BitVec 64 := 0
  yaw : Double := {}
  gyroZ : Double := {}
  deriving DecidableEq, Repr

structure PoseMsg where
  timestampNs : BitVec 64 := 0
  x : Double := {}
  y : Double := {}
  z : Double := {}
  qx : Double := {}
  qy : Double := {}
  qz : Double := {}
  /-- 1.0 -/
  qw : Double := ⟨0x3FF0000000000000⟩
  deriving DecidableEq, Repr

structure ControlMsg where
  timestampNs : BitVec 64 := 0
  linearX : Double := {}
  linearY : Double := {}
  angularZ : Double := {}
  deriving DecidableEq, Repr

structure MessageCodec (M : Type) where
  encode : M → Bytes
  decode : Reading M

namespace ImuMsg

def encode (message : ImuMsg) : Bytes :=
  let writer : BinaryWriter := {}
  let writer := writer.writeU64 message.timestampNs
  let writer := writer.writeDouble message.yaw
  let writer := writer.writeDouble message.gyroZ
  writer.takeBuffer

def decode : Reading ImuMsg := do
  let timestampNs ← BinaryReader.readU64
  let yaw ← readDouble
  let gyroZ ← readDouble
  return { timestampNs, yaw, gyroZ }

def codec : MessageCodec ImuMsg :=
  { encode, decode }

end ImuMsg

namespace PoseMsg

def encode (message : PoseMsg) : Bytes :=
  let writer : BinaryWriter := {}
  let writer := writer.writeU64 message.timestampNs
  let writer := writer.writeDouble message.x
  let writer := writer.writeDouble message.y
  let writer := writer.writeDouble message.z
  let writer := writer.writeDouble message.qx
  let writer := writer.writeDouble message.qy
  let writer := writer.writeDouble message.qz
  let writer := writer.writeDouble message.qw
  writer.takeBuffer

def decode : Reading PoseMsg := do
  let timestampNs ← BinaryReader.readU64
  let x ← readDouble
  let y ← readDouble
  let z ← readDouble
  let qx ← readDouble
  let qy ← readDouble
  let qz ← readDouble
  let qw ← readDouble
  return { timestampNs, x, y, z, qx, qy, qz, qw }

def codec : MessageCodec PoseMsg :=
  { encode, decode }

end PoseMsg

namespace ControlMsg

def encode (message : ControlMsg) : Bytes :=
  let writer : BinaryWriter := {}
  let writer := writer.writeU64 message.timestampNs
  let writer := writer.writeDouble message.linearX
  let writer := writer.writeDouble message.linearY
  let writer := writer.writeDouble message.angularZ
  writer.takeBuffer

def decode : Reading ControlMsg := do
  let timestampNs ← BinaryReader.readU64
  let linearX ← readDouble
  let linearY ← readDouble
  let angularZ ← readDouble
  return { timestampNs, linearX, linearY, angularZ }

def codec : MessageCodec ControlMsg :=
  { encode, decode }

end ControlMsg

namespace MessageCodec
variable {M : Type} (codec : MessageCodec M)

def serialize (message : M) : Bytes :=
  codec.encode message

def deserialize (data : BytePointer) (size : ℕ) : Except CodecFault M := do
  let reader ← BinaryReader.create data size
  let decode : Reading M := do
    let message ← codec.decode
    BinaryReader.requireConsumed
    return message
  (decode reader).1

end MessageCodec

inductive BuiltinType
  | imu
  | pose
  | control
  deriving DecidableEq, Repr

namespace BuiltinType

abbrev Message : BuiltinType → Type
  | imu => ImuMsg
  | pose => PoseMsg
  | control => ControlMsg

def codec : (τ : BuiltinType) → MessageCodec τ.Message
  | imu => ImuMsg.codec
  | pose => PoseMsg.codec
  | control => ControlMsg.codec

def typeId : BuiltinType → BitVec 32
  | imu => 0x00010001
  | pose => 0x00010002
  | control => 0x00010003

def schema : BuiltinType → String
  | imu => "uint64 timestamp_ns;float64 yaw;float64 gyro_z"
  | pose => "uint64 timestamp_ns;float64 x;float64 y;float64 z;float64 qx;" ++
      "float64 qy;float64 qz;float64 qw"
  | control => "uint64 timestamp_ns;float64 linear_x;float64 linear_y;float64 angular_z"

end BuiltinType

/-- `detail::fnv1a_64`, on texts in ASCII. -/
def fnv1a64 (text : String) : BitVec 64 :=
  text.toList.foldl (fun hash ch =>
    (hash ^^^ BitVec.ofNat 64 (ch.toNat % 256)) * 1099511628211) 14695981039346656037

def CodecFault.what : CodecFault → String
  | .serializationError what => what
  | .outOfBounds index => "out of bounds: " ++ toString index

def builtinTraits : NetworkTraits BuiltinType.Message where
  typeId := BuiltinType.typeId
  schemaHash τ := fnv1a64 τ.schema
  serialize τ message := .ok (τ.codec.serialize message)
  deserialize τ payload := (τ.codec.deserialize (some payload) payload.length).mapError
    CodecFault.what

/-! Codecs that follow a schema. -/

/-- The fields that a codec writes and reads, in order. -/
structure MessageSchema {M : Type} (codec : MessageCodec M) where
  types : List FieldType
  fields : M → List Field
  build : List Field → M
  map_type_fields : ∀ m, (fields m).map Field.type = types
  build_fields : ∀ m, build (fields m) = m
  fields_build : ∀ values, values.map Field.type = types → fields (build values) = values
  encode_eq : ∀ m, codec.encode m = wireOf (fields m)
  decode_eq : codec.decode = build <$> readAll types

namespace MessageSchema
variable {M : Type} {codec : MessageCodec M} (schema : MessageSchema codec)

theorem deserialize_eq {data : BytePointer} {p : Bytes} (hdata : data.getD [] = p)
    (h : p.length = totalLength schema.types) :
    codec.deserialize data p.length = .ok (schema.build (parseAll schema.types p)) := by
  have hsize : p.length ≤ (data.getD []).length := by rw [hdata]
  obtain ⟨hcreate, hformed⟩ := BinaryReader.create_of_le hsize
  have hle : 0 + totalLength schema.types ≤ p.length := by rw [h, Nat.zero_add]
  have hread := BinaryReader.readAll_of_le hformed hle
  have hslice : slice (data.getD []) 0 (totalLength schema.types) = p := by
    rw [hdata, ← h, slice, List.drop_zero, List.take_length]
  have hdecode : codec.decode { data, size := p.length } =
      (.ok (schema.build (parseAll schema.types p)),
        BinaryReader.advance { data, size := p.length } (totalLength schema.types)) := by
    rw [schema.decode_eq]
    refine Reading.bind_ok (hread.trans ?_)
    show (Except.ok (parseAll _ (slice (data.getD []) 0 _)), _) = _
    rw [hslice]
  have hend : 0 + totalLength schema.types = p.length := by rw [h, Nat.zero_add]
  rw [MessageCodec.deserialize, hcreate]
  show (_ : Except CodecFault M × BinaryReader).1 = _
  rw [Reading.bind_ok hdecode, Reading.bind_ok (BinaryReader.requireConsumed_of_eq hend)]
  rfl

/-- A payload of any other length is refused, by a read or at the end. -/
theorem deserialize_error {data : BytePointer} {p : Bytes} (hdata : data.getD [] = p)
    (h : p.length ≠ totalLength schema.types) :
    ∃ what, codec.deserialize data p.length = .error (.serializationError what) := by
  have hsize : p.length ≤ (data.getD []).length := by rw [hdata]
  obtain ⟨hcreate, hformed⟩ := BinaryReader.create_of_le hsize
  rw [MessageCodec.deserialize, hcreate]
  show ∃ what, (_ : Except CodecFault M × BinaryReader).1 = _
  rcases Nat.lt_or_gt_of_ne h with hshort | hlong
  · have hlt : p.length < 0 + totalLength schema.types := hshort.trans_eq (Nat.zero_add _).symm
    obtain ⟨_, _, _, _, _, what, _, _, _, hall⟩ := BinaryReader.readAll_of_lt hformed hlt
    refine ⟨what, ?_⟩
    have hdecode := Reading.bind_error (f := fun values => pure (schema.build values)) hall
    rw [Reading.bind_error ((congrFun schema.decode_eq _).trans hdecode)]
  · have hle : 0 + totalLength schema.types ≤ p.length := (Nat.zero_add _).trans_le hlong.le
    have hread := BinaryReader.readAll_of_le hformed hle
    have hdecode := Reading.bind_ok (f := fun values => pure (schema.build values)) hread
    have htrailing : 0 + totalLength schema.types < p.length := by rwa [Nat.zero_add]
    refine ⟨"message payload contains trailing bytes", ?_⟩
    rw [Reading.bind_ok ((congrFun schema.decode_eq _).trans hdecode),
      Reading.bind_error (BinaryReader.requireConsumed_of_lt htrailing)]

theorem length_encode (m : M) : (codec.encode m).length = totalLength schema.types := by
  rw [schema.encode_eq, length_wireOf, schema.map_type_fields]

theorem deserialize_serialize (schema : MessageSchema codec) (m : M) :
    codec.deserialize (some (codec.serialize m)) (codec.serialize m).length = .ok m := by
  have hlength : (codec.serialize m).length = totalLength schema.types := schema.length_encode m
  have hparse : parseAll schema.types (codec.serialize m) = schema.fields m := by
    rw [MessageCodec.serialize, schema.encode_eq, ← schema.map_type_fields m, parseAll_wireOf]
  rw [schema.deserialize_eq (p := codec.serialize m) rfl hlength, hparse, schema.build_fields]

/-- The length is all that `deserialize` asks for, and nothing of the payload is lost. -/
theorem deserialize_iff (p : Bytes) :
    ((∃ m, codec.deserialize (some p) p.length = .ok m) ↔
      p.length = totalLength schema.types) ∧
    ∀ m, codec.deserialize (some p) p.length = .ok m → codec.serialize m = p := by
  by_cases h : p.length = totalLength schema.types
  · have hok := schema.deserialize_eq (p := p) (Option.getD_some (a := p)) h
    refine ⟨⟨fun _ => h, fun _ => ⟨_, hok⟩⟩, ?_⟩
    intro m hm
    obtain rfl := Except.ok.inj (hok.symm.trans hm)
    rw [MessageCodec.serialize, schema.encode_eq, schema.fields_build _ (map_type_parseAll h),
      wireOf_parseAll h]
  · obtain ⟨what, herror⟩ := schema.deserialize_error (p := p) (Option.getD_some (a := p)) h
    have hnone (m : M) : codec.deserialize (some p) p.length ≠ .ok m := by
      rw [herror]
      exact nofun
    exact ⟨⟨fun ⟨m, hm⟩ => absurd hm (hnone m), fun hlength => absurd hlength h⟩,
      fun m hm => absurd hm (hnone m)⟩

end MessageSchema

/-! The three schemas. -/

/-- Every built-in message is a time stamp and some doubles. -/
theorem fields_eq_of_types {k : ℕ} {values : List Field}
    (h : values.map Field.type = .u64 :: List.replicate k .double) :
    ∃ (timestamp : BitVec 64) (doubles : List Double), doubles.length = k ∧
      values = .u64 timestamp :: doubles.map Field.double := by
  obtain ⟨first, rest, rfl, hfirst, hrest⟩ := List.map_eq_cons_iff.mp h
  obtain ⟨timestamp, rfl⟩ : ∃ timestamp, first = .u64 timestamp := by
    cases first <;> first | exact ⟨_, rfl⟩ | cases hfirst
  refine ⟨timestamp, ?_⟩
  clear h hfirst
  induction k generalizing rest with
  | zero => exact ⟨[], rfl, by rw [List.map_eq_nil_iff.mp hrest]; rfl⟩
  | succ k ih =>
    obtain ⟨second, tail, rfl, hsecond, htypes⟩ := List.map_eq_cons_iff.mp hrest
    obtain ⟨value, rfl⟩ : ∃ value, second = .double value := by
      cases second <;> first | exact ⟨_, rfl⟩ | cases hsecond
    obtain ⟨doubles, hlength, htail⟩ := ih tail htypes
    refine ⟨value :: doubles, by rw [List.length_cons, hlength], ?_⟩
    rw [(List.cons.inj htail).2]
    rfl

theorem writeU64_eq (writer : BinaryWriter) (value : BitVec 64) :
    writer.writeU64 value = ⟨writer.buffer ++ (Field.u64 value).wire⟩ :=
  writer.writeUnsigned_eq 8 value

theorem writeDouble_eq (writer : BinaryWriter) (value : Double) :
    writer.writeDouble value = ⟨writer.buffer ++ (Field.double value).wire⟩ :=
  writer.writeUnsigned_eq 8 value.bits

def ImuMsg.schema : MessageSchema ImuMsg.codec where
  types := .u64 :: List.replicate 2 .double
  fields m := [.u64 m.timestampNs, .double m.yaw, .double m.gyroZ]
  build
    | [.u64 timestampNs, .double yaw, .double gyroZ] => { timestampNs, yaw, gyroZ }
    | _ => {}
  map_type_fields _ := rfl
  build_fields _ := rfl
  fields_build values h := by
    obtain ⟨timestamp, doubles, hlength, rfl⟩ := fields_eq_of_types h
    obtain ⟨yaw, gyroZ, rfl⟩ := List.length_eq_two.mp hlength
    rfl
  encode_eq m := by
    simp [codec, encode, writeU64_eq, writeDouble_eq, BinaryWriter.takeBuffer, wireOf]
  decode_eq := by
    simp [codec, decode, readAll, BinaryReader.read, List.replicate]

def PoseMsg.schema : MessageSchema PoseMsg.codec where
  types := .u64 :: List.replicate 7 .double
  fields m := [.u64 m.timestampNs, .double m.x, .double m.y, .double m.z, .double m.qx,
    .double m.qy, .double m.qz, .double m.qw]
  build
    | [.u64 timestampNs, .double x, .double y, .double z, .double qx, .double qy, .double qz,
        .double qw] => { timestampNs, x, y, z, qx, qy, qz, qw }
    | _ => {}
  map_type_fields _ := rfl
  build_fields _ := rfl
  fields_build values h := by
    obtain ⟨timestamp, doubles, hlength, rfl⟩ := fields_eq_of_types h
    obtain ⟨x, y, z, qx, qy, qz, qw, rfl⟩ : ∃ x y z qx qy qz qw,
        doubles = [x, y, z, qx, qy, qz, qw] := by
      match doubles, hlength with
      | [x, y, z, qx, qy, qz, qw], _ => exact ⟨x, y, z, qx, qy, qz, qw, rfl⟩
    rfl
  encode_eq m := by
    simp [codec, encode, writeU64_eq, writeDouble_eq, BinaryWriter.takeBuffer, wireOf]
  decode_eq := by
    simp [codec, decode, readAll, BinaryReader.read, List.replicate]

def ControlMsg.schema : MessageSchema ControlMsg.codec where
  types := .u64 :: List.replicate 3 .double
  fields m := [.u64 m.timestampNs, .double m.linearX, .double m.linearY, .double m.angularZ]
  build
    | [.u64 timestampNs, .double linearX, .double linearY, .double angularZ] =>
      { timestampNs, linearX, linearY, angularZ }
    | _ => {}
  map_type_fields _ := rfl
  build_fields _ := rfl
  fields_build values h := by
    obtain ⟨timestamp, doubles, hlength, rfl⟩ := fields_eq_of_types h
    obtain ⟨linearX, linearY, angularZ, rfl⟩ := List.length_eq_three.mp hlength
    rfl
  encode_eq m := by
    simp [codec, encode, writeU64_eq, writeDouble_eq, BinaryWriter.takeBuffer, wireOf]
  decode_eq := by
    simp [codec, decode, readAll, BinaryReader.read, List.replicate]

namespace BuiltinType

def messageSchema : (τ : BuiltinType) → MessageSchema τ.codec
  | imu => ImuMsg.schema
  | pose => PoseMsg.schema
  | control => ControlMsg.schema

def wireLength : BuiltinType → ℕ
  | imu => 24
  | pose => 64
  | control => 32

theorem totalLength_types (τ : BuiltinType) : totalLength τ.messageSchema.types = τ.wireLength := by
  cases τ <;> rfl

theorem wireLength_le (τ : BuiltinType) : τ.wireLength ≤ 64 := by
  cases τ <;> decide

theorem typeId_injective {σ τ : BuiltinType} (h : σ.typeId = τ.typeId) : σ = τ := by
  cases σ <;> cases τ <;> first | rfl | exact absurd h (by decide)

end BuiltinType

/-! Frames. -/

section Frames
variable {τ : BuiltinType} {m : τ.Message} {topic : Bytes} {frame : Frame}
variable {sequence publisherId sendTimeNs : BitVec 64}

/-- What `make_frame` fills in. -/
theorem makeFrame_builtin (hne : topic ≠ []) (hlength : topic.length ≤ 65535) :
    builtinTraits.makeFrame topic τ m sequence publisherId sendTimeNs =
      .ok { typeId := τ.typeId, schemaHash := fnv1a64 τ.schema, sequence, publisherId,
            sendTimeNs, topic, payload := τ.codec.serialize m } := by
  have hserialize : builtinTraits.serialize τ m = .ok (τ.codec.serialize m) := rfl
  have hlimit : ¬ 65535 < topic.length := not_lt.mpr hlength
  rw [MessageTraits.makeFrame, hserialize]
  show makeFrame _ _ _ _ _ _ = _
  rw [makeFrame, if_neg hne, if_neg hlimit]
  rfl

/-- A frame of a built-in message is within the default limits. -/
theorem admits_builtin {W : SizeT} (hlength : topic.length ≤ 65535) :
    ({} : FrameLimits W).Admits topic.length (τ.codec.serialize m).length := by
  have hpayload : (τ.codec.serialize m).length ≤ 64 := by
    rw [MessageCodec.serialize, τ.messageSchema.length_encode, τ.totalLength_types]
    exact τ.wireLength_le
  have hlimits : ({} : FrameLimits W).maxTopicSize.toNat = 65535 ∧
      ({} : FrameLimits W).maxPayloadSize.toNat = 16777216 ∧
      ({} : FrameLimits W).maxFrameSize.toNat = 16842807 := by
    cases W <;> exact ⟨rfl, rfl, rfl⟩
  obtain ⟨htopic, hmax, hframe⟩ := hlimits
  refine ⟨hlength, by omega, by omega, by omega, ?_⟩
  rw [Frame.kHeaderSize, hframe]
  omega

/-- A frame under another topic than the expected one is refused. -/
theorem deserializeFrame_other_topic {σ : BuiltinType} {expected : Bytes} (hne : expected ≠ [])
    (hother : frame.topic ≠ expected) :
    ∃ e, builtinTraits.deserializeFrame σ frame expected = .error e := by
  rw [NetworkTraits.deserializeFrame, if_pos ⟨hne, hother⟩]
  exact ⟨_, rfl⟩

/-- And so is one of another type, whatever topic is expected. -/
theorem deserializeFrame_other_type {σ : BuiltinType} (hframe : frame.typeId = τ.typeId)
    (hne : σ ≠ τ) (expected : Bytes) :
    ∃ e, builtinTraits.deserializeFrame σ frame expected = .error e := by
  have hid : frame.typeId ≠ builtinTraits.typeId σ := by
    rw [hframe]
    exact fun h => hne (BuiltinType.typeId_injective h.symm)
  rw [NetworkTraits.deserializeFrame, if_pos hid]
  split
  · exact ⟨_, rfl⟩
  · exact ⟨_, rfl⟩

theorem deserializeFrame_builtin (htype : frame.typeId = τ.typeId)
    (hschema : frame.schemaHash = fnv1a64 τ.schema) (hpayload : frame.payload = τ.codec.serialize m) :
    builtinTraits.deserializeFrame τ frame frame.topic = .ok m := by
  have hdecode : τ.codec.deserialize (some frame.payload) frame.payload.length = .ok m := by
    rw [hpayload]
    exact τ.messageSchema.deserialize_serialize m
  have hid : ¬ frame.typeId ≠ builtinTraits.typeId τ := not_not.mpr htype
  have hhash : ¬ frame.schemaHash ≠ builtinTraits.schemaHash τ := not_not.mpr hschema
  rw [NetworkTraits.deserializeFrame, if_neg (fun h => h.2 rfl), if_neg hid, if_neg hhash]
  exact congrArg (Except.mapError CodecFault.what) hdecode

end Frames

/-- A message of a built-in type goes through its fields, its payload, its frame and the
typed check unchanged, and no other type or topic gets it; a payload is accepted by its
length alone, and what it decodes to encodes to that payload again. -/
theorem typed_round_trip {W V : SizeT} (τ : BuiltinType) :
    (∀ (m : τ.Message) (topic : Bytes) (sequence publisherId sendTimeNs : BitVec 64),
      topic ≠ [] → topic.length ≤ 65535 → ∃ frame encoded decoded,
      builtinTraits.makeFrame topic τ m sequence publisherId sendTimeNs = .ok frame ∧
      encodeFrame frame ({} : FrameLimits W) = .ok encoded ∧
      decodeBuffer encoded ({} : FrameLimits V) = .ok decoded ∧
      builtinTraits.deserializeFrame τ decoded topic = .ok m ∧
      (∀ σ ≠ τ, ∀ expected, ∃ e, builtinTraits.deserializeFrame σ decoded expected = .error e) ∧
      ∀ σ, ∀ expected ≠ [], expected ≠ topic →
        ∃ e, builtinTraits.deserializeFrame σ decoded expected = .error e) ∧
    ∀ p : Bytes,
      ((∃ m, τ.codec.deserialize (some p) p.length = .ok m) ↔ p.length = τ.wireLength) ∧
      ∀ m, τ.codec.deserialize (some p) p.length = .ok m → τ.codec.serialize m = p := by
  constructor
  · intro m topic sequence publisherId sendTimeNs hne hlength
    let frame : Frame :=
      { typeId := τ.typeId, schemaHash := fnv1a64 τ.schema, sequence, publisherId, sendTimeNs,
        topic, payload := τ.codec.serialize m }
    have hhere : ({} : FrameLimits W).Admits frame.topic.length frame.payload.length :=
      admits_builtin hlength
    have hthere : ({} : FrameLimits V).Admits frame.topic.length frame.payload.length :=
      admits_builtin hlength
    refine ⟨frame, frame.wire, frame, makeFrame_builtin hne hlength,
      encodeFrame_eq_ok_iff.mpr ⟨hhere, rfl⟩, decodeBuffer_wire hthere,
      deserializeFrame_builtin rfl rfl rfl, ?_, ?_⟩
    · intro σ hσ expected
      exact deserializeFrame_other_type (τ := τ) rfl hσ expected
    · intro σ expected hexpected hother
      exact deserializeFrame_other_topic hexpected hother.symm
  · intro p
    rw [← τ.totalLength_types]
    exact τ.messageSchema.deserialize_iff p

/-- A sensor reading whose rate is a NaN with a payload and whose angle is a negative zero. -/
theorem typed_round_trip_nan :
    let reading : ImuMsg := ⟨7, ⟨0x8000000000000000⟩, ⟨0x7ff8000000001234⟩⟩
    (∃ decoded, builtinTraits.deserializeFrame .imu decoded [105, 109, 117] = .ok reading ∧
      ∃ e, builtinTraits.deserializeFrame .pose decoded [105, 109, 117] = .error e) ∧
    ∃ m, ImuMsg.codec.deserialize (some (List.replicate 24 255)) 24 = .ok m ∧
      ImuMsg.codec.serialize m = List.replicate 24 255 := by
  intro reading
  have htrip := typed_round_trip (W := .bits64) (V := .bits32) .imu
  obtain ⟨_, _, decoded, -, -, -, hdecoded, hother, -⟩ :=
    htrip.1 reading [105, 109, 117] 1 2 3 (by decide) (by decide)
  obtain ⟨hlength, hserialize⟩ := htrip.2 (List.replicate 24 255)
  obtain ⟨m, hm⟩ := hlength.mpr rfl
  exact ⟨⟨decoded, hdecoded, hother .pose (by decide) _⟩, m, hm, hserialize m hm⟩

end RobotMiddleware
