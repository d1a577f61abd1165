import RobotMiddleware.BinaryCodec
import RobotMiddleware.FrameLayout

/-! What a writer appends and what a reader makes of it. A read takes exactly the bytes of its
type or throws before it takes one, whatever the buffer, so both directions of the round
trip are inductions over the schema. -/
namespace RobotMiddleware

/-! Sequencing reads. -/

namespace Reading
variable {α β γ : Type} {m : Reading α} {f : α → Reading β} {r r' : BinaryReader}

theorem bind_apply (m : Reading α) (f : α → Reading β) (r : BinaryReader) :
    (m >>= f) r =
      match m r with
      | (.ok a, r') => f a r'
      | (.error e, r') => (.error e, r') := rfl

theorem bind_ok {a : α} (h : m r = (.ok a, r')) : (m >>= f) r = f a r' := by
  rw [bind_apply, h]

theorem bind_error {e : CodecFault} (h : m r = (.error e, r')) :
    (m >>= f) r = (.error e, r') := by
  rw [bind_apply, h]

theorem bind_assoc (m : Reading α) (f : α → Reading β) (g : β → Reading γ) :
    m >>= f >>= g = m >>= fun a => f a >>= g := by
  funext r
  rcases h : m r with ⟨e | a, r'⟩
  · rw [bind_error h, bind_error (bind_error h)]
  · rw [bind_ok h, bind_apply, bind_ok h]
    rfl

theorem id_map (m : Reading α) : id <$> m = m := by
  funext r
  rcases h : m r with ⟨e | a, r'⟩
  · exact bind_error h
  · exact bind_ok h

end Reading

instance : LawfulMonad Reading :=
  LawfulMonad.mk' Reading Reading.id_map (fun _ _ => rfl) Reading.bind_assoc

/-! The bytes of a field. -/

def FieldType.length : FieldType → ℕ
  | .u8 => 1
  | .u16 => 2
  | .u32 => 4
  | .u64 | .double => 8
  | .bytes count => count

def Field.wire : Field → Bytes
  | .u8 value => BigEndian.bytes 1 value
  | .u16 value => BigEndian.bytes 2 value
  | .u32 value => BigEndian.bytes 4 value
  | .u64 value => BigEndian.bytes 8 value
  | .double value => BigEndian.bytes 8 value.bits
  | .bytes data => data

def FieldType.parse : FieldType → Bytes → Field
  | .u8, bs => .u8 (BigEndian.word 8 bs)
  | .u16, bs => .u16 (BigEndian.word 16 bs)
  | .u32, bs => .u32 (BigEndian.word 32 bs)
  | .u64, bs => .u64 (BigEndian.word 64 bs)
  | .double, bs => .double ⟨BigEndian.word 64 bs⟩
  | .bytes _, bs => .bytes bs

theorem Field.length_wire (field : Field) : field.wire.length = field.type.length := by
  cases field with
  | bytes data => rfl
  | _ => exact BigEndian.length_bytes _ _

theorem Field.parse_wire (field : Field) : field.type.parse field.wire = field := by
  cases field with
  | bytes data => rfl
  | double value => 
    exact congrArg (fun bits => Field.double ⟨bits⟩) (BigEndian.word_bytes (n := 8) rfl _)
  | u8 value => exact congrArg Field.u8 (BigEndian.word_bytes (n := 1) rfl _)
  | u16 value => exact congrArg Field.u16 (BigEndian.word_bytes (n := 2) rfl _)
  | u32 value => exact congrArg Field.u32 (BigEndian.word_bytes (n := 4) rfl _)
  | u64 value => exact congrArg Field.u64 (BigEndian.word_bytes (n := 8) rfl _)

section Parse
variable {type : FieldType} {bs : Bytes}

theorem FieldType.type_parse (h : bs.length = type.length) : (type.parse bs).type = type := by
  cases type with
  | bytes count => exact congrArg FieldType.bytes h
  | _ => rfl

theorem FieldType.wire_parse (h : bs.length = type.length) : (type.parse bs).wire = bs := by
  cases type with
  | bytes count => rfl
  | _ => exact BigEndian.bytes_word rfl h

end Parse

def totalLength (types : List FieldType) : ℕ :=
  (types.map FieldType.length).sum

def wireOf (fields : List Field) : Bytes :=
  fields.flatMap Field.wire

def parseAll : List FieldType → Bytes → List Field
  | [], _ => []
  | type :: types, bs => type.parse (bs.take type.length) :: parseAll types (bs.drop type.length)

theorem totalLength_cons (type : FieldType) (types : List FieldType) :
    totalLength (type :: types) = type.length + totalLength types := rfl

theorem length_wireOf (fields : List Field) :
    (wireOf fields).length = totalLength (fields.map Field.type) := by
  induction fields with
  | nil => rfl
  | cons field fields ih =>
    rw [List.map_cons, totalLength_cons, ← ih, ← field.length_wire]
    exact List.length_append

theorem parseAll_wireOf (fields : List Field) :
    parseAll (fields.map Field.type) (wireOf fields) = fields := by
  induction fields with
  | nil => rfl
  | cons field fields ih =>
    have hwire : wireOf (field :: fields) = field.wire ++ wireOf fields := rfl
    rw [List.map_cons, parseAll, hwire, ← field.length_wire, List.take_left, List.drop_left,
      field.parse_wire, ih]

theorem map_type_parseAll {types : List FieldType} {bs : Bytes}
    (h : bs.length = totalLength types) : (parseAll types bs).map Field.type = types := by
  induction types generalizing bs with
  | nil => rfl
  | cons type types ih =>
    rw [totalLength_cons] at h
    have hhead : (bs.take type.length).length = type.length := by
      rw [List.length_take]
      omega
    have htail : (bs.drop type.length).length = totalLength types := by
      rw [List.length_drop]
      omega
    rw [parseAll, List.map_cons, FieldType.type_parse hhead, ih htail]

theorem wireOf_parseAll {types : List FieldType} {bs : Bytes}
    (h : bs.length = totalLength types) : wireOf (parseAll types bs) = bs := by
  induction types generalizing bs with
  | nil => exact (List.length_eq_zero_iff.mp h).symm
  | cons type types ih =>
    rw [totalLength_cons] at h
    have hhead : (bs.take type.length).length = type.length := by
      rw [List.length_take]
      omega
    have htail : (bs.drop type.length).length = totalLength types := by
      rw [List.length_drop]
      omega
    calc wireOf (parseAll (type :: types) bs)
        = (type.parse (bs.take type.length)).wire ++ wireOf (parseAll types (bs.drop _)) := rfl
      _ = bs.take type.length ++ bs.drop type.length := by
          rw [FieldType.wire_parse hhead, ih htail]
      _ = bs := List.take_append_drop _ _

/-! The writer. -/

namespace BinaryWriter
variable (writer : BinaryWriter)

theorem setWidth_and_mask {w : ℕ} (v : BitVec w) :
    (v &&& BitVec.ofNat w 0xff).setWidth 8 = v.setWidth 8 := by
  apply BitVec.eq_of_getLsbD_eq
  intro i hi
  have hmask : Nat.testBit 255 i = true := by
    have hpow : Nat.testBit (2 ^ 8 - 1) i = decide (i < 8) := Nat.testBit_two_pow_sub_one 8 i
    simpa [hi] using hpow
  rw [BitVec.getLsbD_setWidth, BitVec.getLsbD_setWidth, BitVec.getLsbD_and, BitVec.getLsbD_ofNat,
    hmask]
  by_cases hw : i < w
  · simp [hw]
  · have hout : v.getLsbD i = false := BitVec.getLsbD_of_ge v i (not_lt.mp hw)
    simp [hout]

/-- The loop of the template appends the bytes from the most significant one on. -/
theorem writeUnsigned_eq (n : ℕ) (value : BitVec (8 * n)) :
    writer.writeUnsigned n value = ⟨writer.buffer ++ BigEndian.bytes n value⟩ := by
  -- the last `k` turns write the `k` low bytes
  have hloop (k : ℕ) (hk : k ≤ n) (writer : BinaryWriter) :
      (List.range' (n - k) k).foldl (fun writer i =>
        let shift := (n - 1 - i) * 8
        writer.writeU8 (((value >>> shift) &&& 0xff).setWidth 8)) writer =
      ⟨writer.buffer ++ BigEndian.bytes k value⟩ := by
    induction k generalizing writer with
    | zero => exact congrArg BinaryWriter.mk (List.append_nil _).symm
    | succ k ih =>
      have hfirst : n - (k + 1) + 1 = n - k := by omega
      have hshift : (n - 1 - (n - (k + 1))) * 8 = 8 * k := by omega
      rw [List.range'_succ, List.foldl_cons, hfirst, ih (by omega)]
      simp only [hshift, writeU8]
      rw [BigEndian.bytes, BigEndian.byte, List.append_assoc]
      congr 2
      exact congrArg (· :: _) (setWidth_and_mask _)
  have hall := hloop n le_rfl writer
  rwa [Nat.sub_self, ← List.range_eq_range'] at hall

theorem write_eq (field : Field) : writer.write field = .ok ⟨writer.buffer ++ field.wire⟩ := by
  cases field with
  | u8 value =>
    have hbyte : BigEndian.bytes 1 value = [value] := by
      simp [BigEndian.bytes, BigEndian.byte]
    rw [Field.wire, hbyte]
    rfl
  | u16 value => exact congrArg Except.ok (writer.writeUnsigned_eq 2 value)
  | u32 value => exact congrArg Except.ok (writer.writeUnsigned_eq 4 value)
  | u64 value => exact congrArg Except.ok (writer.writeUnsigned_eq 8 value)
  | double value => exact congrArg Except.ok (writer.writeUnsigned_eq 8 value.bits)
  | bytes data =>
    rw [write, writeBytes]
    by_cases hempty : data.length = 0
    · rw [if_pos hempty, List.length_eq_zero_iff.mp hempty, Field.wire, List.append_nil]
    · rw [if_neg hempty]
      simp [Field.wire]

/-- A writer that is given its fields holds their bytes one after the other. -/
theorem writeAll_eq (fields : List Field) :
    writer.writeAll fields = .ok ⟨writer.buffer ++ wireOf fields⟩ := by
  induction fields generalizing writer with
  | nil => exact congrArg (fun buffer => Except.ok (BinaryWriter.mk buffer)) (List.append_nil _).symm
  | cons field fields ih =>
    have hstep : writer.writeAll (field :: fields) =
        (writer.write field >>= fun writer => writer.writeAll fields) := rfl
    rw [hstep, write_eq]
    show BinaryWriter.writeAll _ fields = _
    rw [ih]
    exact congrArg (fun buffer => Except.ok (BinaryWriter.mk buffer)) (List.append_assoc _ _ _)

end BinaryWriter

/-! The reader. -/

namespace BinaryReader

/-- The bytes behind the pointer; null stands for none. -/
def block (r : BinaryReader) : Bytes :=
  r.data.getD []

def advance (r : BinaryReader) (n : ℕ) : BinaryReader :=
  { r with offset := r.offset + n }

structure WellFormed (r : BinaryReader) : Prop where
  size_le : r.size ≤ r.block.length
  offset_le : r.offset ≤ r.size

@[simp] theorem advance_block (r : BinaryReader) (n : ℕ) : (r.advance n).block = r.block := rfl

@[simp] theorem advance_size (r : BinaryReader) (n : ℕ) : (r.advance n).size = r.size := rfl

@[simp] theorem advance_offset (r : BinaryReader) (n : ℕ) :
    (r.advance n).offset = r.offset + n := rfl

theorem advance_advance (r : BinaryReader) (m n : ℕ) :
    (r.advance m).advance n = r.advance (m + n) := by
  simp only [advance, Nat.add_assoc]

section Read
variable {r : BinaryReader} {n : ℕ}

theorem WellFormed.advance (h : r.WellFormed) (hn : r.offset + n ≤ r.size) :
    (r.advance n).WellFormed :=
  ⟨h.size_le, hn⟩

theorem byteAt_of_lt {i : ℕ} (hi : i < r.size) (hlt : i < r.block.length) :
    r.byteAt i = .ok r.block[i] := by
  unfold block at hlt
  cases hdata : r.data with
  | none => simp [hdata] at hlt
  | some bs =>
    simp only [hdata, Option.getD_some] at hlt
    simp [BinaryReader.byteAt, block, hi, hdata, hlt]

theorem require_of_le (h : r.offset + n ≤ r.size) : require n r = (.ok (), r) := by
  rw [require, if_neg]
  omega

/-- The check that comes before every access. -/
theorem require_of_lt (h : r.WellFormed) (hn : r.size < r.offset + n) :
    require n r = (.error (.serializationError
      ("truncated message payload at byte " ++ toString r.offset)), r) := by
  have hoffset := h.offset_le
  rw [require, if_pos]
  omega

theorem next_of_lt (hoffset : r.offset < r.size) (hlt : r.offset < r.block.length) :
    next r = (.ok r.block[r.offset], r.advance 1) := by
  rw [next, byteAt_of_lt hoffset hlt]
  rfl

/-- The loop of the template, from an accumulator on. -/
theorem foldlM_next {w : ℕ} (turns : List ℕ) (value : BitVec w) (h : r.WellFormed)
    (hle : r.offset + turns.length ≤ r.size) :
    (turns.foldlM (fun value _ => do
        let b ← next
        return (value <<< 8) ||| b.setWidth w) value : Reading (BitVec w)) r =
      (.ok ((slice r.block r.offset turns.length).foldl BigEndian.push value),
        r.advance turns.length) := by
  induction turns generalizing r value with
  | nil =>
    rw [List.length_nil, slice_zero]
    rfl
  | cons i turns ih =>
    rw [List.length_cons] at hle
    have hoffset : r.offset < r.size := by omega
    have hlt : r.offset < r.block.length := hoffset.trans_le h.size_le
    have hrest : (r.advance 1).offset + turns.length ≤ (r.advance 1).size := by
      rw [advance_offset, advance_size]
      omega
    rw [List.foldlM_cons, Reading.bind_assoc, Reading.bind_ok (next_of_lt hoffset hlt)]
    rw [List.length_cons, slice_succ hlt, List.foldl_cons]
    have hstep := ih (BigEndian.push value r.block[r.offset]) (h.advance (by omega)) hrest
    rw [advance_advance, Nat.add_comm 1] at hstep
    exact hstep

theorem readUnsigned_of_le (h : r.WellFormed) (hle : r.offset + n ≤ r.size) :
    readUnsigned n r = (.ok (BigEndian.word (8 * n) (slice r.block r.offset n)),
      r.advance n) := by
  have hloop := foldlM_next (List.range n) (0 : BitVec (8 * n)) h (by rwa [List.length_range])
  rw [List.length_range] at hloop
  rw [readUnsigned, Reading.bind_ok (require_of_le hle)]
  exact hloop

theorem copy_of_le (h : r.WellFormed) (hle : r.offset + n ≤ r.size) :
    copy n r = (.ok (slice r.block r.offset n), r.advance n) := by
  have hmap (first k : ℕ) (hk : first + k ≤ r.size) :
      (List.range' first k).mapM r.byteAt = .ok (slice r.block first k) := by
    induction k generalizing first with
    | zero => rw [slice_zero]; rfl
    | succ k ih =>
      have hsize := h.size_le
      rw [List.range'_succ, List.mapM_cons, byteAt_of_lt (by omega) (by omega),
        ih _ (by omega), slice_succ (by omega)]
      rfl
  rw [copy, hmap _ _ hle]
  rfl

/-- A read with enough bytes left takes those of its type. -/
theorem read_of_le {type : FieldType} (h : r.WellFormed)
    (hle : r.offset + type.length ≤ r.size) :
    read type r = (.ok (type.parse (slice r.block r.offset type.length)),
      r.advance type.length) := by
  cases type with
  | u8 =>
    have hsize := h.size_le
    have hoffset : r.offset < r.size := hle
    have hlt : r.offset < r.block.length := hoffset.trans_le hsize
    have hbyte : BigEndian.word 8 (slice r.block r.offset 1) = r.block[r.offset] := by
      rw [slice_succ hlt, slice_zero]
      simp [BigEndian.word, BigEndian.push]
    rw [FieldType.parse, FieldType.length, hbyte]
    exact Reading.bind_ok ((Reading.bind_ok (require_of_le hle)).trans (next_of_lt hoffset hlt))
  | u16 => exact Reading.bind_ok (readUnsigned_of_le h hle)
  | u32 => exact Reading.bind_ok (readUnsigned_of_le h hle)
  | u64 => exact Reading.bind_ok (readUnsigned_of_le h hle)
  | double =>
    exact Reading.bind_ok (Reading.bind_ok (readUnsigned_of_le h hle))
  | bytes count =>
    apply Reading.bind_ok
    rw [readBytes]
    by_cases hzero : count = 0
    · rw [if_pos hzero, hzero, FieldType.length, slice_zero]
      rfl
    · rw [if_neg hzero]
      exact (Reading.bind_ok (require_of_le hle)).trans (copy_of_le h hle)

/-- A read with too few bytes left throws and leaves the reader as it was. -/
theorem read_of_lt {type : FieldType} (h : r.WellFormed)
    (hlt : r.size < r.offset + type.length) :
    read type r = (.error (.serializationError
      ("truncated message payload at byte " ++ toString r.offset)), r) := by
  have hrequire := require_of_lt h hlt
  cases type with
  | double => exact Reading.bind_error (Reading.bind_error (Reading.bind_error hrequire))
  | bytes count =>
    apply Reading.bind_error
    have hoffset := h.offset_le
    rw [FieldType.length] at hlt
    rw [readBytes, if_neg (by omega)]
    exact Reading.bind_error hrequire
  | _ => exact Reading.bind_error (Reading.bind_error hrequire)

/-- One call keeps the invariant and touches no byte outside. -/
theorem WellFormed.read (h : r.WellFormed) (type : FieldType) :
    (read type r).2.WellFormed ∧ (read type r).2.size = r.size ∧
      ∀ i, (read type r).1 ≠ .error (.outOfBounds i) := by
  by_cases hle : r.offset + type.length ≤ r.size
  · rw [read_of_le h hle]
    exact ⟨h.advance hle, rfl, fun i => nofun⟩
  · rw [read_of_lt h (not_le.mp hle)]
    exact ⟨h, rfl, fun i => nofun⟩

theorem WellFormed.after (h : r.WellFormed) (types : List FieldType) :
    (r.after types).WellFormed ∧ (r.after types).size = r.size := by
  induction types generalizing r with
  | nil => exact ⟨h, rfl⟩
  | cons type types ih =>
    obtain ⟨hread, hsize, -⟩ := h.read type
    obtain ⟨hrest, hsizes⟩ := ih hread
    exact ⟨hrest, hsizes.trans hsize⟩

end Read

section ReadAll
variable {r : BinaryReader} {types : List FieldType}

theorem readAll_cons (type : FieldType) (types : List FieldType) :
    readAll (type :: types) = do
      let field ← read type
      let fields ← readAll types
      return field :: fields :=
  List.mapM_cons

/-- Enough bytes for the whole schema: every field is read. -/
theorem readAll_of_le (h : r.WellFormed) (hle : r.offset + totalLength types ≤ r.size) :
    readAll types r = (.ok (parseAll types (slice r.block r.offset (totalLength types))),
      r.advance (totalLength types)) := by
  induction types generalizing r with
  | nil => rfl
  | cons type types ih =>
    rw [totalLength_cons] at hle
    have hhead : r.offset + type.length ≤ r.size := by omega
    have htail := ih (h.advance hhead) (by rw [advance_offset, advance_size]; omega)
    rw [advance_advance] at htail
    rw [readAll_cons, Reading.bind_ok (read_of_le h hhead), Reading.bind_ok htail,
      totalLength_cons, parseAll]
    have hfirst : (slice r.block r.offset (type.length + totalLength types)).take type.length =
        slice r.block r.offset type.length := by
      rw [slice, slice, List.take_take, Nat.min_eq_left (Nat.le_add_right _ _)]
    have hrest : (slice r.block r.offset (type.length + totalLength types)).drop type.length =
        slice r.block (r.offset + type.length) (totalLength types) := by
      rw [slice, slice, List.drop_take, List.drop_drop, Nat.add_sub_cancel_left]
    rw [hfirst, hrest]
    rfl

/-- Too few: some read throws, at the offset where the read before it has ended. -/
theorem readAll_of_lt (h : r.WellFormed) (hlt : r.size < r.offset + totalLength types) :
    ∃ before type rest values mid what, types = before ++ type :: rest ∧
      readAll before r = (.ok values, mid) ∧
      read type mid = (.error (.serializationError what), mid) ∧
      readAll types r = (.error (.serializationError what), mid) := by
  induction types generalizing r with
  | nil =>
    have hoffset := h.offset_le
    exact absurd hlt (not_lt.mpr hoffset)
  | cons type types ih =>
    by_cases hhead : r.offset + type.length ≤ r.size
    · rw [totalLength_cons] at hlt
      have hread := read_of_le h hhead
      obtain ⟨before, failing, rest, values, mid, what, rfl, hbefore, hfailing, hall⟩ :=
        ih (h.advance hhead) (by rw [advance_offset, advance_size]; omega)
      let field := type.parse (slice r.block r.offset type.length)
      refine ⟨type :: before, failing, rest, field :: values, mid, what, rfl, ?_, hfailing, ?_⟩
      · rw [readAll_cons, Reading.bind_ok hread, Reading.bind_ok hbefore]
        rfl
      · rw [readAll_cons, Reading.bind_ok hread]
        exact Reading.bind_error hall
    · have hread := read_of_lt h (not_le.mp hhead)
      refine ⟨[], type, types, [], r, _, rfl, rfl, hread, ?_⟩
      rw [readAll_cons]
      exact Reading.bind_error hread

theorem requireConsumed_of_eq (h : r.offset = r.size) : requireConsumed r = (.ok (), r) := by
  simp [requireConsumed, empty, remaining, h]

theorem requireConsumed_of_lt (h : r.offset < r.size) :
    requireConsumed r =
      (.error (.serializationError "message payload contains trailing bytes"), r) := by
  have hremaining : r.size - r.offset ≠ 0 := by omega
  simp [requireConsumed, empty, remaining, hremaining]

end ReadAll

/-- A fresh reader over readable bytes. -/
theorem create_of_le {data : BytePointer} {size : ℕ} (h : size ≤ (data.getD []).length) :
    create data size = .ok { data, size } ∧ WellFormed { data, size } := by
  refine ⟨?_, h, Nat.zero_le _⟩
  rw [create, if_neg]
  rintro ⟨hsize, rfl⟩
  exact hsize (Nat.le_zero.mp h)

/-- Over the bytes of `fields` and more, all fields come back. -/
theorem readAll_wireOf {data : BytePointer} {fields : List Field} {suffix : Bytes}
    (hdata : data.getD [] = wireOf fields ++ suffix) :
    let r : BinaryReader := { data, size := (wireOf fields ++ suffix).length }
    create data r.size = .ok r ∧
      readAll (fields.map Field.type) r = (.ok fields, r.advance (wireOf fields).length) := by
  intro r
  have hsize : r.size ≤ (data.getD []).length := by rw [hdata]
  obtain ⟨hcreate, hformed⟩ := create_of_le hsize
  have hlength := length_wireOf fields
  have hle : r.offset + totalLength (fields.map Field.type) ≤ r.size := by
    rw [← hlength]
    show 0 + _ ≤ (wireOf fields ++ suffix).length
    rw [List.length_append]
    omega
  refine ⟨hcreate, ?_⟩
  rw [readAll_of_le hformed hle, ← hlength]
  have hslice : slice r.block 0 (wireOf fields).length = wireOf fields := by
    rw [slice, List.drop_zero]
    show (data.getD []).take _ = _
    rw [hdata, List.take_left]
  show (Except.ok (parseAll _ (slice r.block 0 _)), _) = _
  rw [hslice, parseAll_wireOf]

end BinaryReader

/-- Writing any list of typed values and reading it back with the same schema: the values
return from the whole buffer, a shortened buffer makes one of the reads throw, and a longer
one is noticed at the end. Whatever is read from whatever bytes, the offset stays within
the size, and so does every access. -/
theorem codec_round_trip (fields : List Field) :
    (∃ writer, BinaryWriter.writeAll {} fields = .ok writer ∧
      (∀ data : BytePointer, data.getD [] = writer.buffer → ∃ r r',
        BinaryReader.create data writer.buffer.length = .ok r ∧
        BinaryReader.readAll (fields.map Field.type) r = (.ok fields, r') ∧
        r'.remaining = 0 ∧ BinaryReader.requireConsumed r' = (.ok (), r')) ∧
      (∀ n < writer.buffer.length, ∀ data : BytePointer, data.getD [] = writer.buffer.take n →
        ∃ r before type rest values r' what,
        BinaryReader.create data n = .ok r ∧
        fields.map Field.type = before ++ type :: rest ∧
        BinaryReader.readAll before r = (.ok values, r') ∧
        BinaryReader.read type r' = (.error (.serializationError what), r') ∧
        BinaryReader.readAll (fields.map Field.type) r = (.error (.serializationError what), r')) ∧
      (∀ suffix ≠ [], ∀ data : BytePointer, data.getD [] = writer.buffer ++ suffix → ∃ r r' what,
        BinaryReader.create data (writer.buffer ++ suffix).length = .ok r ∧
        BinaryReader.readAll (fields.map Field.type) r = (.ok fields, r') ∧
        BinaryReader.requireConsumed r' = (.error (.serializationError what), r'))) ∧
    ∀ (data : BytePointer) (size : ℕ), size ≤ (data.getD []).length → ∃ r,
      BinaryReader.create data size = .ok r ∧
      ∀ types, (r.after types).offset ≤ size ∧ (r.after types).size = size ∧
        ∀ type i, (BinaryReader.read type (r.after types)).1 ≠ .error (.outOfBounds i) := by
  constructor
  · refine ⟨⟨wireOf fields⟩, BinaryWriter.writeAll_eq {} fields, ?_, ?_, ?_⟩
    · intro data hdata
      have hdata : data.getD [] = wireOf fields ++ [] := hdata.trans (List.append_nil _).symm
      obtain ⟨hcreate, hread⟩ := BinaryReader.readAll_wireOf hdata
      simp only [List.append_nil] at hcreate hread
      have hconsumed : 0 + (wireOf fields).length = (wireOf fields).length := Nat.zero_add _
      refine ⟨_, _, hcreate, hread, ?_, BinaryReader.requireConsumed_of_eq hconsumed⟩
      show (wireOf fields).length - (0 + (wireOf fields).length) = 0
      omega
    · intro n hn data hdata
      have hlength : ((wireOf fields).take n).length = n := by
        rw [List.length_take]
        exact Nat.min_eq_left hn.le
      have hsize : n ≤ (data.getD []).length := by rw [hdata, hlength]
      obtain ⟨hcreate, hformed⟩ := BinaryReader.create_of_le hsize
      have hlt : n < 0 + totalLength (fields.map Field.type) := by
        rw [Nat.zero_add, ← length_wireOf]
        exact hn
      obtain ⟨before, type, rest, values, r', what, hsplit, hbefore, hthrow, hall⟩ :=
        BinaryReader.readAll_of_lt hformed hlt
      exact ⟨_, before, type, rest, values, r', what, hcreate, hsplit, hbefore, hthrow, hall⟩
    · intro suffix hsuffix data hdata
      obtain ⟨hcreate, hread⟩ := BinaryReader.readAll_wireOf hdata
      have hpos : 0 < suffix.length := List.length_pos_iff.mpr hsuffix
      have htrailing : 0 + (wireOf fields).length < (wireOf fields ++ suffix).length := by
        rw [List.length_append]
        omega
      exact ⟨_, _, _, hcreate, hread, BinaryReader.requireConsumed_of_lt htrailing⟩
  · intro data size hsize
    obtain ⟨hcreate, hformed⟩ := BinaryReader.create_of_le hsize
    refine ⟨_, hcreate, fun types => ?_⟩
    obtain ⟨hafter, hsame⟩ := hformed.after types
    exact ⟨hafter.offset_le.trans_eq hsame, hsame, fun type => (hafter.read type).2.2⟩

/-- A flag, an integer, a NaN with a payload and raw bytes, in a buffer that is cut in the
middle of the NaN. -/
theorem codec_round_trip_truncated : ∃ data : Bytes, data.length = 16 ∧
    ∃ r before type rest values r' what, BinaryReader.create (some (data.take 7)) 7 = .ok r ∧
      [FieldType.u8, .u32, .double, .bytes 3] = before ++ type :: rest ∧
      BinaryReader.readAll before r = (.ok values, r') ∧
      BinaryReader.read type r' = (.error (.serializationError what), r') := by
  obtain ⟨⟨writer, hwriter, -, htruncated, -⟩, -⟩ := codec_round_trip
    [.u8 1, .u32 0x01020304, .double ⟨0x7ff8000000001234⟩, .bytes [7, 8, 9]]
  have hbuffer : writer.buffer.length = 16 := by
    rw [BinaryWriter.writeAll_eq] at hwriter
    cases hwriter
    rfl
  obtain ⟨r, before, type, rest, values, r', what, hcreate, hsplit, hbefore, hthrow, -⟩ :=
    htruncated 7 (by omega) (some (writer.buffer.take 7)) rfl
  exact ⟨writer.buffer, hbuffer, r, before, type, rest, values, r', what, hcreate, hsplit,
    hbefore, hthrow⟩

end RobotMiddleware
