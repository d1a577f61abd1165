import RobotMiddleware.FrameLayout
import RobotMiddleware.TcpModel

/-! Reassembly of the byte stream into blocks, over any number of calls. -/
namespace RobotMiddleware
namespace TcpConnection
variable {W : SizeT}

structure ReadSpec (targetSize : ℕ) (c : TcpConnection W) (r : ReadResult W) : Prop where
  limits_eq : r.connection.limits = c.limits
  socketOpen_eq : r.connection.socketOpen = c.socketOpen
  stream_eq : r.connection.receiveBuffer ++ r.connection.incoming =
    c.receiveBuffer ++ c.incoming
  length_le : r.connection.receiveBuffer.length ≤ max targetSize c.receiveBuffer.length
  le_length : c.receiveBuffer.length ≤ r.connection.receiveBuffer.length
  filled : r.outcome = .filled → targetSize ≤ r.connection.receiveBuffer.length
  short : r.outcome ≠ .filled → r.connection.receiveBuffer.length < targetSize

/-- The loop left the buffer alone. -/
theorem ReadSpec.of_eq {targetSize : ℕ} {c c' : TcpConnection W} {outcome : ReadOutcome}
    {rest : List SocketEvent} (hlimits : c'.limits = c.limits)
    (hopen : c'.socketOpen = c.socketOpen) (hbuffer : c'.receiveBuffer = c.receiveBuffer)
    (hincoming : c'.incoming = c.incoming)
    (houtcome : outcome = .filled ↔ targetSize ≤ c.receiveBuffer.length) :
    ReadSpec targetSize c ⟨outcome, c', rest⟩ := by
  refine ⟨hlimits, hopen, by rw [hbuffer, hincoming], ?_, ?_, ?_, ?_⟩
  · exact hbuffer ▸ le_max_right _ _
  · exact hbuffer ▸ le_rfl
  · intro h
    rw [hbuffer]
    exact houtcome.mp h
  · intro h
    rw [hbuffer]
    exact not_le.mp fun hle => h (houtcome.mpr hle)

theorem interrupt_buffer (c : TcpConnection W) : c.interrupt.receiveBuffer = c.receiveBuffer := by
  unfold interrupt
  split <;> rfl

theorem interrupt_incoming (c : TcpConnection W) : c.interrupt.incoming = c.incoming := by
  unfold interrupt
  split <;> rfl

theorem interrupt_limits (c : TcpConnection W) : c.interrupt.limits = c.limits := by
  unfold interrupt
  split <;> rfl

theorem interrupt_socketOpen (c : TcpConnection W) :
    c.interrupt.socketOpen = c.socketOpen := by
  unfold interrupt
  split <;> rfl

theorem recv_stream (c : TcpConnection W) (targetSize extra : ℕ) :
    (c.recv targetSize extra).receiveBuffer ++ (c.recv targetSize extra).incoming =
      c.receiveBuffer ++ c.incoming := by
  rw [recv, List.append_assoc, List.take_append_drop]

/-- `::recv` is asked for the missing bytes at most. -/
theorem length_recv_le (c : TcpConnection W) {targetSize : ℕ} (extra : ℕ)
    (h : c.receiveBuffer.length < targetSize) :
    (c.recv targetSize extra).receiveBuffer.length ≤ targetSize := by
  have htaken : (c.incoming.take (min (extra + 1)
      (min chunkSize (targetSize - c.receiveBuffer.length)))).length ≤
      targetSize - c.receiveBuffer.length := by
    rw [List.length_take]
    exact (min_le_left _ _).trans ((min_le_right _ _).trans (min_le_right _ _))
  rw [recv, List.length_append]
  omega

theorem le_length_recv (c : TcpConnection W) (targetSize extra : ℕ) :
    c.receiveBuffer.length ≤ (c.recv targetSize extra).receiveBuffer.length := by
  rw [recv, List.length_append]
  exact Nat.le_add_right _ _

theorem readUntil_spec (targetSize : ℕ) (c : TcpConnection W) (events : List SocketEvent) :
    ReadSpec targetSize c (readUntil targetSize c events) := by
  induction events generalizing c with
  | nil =>
    apply ReadSpec.of_eq rfl rfl rfl rfl
    split
    case isTrue hle => exact iff_of_true rfl hle
    case isFalse hlt => exact iff_of_false (by simp) hlt
  | cons event rest ih =>
    unfold readUntil
    split
    case isTrue hle => exact .of_eq rfl rfl rfl rfl (iff_of_true rfl hle)
    case isFalse hlt =>
      -- every exit of this turn is one that has not filled the buffer
      have hshort (outcome : ReadOutcome) (h : outcome ≠ .filled) :
          outcome = .filled ↔ targetSize ≤ c.receiveBuffer.length := iff_of_false h hlt
      cases event with
      | pollTimeout => exact .of_eq rfl rfl rfl rfl (hshort _ (by simp))
      | pollFailed reason => exact .of_eq rfl rfl rfl rfl (hshort _ (by simp))
      | pollInvalid => exact .of_eq rfl rfl rfl rfl (hshort _ (by simp))
      | received extra =>
        have hnext := ih (c.recv targetSize extra)
        have hle := length_recv_le c extra (not_le.mp hlt)
        refine ⟨hnext.limits_eq, hnext.socketOpen_eq, ?_, ?_, ?_, hnext.filled, hnext.short⟩
        · exact hnext.stream_eq.trans (c.recv_stream targetSize extra)
        · have hlength := hnext.length_le
          rw [max_eq_left hle] at hlength
          exact hlength.trans (le_max_left _ _)
        · exact (c.le_length_recv targetSize extra).trans hnext.le_length
      | transient expired =>
        cases expired with
        | false => exact ih c
        | true => exact .of_eq rfl rfl rfl rfl (hshort _ (by simp))
      | disconnected =>
        exact .of_eq c.interrupt_limits c.interrupt_socketOpen c.interrupt_buffer
          c.interrupt_incoming (hshort _ (by simp))
      | receiveFailed reason =>
        exact .of_eq c.interrupt_limits c.interrupt_socketOpen c.interrupt_buffer
          c.interrupt_incoming (hshort _ (by simp))

/-- On an open stream the loop does not throw, and uses up a part of the answers. -/
theorem readUntil_healthy (targetSize : ℕ) (c : TcpConnection W) {events : List SocketEvent}
    (h : ∀ event ∈ events, event.healthy = true) :
    (∀ what, (readUntil targetSize c events).outcome ≠ .threw what) ∧
      ∀ event ∈ (readUntil targetSize c events).rest, event.healthy = true := by
  induction events generalizing c with
  | nil =>
    unfold readUntil
    split <;> simp
  | cons event rest ih =>
    have hrest (e : SocketEvent) (he : e ∈ rest) : e.healthy = true :=
      h e (List.mem_cons_of_mem _ he)
    have hevent := h event List.mem_cons_self
    unfold readUntil
    split
    case isTrue hle => exact ⟨by simp, h⟩
    case isFalse hlt =>
      cases event with
      | pollTimeout => exact ⟨by simp, hrest⟩
      | received extra => exact ih _ hrest
      | transient expired =>
        cases expired with
        | false => exact ih c hrest
        | true => exact ⟨by simp, hrest⟩
      | pollFailed reason => cases hevent
      | pollInvalid => cases hevent
      | disconnected => cases hevent
      | receiveFailed reason => cases hevent

/-- A block: 56 bytes of header that pass every check, and as many bytes as they declare. -/
structure IsBlock (limits : FrameLimits W) (block : Bytes) : Prop where
  header_le : Frame.kHeaderSize ≤ block.length
  declared : frameSizeFromHeader (some block) Frame.kHeaderSize limits = .ok block.length

/-- Between two calls the buffer holds a proper part of the next block. -/
structure AtBlock (limits : FrameLimits W) (blocks : List Bytes) (c : TcpConnection W) :
    Prop where
  socketOpen : c.socketOpen = true
  limits_eq : c.limits = limits
  blocks_ok : ∀ block ∈ blocks, IsBlock limits block
  stream_eq : c.receiveBuffer ++ c.incoming = blocks.flatten
  short : ∀ block rest, blocks = block :: rest → c.receiveBuffer.length < block.length

/-- The header check reads the first 56 bytes only. -/
theorem frameSizeFromHeader_congr {data data' : Bytes} {limits : FrameLimits W}
    (h : data.take Frame.kHeaderSize = data'.take Frame.kHeaderSize) :
    frameSizeFromHeader (some data) Frame.kHeaderSize limits =
      frameSizeFromHeader (some data') Frame.kHeaderSize limits := by
  have hbyte (i : ℕ) (hi : i < Frame.kHeaderSize) :
      byteAt (some data) i = byteAt (some data') i := by
    have hget := congrArg (fun l => l[i]?) h
    simp only [List.getElem?_take, hi, ↓reduceIte] at hget
    simp only [byteAt, Option.bind_some, hget]
  simp only [frameSizeFromHeader, requirePointer_some]
  have h16 (offset : ℕ) (ho : offset + 1 < Frame.kHeaderSize) :
      readU16 (some data) offset = readU16 (some data') offset := by
    rw [readU16, readU16, hbyte offset (by omega), hbyte (offset + 1) ho]
  have h32 (offset : ℕ) (ho : offset + 3 < Frame.kHeaderSize) :
      readU32 (some data) offset = readU32 (some data') offset := by
    rw [readU32, readU32, hbyte offset (by omega), hbyte (offset + 1) (by omega),
      hbyte (offset + 2) (by omega), hbyte (offset + 3) ho]
  rw [h32 kMagicOffset (by decide), hbyte kVersionOffset (by decide),
    h16 kHeaderSizeOffset (by decide), h16 kReservedOffset (by decide),
    h16 kTopicSizeOffset (by decide), h32 kPayloadSizeOffset (by decide)]

theorem take_of_append_eq {buffer incoming block rest : Bytes}
    (hstream : buffer ++ incoming = block ++ rest) (hle : buffer.length ≤ block.length) :
    buffer = block.take buffer.length := by
  have htake := congrArg (List.take buffer.length) hstream
  rwa [List.take_left, List.take_append_of_le_length hle] at htake

section Blocks
variable {limits : FrameLimits W} {blocks : List Bytes} {c : TcpConnection W}

/-- Reading less than a block keeps the connection in front of the same blocks. -/
theorem AtBlock.read (h : AtBlock limits blocks c) {targetSize : ℕ} {r : ReadResult W}
    (hr : ReadSpec targetSize c r)
    (hshort : ∀ block rest, blocks = block :: rest →
      r.connection.receiveBuffer.length < block.length) :
    AtBlock limits blocks r.connection :=
  ⟨hr.socketOpen_eq.trans h.socketOpen, hr.limits_eq.trans h.limits_eq, h.blocks_ok,
    hr.stream_eq.trans h.stream_eq, hshort⟩

/-- Once the header is there, the buffer is the beginning of a block that it declares. -/
theorem AtBlock.header (h : AtBlock limits blocks c) {r : ReadResult W}
    (hr : ReadSpec Frame.kHeaderSize c r) (hfilled : r.outcome = .filled) :
    ∃ block rest, blocks = block :: rest ∧
      r.connection.receiveBuffer.length ≤ block.length ∧
      frameSizeFromHeader (some r.connection.receiveBuffer) Frame.kHeaderSize limits =
        .ok block.length := by
  have hheader := hr.filled hfilled
  have hstream := hr.stream_eq.trans h.stream_eq
  cases blocks with
  | nil =>
    -- 56 bytes cannot come out of an empty stream
    rw [List.flatten_nil, List.append_eq_nil_iff] at hstream
    rw [hstream.1] at hheader
    exact absurd hheader (by decide)
  | cons block rest =>
    have hblock := h.blocks_ok block List.mem_cons_self
    have hle : r.connection.receiveBuffer.length ≤ block.length :=
      hr.length_le.trans (max_le hblock.header_le (h.short block rest rfl).le)
    refine ⟨block, rest, rfl, hle, ?_⟩
    have hbuffer := take_of_append_eq hstream hle
    have hsame : r.connection.receiveBuffer.take Frame.kHeaderSize =
        block.take Frame.kHeaderSize := by
      rw [hbuffer, List.take_take, min_eq_left hheader]
    rw [frameSizeFromHeader_congr hsame, hblock.declared]

/-- One call returns the next block or leaves the stream where it was. -/
theorem receiveFrame_spec (h : AtBlock limits blocks c) {events : List SocketEvent}
    (hevents : ∀ event ∈ events, event.healthy = true) :
    (∃ block rest, blocks = block :: rest ∧
      (c.receiveFrame events).1 = .returned (decodeBuffer block limits) ∧
      (c.receiveFrame events).2.receiveBuffer = [] ∧
      AtBlock limits rest (c.receiveFrame events).2) ∨
    ((c.receiveFrame events).1 = .timedOut ∨ (c.receiveFrame events).1 = .waiting) ∧
      AtBlock limits blocks (c.receiveFrame events).2 := by
  have hfirst := readUntil_spec Frame.kHeaderSize c events
  have hsound := readUntil_healthy Frame.kHeaderSize c hevents
  unfold receiveFrame
  rw [h.socketOpen]
  simp only [Bool.not_true, Bool.false_eq_true, ↓reduceIte]
  generalize readUntil Frame.kHeaderSize c events = r at hfirst hsound
  obtain ⟨outcome, c₁, rest₁⟩ := r
  -- without a full header there is less than a block in the buffer
  have hheader (hne : outcome ≠ .filled) : AtBlock limits blocks c₁ := by
    refine h.read hfirst ?_
    intro block rest hblocks
    have hblock := h.blocks_ok block (hblocks ▸ List.mem_cons_self)
    exact (hfirst.short hne).trans_le hblock.header_le
  cases outcome with
  | timedOut => exact .inr ⟨.inl rfl, hheader (by simp)⟩
  | waiting => exact .inr ⟨.inr rfl, hheader (by simp)⟩
  | threw what => exact absurd rfl (hsound.1 what)
  | filled =>
    obtain ⟨block, rest, rfl, hle, hdeclared⟩ := h.header hfirst rfl
    have hlimits : c₁.limits = limits := hfirst.limits_eq.trans h.limits_eq
    simp only at hle hdeclared
    simp only [hlimits, hdeclared]
    have hsecond := readUntil_spec block.length c₁ rest₁
    have hsound' := readUntil_healthy block.length c₁ hsound.2
    generalize readUntil block.length c₁ rest₁ = r at hsecond hsound'
    obtain ⟨outcome, c₂, rest₂⟩ := r
    have hstream : c₂.receiveBuffer ++ c₂.incoming = block ++ rest.flatten :=
      hsecond.stream_eq.trans (hfirst.stream_eq.trans h.stream_eq)
    have hopen : c₂.socketOpen = true :=
      hsecond.socketOpen_eq.trans (hfirst.socketOpen_eq.trans h.socketOpen)
    have hlimits' : c₂.limits = limits := hsecond.limits_eq.trans hlimits
    have hbody (hne : outcome ≠ .filled) : AtBlock limits (block :: rest) c₂ := by
      refine ⟨hopen, hlimits', h.blocks_ok, hstream, ?_⟩
      intro block' rest' hblocks
      cases hblocks
      exact hsecond.short hne
    cases outcome with
    | timedOut => exact .inr ⟨.inl rfl, hbody (by simp)⟩
    | waiting => exact .inr ⟨.inr rfl, hbody (by simp)⟩
    | threw what => exact absurd rfl (hsound'.1 what)
    | filled =>
      -- the buffer has exactly the declared length, so it is the block
      have hlength : c₂.receiveBuffer.length = block.length :=
        le_antisymm (hsecond.length_le.trans (max_le le_rfl hle)) (hsecond.filled rfl)
      obtain ⟨hblock, hincoming⟩ := List.append_inj hstream hlength
      have hresult : ReceiveResult.returned (decodeBuffer c₂.receiveBuffer c₂.limits) =
          .returned (decodeBuffer block limits) := by rw [hblock, hlimits']
      refine .inl ⟨block, rest, rfl, hresult, rfl, hopen, hlimits', ?_, ?_, ?_⟩
      · intro b hb
        exact h.blocks_ok b (List.mem_cons_of_mem _ hb)
      · exact hincoming
      · intro b _ hb
        have hok := h.blocks_ok b (List.mem_cons_of_mem _ (hb ▸ List.mem_cons_self))
        have hpos : 0 < Frame.kHeaderSize := by decide
        exact hpos.trans_le hok.header_le

end Blocks

/-! A call to which the kernel answers with data returns. -/

theorem length_recv (c : TcpConnection W) {targetSize : ℕ} (extra : ℕ)
    (hshort : c.receiveBuffer.length < targetSize)
    (hstream : targetSize ≤ c.receiveBuffer.length + c.incoming.length) :
    c.receiveBuffer.length + 1 ≤ (c.recv targetSize extra).receiveBuffer.length := by
  have hchunk : 0 < chunkSize := by decide
  have htaken : 1 ≤ (c.incoming.take (min (extra + 1)
      (min chunkSize (targetSize - c.receiveBuffer.length)))).length := by
    rw [List.length_take]
    omega
  rw [recv, List.length_append]
  omega

/-- Every data answer brings a byte, so as many answers as bytes are enough. -/
theorem readUntil_fills (targetSize : ℕ) (c : TcpConnection W) {events : List SocketEvent}
    (hevents : ∀ event ∈ events, event.patient = true)
    (hstream : targetSize ≤ c.receiveBuffer.length + c.incoming.length)
    (hdata : targetSize ≤ c.receiveBuffer.length + events.countP SocketEvent.isData) :
    (readUntil targetSize c events).outcome = .filled ∧
      (∀ event ∈ (readUntil targetSize c events).rest, event.patient = true) ∧
      c.receiveBuffer.length + events.countP SocketEvent.isData ≤
        (readUntil targetSize c events).connection.receiveBuffer.length +
          (readUntil targetSize c events).rest.countP SocketEvent.isData := by
  induction events generalizing c with
  | nil =>
    have hle : targetSize ≤ c.receiveBuffer.length := by simpa using hdata
    unfold readUntil
    rw [if_pos hle]
    exact ⟨rfl, by simp, le_rfl⟩
  | cons event rest ih =>
    have hrest (e : SocketEvent) (he : e ∈ rest) : e.patient = true :=
      hevents e (List.mem_cons_of_mem _ he)
    have hevent := hevents event List.mem_cons_self
    unfold readUntil
    split
    case isTrue hle => exact ⟨rfl, hevents, le_rfl⟩
    case isFalse hlt =>
      cases event with
      | received extra =>
        have hlength := length_recv c extra (not_le.mp hlt) hstream
        have hsame := congrArg List.length (c.recv_stream targetSize extra)
        rw [List.length_append, List.length_append] at hsame
        have hcount : (SocketEvent.received extra :: rest).countP SocketEvent.isData =
            rest.countP SocketEvent.isData + 1 := List.countP_cons_of_pos rfl
        obtain ⟨hfilled, hpatient, hle⟩ := ih (c.recv targetSize extra) hrest (by omega) (by omega)
        have hsum : c.receiveBuffer.length +
            (SocketEvent.received extra :: rest).countP SocketEvent.isData ≤
            (readUntil targetSize (c.recv targetSize extra) rest).connection.receiveBuffer.length +
              (readUntil targetSize (c.recv targetSize extra) rest).rest.countP
                SocketEvent.isData := by omega
        exact ⟨hfilled, hpatient, hsum⟩
      | transient expired =>
        cases expired with
        | false =>
          have hcount : (SocketEvent.transient false :: rest).countP SocketEvent.isData =
              rest.countP SocketEvent.isData := List.countP_cons_of_neg (by decide)
          rw [hcount] at hdata ⊢
          exact ih c hrest hstream hdata
        | true => cases hevent
      | pollTimeout => cases hevent
      | pollFailed reason => cases hevent
      | pollInvalid => cases hevent
      | disconnected => cases hevent
      | receiveFailed reason => cases hevent

/-- Both loops filled the buffer. -/
theorem receiveFrame_of_filled {c : TcpConnection W} {events : List SocketEvent} {n : ℕ}
    {r r' : ReadResult W} (hopen : c.socketOpen = true)
    (hr : readUntil Frame.kHeaderSize c events = r) (hfilled : r.outcome = .filled)
    (hdeclared : frameSizeFromHeader (some r.connection.receiveBuffer) Frame.kHeaderSize
      r.connection.limits = .ok n)
    (hr' : readUntil n r.connection r.rest = r') (hfilled' : r'.outcome = .filled) :
    (c.receiveFrame events).1 =
      .returned (decodeBuffer r'.connection.receiveBuffer r'.connection.limits) := by
  obtain ⟨outcome, c₁, rest₁⟩ := r
  obtain ⟨outcome', c₂, rest₂⟩ := r'
  cases hfilled
  cases hfilled'
  simp only at hdeclared hr'
  unfold receiveFrame
  rw [hopen, hr]
  simp only [Bool.not_true, Bool.false_eq_true, ↓reduceIte, hdeclared, hr']

theorem receiveFrame_returns {limits : FrameLimits W} {block : Bytes} {rest : List Bytes}
    {c : TcpConnection W} (h : AtBlock limits (block :: rest) c) {events : List SocketEvent}
    (hevents : ∀ event ∈ events, event.patient = true)
    (hdata : block.length ≤ events.countP SocketEvent.isData) :
    (c.receiveFrame events).1 = .returned (decodeBuffer block limits) := by
  have hlength := congrArg List.length h.stream_eq
  rw [List.flatten_cons, List.length_append, List.length_append] at hlength
  have hheader := (h.blocks_ok block List.mem_cons_self).header_le
  have hfirst := readUntil_spec Frame.kHeaderSize c events
  obtain ⟨hfilled, hpatient, hcount⟩ := readUntil_fills Frame.kHeaderSize c hevents
    (by omega) (by omega)
  obtain ⟨block', rest', hblocks, hle, hdeclared⟩ := h.header hfirst hfilled
  cases hblocks
  have hsame := congrArg List.length hfirst.stream_eq
  rw [List.length_append, List.length_append] at hsame
  -- the answers that the header has left over are enough for the rest of the block
  obtain ⟨hfilled', -, -⟩ := readUntil_fills block.length
    (readUntil Frame.kHeaderSize c events).connection hpatient (by omega) (by omega)
  have hlimits := hfirst.limits_eq.trans h.limits_eq
  rw [← hlimits] at hdeclared
  have hreturned := receiveFrame_of_filled h.socketOpen rfl hfilled hdeclared rfl hfilled'
  have hhealthy (event : SocketEvent) (he : event ∈ events) : event.healthy = true := by
    have hevent := hevents event he
    revert hevent
    cases event <;> simp [SocketEvent.patient, SocketEvent.healthy]
  rcases receiveFrame_spec h hhealthy with ⟨b, bs, hblocks, hresult, -, -⟩ | ⟨hnone, -⟩
  · cases hblocks
    exact hresult
  · rw [hreturned] at hnone
    rcases hnone with hnone | hnone <;> cases hnone

/-- The blocks that a run of calls has returned, and where it left the stream. -/
structure Reassembled (limits : FrameLimits W) (blocks : List Bytes)
    (run : List ReceiveResult × TcpConnection W) : Prop where
  answers : ∃ done ahead, blocks = done ++ ahead ∧
    run.1.filterMap ReceiveResult.answer = done.map (decodeBuffer · limits) ∧
    run.2.receiveBuffer ++ run.2.incoming = ahead.flatten ∧
    (∀ block ∈ ahead.head?, run.2.receiveBuffer.length < block.length) ∧
    ∀ events block, (∀ event ∈ events, event.patient = true) → ahead.head? = some block →
      block.length ≤ events.countP SocketEvent.isData →
      (run.2.receiveFrame events).1 = .returned (decodeBuffer block limits)
  /-- A call that returns a frame or throws has not touched the next block. -/
  returned : ∀ frame, run.1.getLast? = some (.returned frame) → run.2.receiveBuffer = []

theorem receiveCalls_of_waiting {c : TcpConnection W} {events : List SocketEvent}
    (h : (c.receiveFrame events).1 = .waiting) (calls : List (List SocketEvent)) :
    c.receiveCalls (events :: calls) = ([.waiting], (c.receiveFrame events).2) := by
  rw [receiveCalls]
  split
  case h_1 c' hcall => rw [hcall]
  case h_2 result c' hne hcall => exact absurd ((congrArg Prod.fst hcall).symm.trans h) hne

theorem receiveCalls_of_ne {c : TcpConnection W} {events : List SocketEvent}
    (h : (c.receiveFrame events).1 ≠ .waiting) (calls : List (List SocketEvent)) :
    c.receiveCalls (events :: calls) = ((c.receiveFrame events).1 ::
      ((c.receiveFrame events).2.receiveCalls calls).1,
      ((c.receiveFrame events).2.receiveCalls calls).2) := by
  rw [receiveCalls]
  split
  case h_1 c' hcall => exact absurd (congrArg Prod.fst hcall) h
  case h_2 result c' hne hcall => rw [hcall]

/-- Every call leaves a result. -/
theorem receiveCalls_of_nil {c : TcpConnection W} {calls : List (List SocketEvent)}
    (h : (c.receiveCalls calls).1 = []) : (c.receiveCalls calls).2 = c := by
  cases calls with
  | nil => rfl
  | cons events calls =>
    by_cases hwaiting : (c.receiveFrame events).1 = .waiting
    · rw [receiveCalls_of_waiting hwaiting] at h
      cases h
    · rw [receiveCalls_of_ne hwaiting] at h
      cases h

/-- The last call of a run, or the first one when there is no other. -/
theorem getLast?_cons_eq {result last : ReceiveResult} {results : List ReceiveResult}
    (h : (result :: results).getLast? = some last) :
    results.getLast? = some last ∨ results = [] ∧ result = last := by
  rw [List.getLast?_cons, Option.some.injEq] at h
  cases hlast : results.getLast? with
  | none =>
    rw [hlast] at h
    exact .inr ⟨List.getLast?_eq_none_iff.mp hlast, h⟩
  | some other =>
    rw [hlast, Option.getD_some] at h
    exact .inl (congrArg some h)

/-- Calls that have returned nothing yet. -/
theorem AtBlock.reassembled {limits : FrameLimits W} {blocks : List Bytes}
    {c : TcpConnection W} (h : AtBlock limits blocks c) {results : List ReceiveResult}
    (hresults : results.filterMap ReceiveResult.answer = [])
    (hlast : ∀ frame, results.getLast? ≠ some (.returned frame)) :
    Reassembled limits blocks (results, c) := by
  refine ⟨⟨[], blocks, rfl, hresults, h.stream_eq, ?_, ?_⟩, ?_⟩
  · intro block hblock
    obtain ⟨rest, hblocks⟩ := List.head?_eq_some_iff.mp hblock
    exact h.short block rest hblocks
  · intro events block hevents hblock hdata
    obtain ⟨rest, rfl⟩ := List.head?_eq_some_iff.mp hblock
    exact receiveFrame_returns h hevents hdata
  · intro frame hframe
    exact absurd hframe (hlast frame)

theorem receiveCalls_reassembled {limits : FrameLimits W} {blocks : List Bytes}
    {c : TcpConnection W} (h : AtBlock limits blocks c) {calls : List (List SocketEvent)}
    (hcalls : ∀ events ∈ calls, ∀ event ∈ events, event.healthy = true) :
    Reassembled limits blocks (c.receiveCalls calls) := by
  induction calls generalizing blocks c with
  | nil => exact h.reassembled rfl (by simp)
  | cons events calls ih =>
    have hevents := hcalls events List.mem_cons_self
    have hrest (events' : List SocketEvent) (he : events' ∈ calls) :=
      hcalls events' (List.mem_cons_of_mem _ he)
    rcases receiveFrame_spec h hevents with
      ⟨block, rest, rfl, hresult, hbuffer, hnext⟩ | ⟨hnone, hnext⟩
    · rw [receiveCalls_of_ne (by rw [hresult]; simp), hresult]
      obtain ⟨⟨done, ahead, hblocks, hanswers, hahead⟩, hreturned⟩ := ih hnext hrest
      refine ⟨⟨block :: done, ahead, by rw [hblocks]; rfl, ?_, hahead⟩, ?_⟩
      · rw [List.filterMap_cons, List.map_cons, ← hanswers]
        rfl
      · intro frame hframe
        rcases getLast?_cons_eq hframe with hlater | ⟨hempty, -⟩
        · exact hreturned frame hlater
        · -- this call was the last, and it has emptied the buffer
          exact (congrArg receiveBuffer (receiveCalls_of_nil hempty)).trans hbuffer
    · rcases hnone with htimedOut | hwaiting
      · rw [receiveCalls_of_ne (by rw [htimedOut]; simp), htimedOut]
        obtain ⟨⟨done, ahead, hblocks, hanswers, hahead⟩, hreturned⟩ := ih hnext hrest
        refine ⟨⟨done, ahead, hblocks, ?_, hahead⟩, ?_⟩
        · rw [← hanswers]
          rfl
        · intro frame hframe
          rcases getLast?_cons_eq hframe with hlater | ⟨-, hreturns⟩
          · exact hreturned frame hlater
          · cases hreturns
      · rw [receiveCalls_of_waiting hwaiting]
        exact hnext.reassembled rfl (by simp)

/-- TCP stream reassembly, for every segmentation and every placement of transient errors
and timeouts over any number of calls. -/
theorem stream_reassembly {limits : FrameLimits W} {blocks : List Bytes}
    {calls : List (List SocketEvent)} (hblocks : ∀ block ∈ blocks, IsBlock limits block)
    (hcalls : ∀ events ∈ calls, ∀ event ∈ events, event.healthy = true) :
    Reassembled limits blocks
      (receiveCalls { limits := limits, incoming := blocks.flatten } calls) := by
  apply receiveCalls_reassembled _ hcalls
  refine ⟨rfl, rfl, hblocks, List.nil_append _, ?_⟩
  intro block rest h
  have hheader := (hblocks block (h ▸ List.mem_cons_self)).header_le
  have hpos : 0 < Frame.kHeaderSize := by decide
  exact hpos.trans_le hheader

/-- A frame in three pieces with a timeout between them, and a damaged block after it. -/
theorem stream_reassembly_damaged :
    let good := Frame.wire { topic := [97] }
    let bad := (Frame.wire { topic := [97] }).set 56 98
    let run := receiveCalls { limits := ({} : FrameLimits .bits64), incoming := good ++ bad }
      [[.received 39, .pollTimeout], [.transient false, .received 99, .received 99],
        [.received 99, .received 0]]
    run.1 = [.timedOut, .returned (.ok { topic := [97] }),
      .returned (.error (.transportError "frame CRC32 mismatch"))] ∧
    Reassembled ({} : FrameLimits .bits64) [good, bad] run := by
  intro good bad run
  have hblocks : ∀ block ∈ [good, bad], IsBlock ({} : FrameLimits .bits64) block := by
    intro block hblock
    rcases List.mem_pair.mp hblock with rfl | rfl
    · exact ⟨by decide, by decide +kernel⟩
    · exact ⟨by decide, by decide +kernel⟩
  have hstream : [good, bad].flatten = good ++ bad := rfl
  refine ⟨by decide +kernel, ?_⟩
  have hrun : Reassembled ({} : FrameLimits .bits64) [good, bad]
      (receiveCalls { limits := {}, incoming := [good, bad].flatten }
        [[.received 39, .pollTimeout], [.transient false, .received 99, .received 99],
          [.received 99, .received 0]]) :=
    stream_reassembly hblocks (by decide)
  rwa [hstream] at hrun

end TcpConnection
end RobotMiddleware
