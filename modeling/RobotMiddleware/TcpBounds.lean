import RobotMiddleware.TcpReceive

/-! What a hostile peer can make the receiver hold. The buffer is part of a header, or a header
that has passed every check and part of the block it declares, at every moment of a call and
between calls, and each call ends in one of a few ways. -/
namespace RobotMiddleware
namespace TcpConnection
variable {W : SizeT}

/-- The connections that `read_until` passes through, the first and the last included. -/
def readUntilMoments (targetSize : ℕ) :
    TcpConnection W → List SocketEvent → List (TcpConnection W)
  | c, [] => [c]
  | c, event :: rest =>
    if targetSize ≤ c.receiveBuffer.length then [c]
    else
      match event with
      | .received extra => c :: readUntilMoments targetSize (c.recv targetSize extra) rest
      | .transient false => c :: readUntilMoments targetSize c rest
      | .disconnected | .receiveFailed _ => [c, c.interrupt]
      | _ => [c]

def receiveMoments (c : TcpConnection W) (events : List SocketEvent) : List (TcpConnection W) :=
  if !c.socketOpen then [c]
  else
    readUntilMoments Frame.kHeaderSize c events ++
      match readUntil Frame.kHeaderSize c events with
      | ⟨.filled, c, rest⟩ =>
        match frameSizeFromHeader (some c.receiveBuffer) Frame.kHeaderSize c.limits with
        | .error _ => [{ c with receiveBuffer := [] }, { c with receiveBuffer := [] }.interrupt]
        | .ok totalSize =>
          readUntilMoments totalSize c rest ++
            match readUntil totalSize c rest with
            | ⟨.filled, c, _⟩ => [{ c with receiveBuffer := [] }]
            | _ => []
      | _ => []

def failure : SocketEvent → Option String
  | .pollFailed reason => some ("poll TCP socket: " ++ reason)
  | .pollInvalid => some "poll reported an invalid TCP socket"
  | .disconnected => some "TCP peer disconnected while receiving a frame"
  | .receiveFailed reason => some ("receive TCP frame: " ++ reason)
  | _ => none

/-- The loop throws on a failure only. -/
theorem readUntil_failure (targetSize : ℕ) (c : TcpConnection W) (events : List SocketEvent) :
    (∀ what, (readUntil targetSize c events).outcome = .threw what →
      ∃ event ∈ events, failure event = some what) ∧
    ∀ event ∈ (readUntil targetSize c events).rest, event ∈ events := by
  induction events generalizing c with
  | nil =>
    unfold readUntil
    split <;> simp
  | cons event rest ih =>
    have hlater (c : TcpConnection W) :
        (∀ what, (readUntil targetSize c rest).outcome = .threw what →
          ∃ e ∈ event :: rest, failure e = some what) ∧
        ∀ e ∈ (readUntil targetSize c rest).rest, e ∈ event :: rest := by
      refine ⟨fun what hthrew => ?_, fun e he => List.mem_cons_of_mem _ ((ih c).2 e he)⟩
      obtain ⟨e, he, hfailure⟩ := (ih c).1 what hthrew
      exact ⟨e, List.mem_cons_of_mem _ he, hfailure⟩
    have hrest (e : SocketEvent) (he : e ∈ rest) : e ∈ event :: rest := List.mem_cons_of_mem _ he
    unfold readUntil
    split
    case isTrue hle => exact ⟨by rintro what ⟨⟩, fun _ he => he⟩
    case isFalse hlt =>
      cases event with
      | received extra => exact hlater _
      | transient expired =>
        cases expired with
        | false => exact hlater c
        | true => exact ⟨by rintro what ⟨⟩, hrest⟩
      | pollTimeout => exact ⟨by rintro what ⟨⟩, hrest⟩
      | pollFailed _ | pollInvalid | disconnected | receiveFailed _ =>
        refine ⟨fun what hthrew => ⟨_, List.mem_cons_self, ?_⟩, hrest⟩
        exact congrArg some (ReadOutcome.threw.inj hthrew)

theorem readUntilMoments_getLast? (targetSize : ℕ) (c : TcpConnection W)
    (events : List SocketEvent) :
    (readUntilMoments targetSize c events).getLast? =
      some (readUntil targetSize c events).connection := by
  induction events generalizing c with
  | nil => rfl
  | cons event rest ih =>
    unfold readUntilMoments readUntil
    split
    case isTrue hle => rfl
    case isFalse hlt =>
      cases event with
      | received extra => rw [List.getLast?_cons, ih]; rfl
      | transient expired =>
        cases expired with
        | false => rw [List.getLast?_cons, ih]; rfl
        | true => rfl
      | _ => rfl

/-- The last moment is the connection that the call leaves behind. -/
theorem receiveMoments_getLast? (c : TcpConnection W) (events : List SocketEvent) :
    (receiveMoments c events).getLast? = some (c.receiveFrame events).2 := by
  unfold receiveMoments receiveFrame
  split
  case isTrue hclosed => rfl
  case isFalse hopen =>
    have hheader := readUntilMoments_getLast? Frame.kHeaderSize c events
    generalize readUntil Frame.kHeaderSize c events = r at hheader
    obtain ⟨outcome, c₁, rest₁⟩ := r
    cases outcome with
    | filled =>
      dsimp only
      cases frameSizeFromHeader (some c₁.receiveBuffer) Frame.kHeaderSize c₁.limits with
      | error e => rw [List.getLast?_append]; rfl
      | ok totalSize =>
        have hbody := readUntilMoments_getLast? totalSize c₁ rest₁
        dsimp only
        generalize readUntil totalSize c₁ rest₁ = r at hbody
        obtain ⟨outcome, c₂, rest₂⟩ := r
        cases outcome with
        | filled => rw [List.getLast?_append, List.getLast?_append]; rfl
        | _ => rw [List.append_nil, List.getLast?_append, hbody]; rfl
    | _ => rw [List.append_nil, hheader]

/-! One loop. -/

structure Progress (targetSize : ℕ) (c m : TcpConnection W) : Prop where
  limits_eq : m.limits = c.limits
  stream_eq : m.receiveBuffer ++ m.incoming = c.receiveBuffer ++ c.incoming
  length_le : m.receiveBuffer.length ≤ max targetSize c.receiveBuffer.length
  le_length : c.receiveBuffer.length ≤ m.receiveBuffer.length

section Loop
variable {targetSize : ℕ} {c m : TcpConnection W}

theorem Progress.refl (targetSize : ℕ) (c : TcpConnection W) : Progress targetSize c c :=
  ⟨rfl, rfl, le_max_right _ _, le_rfl⟩

theorem Progress.interrupt (targetSize : ℕ) (c : TcpConnection W) :
    Progress targetSize c c.interrupt := by
  refine ⟨c.interrupt_limits, ?_, ?_, ?_⟩
  · rw [c.interrupt_buffer, c.interrupt_incoming]
  · rw [c.interrupt_buffer]
    exact le_max_right _ _
  · rw [c.interrupt_buffer]

theorem Progress.of_recv {extra : ℕ} (hshort : c.receiveBuffer.length < targetSize)
    (h : Progress targetSize (c.recv targetSize extra) m) : Progress targetSize c m := by
  have hlength := length_recv_le c extra hshort
  refine ⟨h.limits_eq, h.stream_eq.trans (c.recv_stream targetSize extra), ?_,
    (c.le_length_recv targetSize extra).trans h.le_length⟩
  have hle := h.length_le
  rw [max_eq_left hlength] at hle
  exact hle.trans (le_max_left _ _)

theorem progress_of_mem {events : List SocketEvent}
    (h : m ∈ readUntilMoments targetSize c events) : Progress targetSize c m := by
  induction events generalizing c with
  | nil =>
    rw [List.mem_singleton.mp h]
    exact .refl _ _
  | cons event rest ih =>
    unfold readUntilMoments at h
    split at h
    case isTrue hle =>
      rw [List.mem_singleton.mp h]
      exact .refl _ _
    case isFalse hlt =>
      cases event with
      | received extra =>
        rcases List.mem_cons.mp h with rfl | hrest
        · exact .refl _ _
        · exact (ih hrest).of_recv (not_le.mp hlt)
      | transient expired =>
        cases expired with
        | false =>
          rcases List.mem_cons.mp h with rfl | hrest
          · exact .refl _ _
          · exact ih hrest
        | true =>
          rw [List.mem_singleton.mp h]
          exact .refl _ _
      | disconnected =>
        rcases List.mem_pair.mp h with rfl | rfl
        · exact .refl _ _
        · exact .interrupt _ _
      | receiveFailed reason =>
        rcases List.mem_pair.mp h with rfl | rfl
        · exact .refl _ _
        · exact .interrupt _ _
      | pollTimeout | pollFailed _ | pollInvalid =>
        rw [List.mem_singleton.mp h]
        exact .refl _ _

/-- A header that is there stays as it is. -/
theorem Progress.header_eq (h : Progress targetSize c m)
    (hheader : Frame.kHeaderSize ≤ c.receiveBuffer.length) (limits : FrameLimits W) :
    frameSizeFromHeader (some m.receiveBuffer) Frame.kHeaderSize limits =
      frameSizeFromHeader (some c.receiveBuffer) Frame.kHeaderSize limits := by
  apply frameSizeFromHeader_congr
  have htake := congrArg (List.take Frame.kHeaderSize) h.stream_eq
  rwa [List.take_append_of_le_length (hheader.trans h.le_length),
    List.take_append_of_le_length hheader] at htake

end Loop

/-! The bound. -/

/-- At most a header, or a checked header and at most what it declares. -/
def WithinDeclared (limits : FrameLimits W) (buffer : Bytes) : Prop :=
  buffer.length ≤ 56 ∨ ∃ n, frameSizeFromHeader (some buffer) 56 limits = .ok n ∧
    buffer.length ≤ n ∧ n ≤ limits.maxFrameSize.toNat

/-- How a call ends, by what it has done to the stream: what is in the buffer, followed by
what is still to come. -/
inductive CallEnd (c : TcpConnection W) (events : List SocketEvent) :
    ReceiveResult × TcpConnection W → Prop
  | closed : c.socketOpen = false →
      CallEnd c events (.returned (.error (.transportError "TCP connection is closed")), c)
  /-- A timeout, or the kernel has not answered yet: nothing is lost. -/
  | paused (result : ReceiveResult) (c' : TcpConnection W) :
      result = .timedOut ∨ result = .waiting →
      c'.receiveBuffer ++ c'.incoming = c.receiveBuffer ++ c.incoming →
      CallEnd c events (result, c')
  /-- An error or a disconnection in one of the loops. -/
  | failed (event : SocketEvent) (what : String) (c' : TcpConnection W) : event ∈ events →
      failure event = some what →
      c'.receiveBuffer ++ c'.incoming = c.receiveBuffer ++ c.incoming →
      CallEnd c events (.returned (.error (.transportError what)), c')
  /-- The header failed a check. -/
  | rejected (header : Bytes) (e : Fault) (c' : TcpConnection W) : header.length = 56 →
      frameSizeFromHeader (some header) 56 c.limits = .error e →
      header ++ c'.incoming = c.receiveBuffer ++ c.incoming →
      c'.receiveBuffer = [] → c'.shutDown = true →
      CallEnd c events (.returned (.error e), c')
  /-- The declared block went to `decode_frame`. -/
  | decoded (block : Bytes) (c' : TcpConnection W) :
      frameSizeFromHeader (some block) 56 c.limits = .ok block.length →
      block ++ c'.incoming = c.receiveBuffer ++ c.incoming → c'.receiveBuffer = [] →
      CallEnd c events (.returned (decodeBuffer block c.limits), c')

section Bound
variable {c m : TcpConnection W} {events : List SocketEvent}

/-- A checked header declares at least itself and at most what the limits allow. -/
theorem declared_bounds {limits : FrameLimits W} {buffer : Bytes} {n : ℕ}
    (hheader : Frame.kHeaderSize ≤ buffer.length)
    (hdeclared : frameSizeFromHeader (some buffer) Frame.kHeaderSize limits = .ok n) :
    Frame.kHeaderSize ≤ n ∧ n ≤ limits.maxFrameSize.toNat := by
  obtain ⟨-, topicSize, payloadSize, h, rfl⟩ := (frameSizeFromHeader_eq_ok_iff hheader).mp hdeclared
  have hframe := h.admits.frame_le
  exact ⟨by omega, hframe⟩

theorem WithinDeclared.nil (limits : FrameLimits W) : WithinDeclared limits [] :=
  .inl (Nat.zero_le _)

/-- The first loop stops at a header, or has nothing to do. -/
theorem WithinDeclared.header (h : WithinDeclared c.limits c.receiveBuffer)
    (hm : Progress Frame.kHeaderSize c m) : WithinDeclared c.limits m.receiveBuffer := by
  have hlength := hm.length_le
  rcases h with hshort | ⟨n, hdeclared, hle, hmax⟩
  · exact .inl (hlength.trans_eq (max_eq_left hshort))
  · by_cases hlong : Frame.kHeaderSize ≤ c.receiveBuffer.length
    · rw [max_eq_right hlong] at hlength
      exact .inr ⟨n, (hm.header_eq hlong _).trans hdeclared, hlength.trans hle, hmax⟩
    · rw [max_eq_left (not_le.mp hlong).le] at hlength
      exact .inl hlength

/-- The second one stops where the header says. -/
theorem WithinDeclared.body {n : ℕ} (hheader : Frame.kHeaderSize ≤ c.receiveBuffer.length)
    (hdeclared : frameSizeFromHeader (some c.receiveBuffer) Frame.kHeaderSize c.limits = .ok n)
    (hle : c.receiveBuffer.length ≤ n) (hm : Progress n c m) :
    frameSizeFromHeader (some m.receiveBuffer) Frame.kHeaderSize c.limits = .ok n ∧
      WithinDeclared c.limits m.receiveBuffer := by
  have hlength := hm.length_le
  rw [max_eq_left hle] at hlength
  have hsame := (hm.header_eq hheader c.limits).trans hdeclared
  exact ⟨hsame, .inr ⟨n, hsame, hlength, (declared_bounds hheader hdeclared).2⟩⟩

/-- What the header check lets through has room for what is in the buffer already. -/
theorem WithinDeclared.length_le {n : ℕ} (h : WithinDeclared c.limits c.receiveBuffer)
    (hheader : Frame.kHeaderSize ≤ c.receiveBuffer.length)
    (hdeclared : frameSizeFromHeader (some c.receiveBuffer) Frame.kHeaderSize c.limits = .ok n) :
    c.receiveBuffer.length ≤ n := by
  rcases h with hshort | ⟨n', hdeclared', hle, -⟩
  · exact le_trans hshort (declared_bounds hheader hdeclared).1
  · obtain rfl := Except.ok.inj (hdeclared'.symm.trans hdeclared)
    exact hle

/-- The bound holds at every moment of a call, under the limits of the connection. -/
theorem within_of_mem (h : WithinDeclared c.limits c.receiveBuffer)
    (hm : m ∈ receiveMoments c events) :
    m.limits = c.limits ∧ WithinDeclared c.limits m.receiveBuffer := by
  unfold receiveMoments at hm
  split at hm
  case isTrue hclosed =>
    rw [List.mem_singleton.mp hm]
    exact ⟨rfl, h⟩
  case isFalse hopen =>
    have hfirst := readUntil_spec Frame.kHeaderSize c events
    rcases List.mem_append.mp hm with hheader | hlater
    · have hprogress := progress_of_mem hheader
      exact ⟨hprogress.limits_eq, h.header hprogress⟩
    · generalize readUntil Frame.kHeaderSize c events = r at hfirst hlater
      obtain ⟨outcome, c₁, rest₁⟩ := r
      cases outcome with
      | filled =>
        have hlimits : c₁.limits = c.limits := hfirst.limits_eq
        have hlong : Frame.kHeaderSize ≤ c₁.receiveBuffer.length := hfirst.filled rfl
        have hwithin : WithinDeclared c₁.limits c₁.receiveBuffer := by
          rw [hlimits]
          exact h.header ⟨hlimits, hfirst.stream_eq, hfirst.length_le, hfirst.le_length⟩
        dsimp only at hlater
        cases hdeclared : frameSizeFromHeader (some c₁.receiveBuffer) Frame.kHeaderSize c₁.limits with
        | error e =>
          rw [hdeclared] at hlater
          rcases List.mem_pair.mp hlater with rfl | rfl
          · exact ⟨hlimits, .nil _⟩
          · rw [interrupt_limits, interrupt_buffer]
            exact ⟨hlimits, .nil _⟩
        | ok totalSize =>
          rw [hdeclared] at hlater
          have hle := hwithin.length_le hlong hdeclared
          have hsecond := readUntil_spec totalSize c₁ rest₁
          rcases List.mem_append.mp hlater with hbody | hend
          · have hprogress := progress_of_mem hbody
            have hstays := (WithinDeclared.body hlong hdeclared hle hprogress).2
            rw [hlimits] at hstays
            exact ⟨hprogress.limits_eq.trans hlimits, hstays⟩
          · generalize readUntil totalSize c₁ rest₁ = r at hsecond hend
            obtain ⟨outcome, c₂, rest₂⟩ := r
            cases outcome with
            | filled =>
              rw [List.mem_singleton.mp hend]
              exact ⟨hsecond.limits_eq.trans hlimits, .nil _⟩
            | timedOut | waiting | threw _ => exact absurd hend List.not_mem_nil
      | timedOut | waiting | threw _ => exact absurd hlater List.not_mem_nil

/-- A call that finds more than a header computes the total size that was computed before. -/
theorem resumed_of_mem (h : WithinDeclared c.limits c.receiveBuffer)
    (hlong : 56 < c.receiveBuffer.length) :
    ∃ n, frameSizeFromHeader (some c.receiveBuffer) 56 c.limits = .ok n ∧
      ∀ events, ∀ m ∈ receiveMoments c events, m.receiveBuffer = [] ∨
        frameSizeFromHeader (some m.receiveBuffer) 56 m.limits = .ok n := by
  rcases h with hshort | ⟨n, hdeclared, hle, hmax⟩
  · exact absurd hlong (not_lt.mpr hshort)
  refine ⟨n, hdeclared, fun events m hm => ?_⟩
  have hheader : Frame.kHeaderSize ≤ c.receiveBuffer.length := hlong.le
  unfold receiveMoments at hm
  split at hm
  case isTrue hclosed =>
    rw [List.mem_singleton.mp hm]
    exact .inr hdeclared
  case isFalse hopen =>
    have hfirst : readUntil Frame.kHeaderSize c events = ⟨.filled, c, events⟩ := by
      cases events with
      | nil =>
        unfold readUntil
        rw [if_pos hheader]
      | cons event rest =>
        unfold readUntil
        rw [if_pos hheader]
    rw [hfirst] at hm
    rcases List.mem_append.mp hm with hmoment | hlater
    · have hprogress := progress_of_mem hmoment
      rw [hprogress.limits_eq]
      exact .inr ((hprogress.header_eq hheader _).trans hdeclared)
    · dsimp only at hlater
      rw [show frameSizeFromHeader (some c.receiveBuffer) Frame.kHeaderSize c.limits = .ok n from
        hdeclared] at hlater
      rcases List.mem_append.mp hlater with hbody | hend
      · have hprogress := progress_of_mem hbody
        rw [hprogress.limits_eq]
        exact .inr (WithinDeclared.body hheader hdeclared hle hprogress).1
      · generalize readUntil n c events = r at hend
        obtain ⟨outcome, c₂, rest₂⟩ := r
        cases outcome with
        | filled =>
          rw [List.mem_singleton.mp hend]
          exact .inl rfl
        | timedOut | waiting | threw _ => exact absurd hend List.not_mem_nil

/-- The ways in which a call ends. -/
theorem callEnd_receiveFrame (h : WithinDeclared c.limits c.receiveBuffer)
    (events : List SocketEvent) : CallEnd c events (c.receiveFrame events) := by
  unfold receiveFrame
  split
  case isTrue hclosed => exact .closed (by simpa using hclosed)
  case isFalse hopen =>
    have hsocket : c.socketOpen = true := by simpa using hopen
    have hfirst := readUntil_spec Frame.kHeaderSize c events
    have hfailure := readUntil_failure Frame.kHeaderSize c events
    generalize readUntil Frame.kHeaderSize c events = r at hfirst hfailure
    obtain ⟨outcome, c₁, rest₁⟩ := r
    cases outcome with
    | timedOut => exact .paused _ _ (.inl rfl) hfirst.stream_eq
    | waiting => exact .paused _ _ (.inr rfl) hfirst.stream_eq
    | threw what =>
      obtain ⟨event, hevent, hwhat⟩ := hfailure.1 what rfl
      exact .failed event what _ hevent hwhat hfirst.stream_eq
    | filled =>
      have hlimits : c₁.limits = c.limits := hfirst.limits_eq
      have hlong : Frame.kHeaderSize ≤ c₁.receiveBuffer.length := hfirst.filled rfl
      have hwithin : WithinDeclared c₁.limits c₁.receiveBuffer := by
        rw [hlimits]
        exact h.header ⟨hlimits, hfirst.stream_eq, hfirst.length_le, hfirst.le_length⟩
      dsimp only
      cases hdeclared : frameSizeFromHeader (some c₁.receiveBuffer) Frame.kHeaderSize c₁.limits with
      | error e =>
        -- a buffer longer than a header has passed the check before
        have hlength : c₁.receiveBuffer.length = 56 := by
          rcases hwithin with hshort | ⟨n, hok, -, -⟩
          · exact le_antisymm hshort hlong
          · cases hdeclared.symm.trans hok
        have hopen₁ : c₁.socketOpen = true := hfirst.socketOpen_eq.trans hsocket
        rw [hlimits] at hdeclared
        refine .rejected c₁.receiveBuffer e _ hlength hdeclared ?_ ?_ ?_
        · rw [interrupt_incoming]
          exact hfirst.stream_eq
        · exact interrupt_buffer _
        · simp [interrupt, hopen₁]
      | ok totalSize =>
        have hle := hwithin.length_le hlong hdeclared
        have hsecond := readUntil_spec totalSize c₁ rest₁
        have hfailure' := (readUntil_failure totalSize c₁ rest₁).1
        dsimp only
        generalize readUntil totalSize c₁ rest₁ = r at hsecond hfailure'
        obtain ⟨outcome, c₂, rest₂⟩ := r
        have hstream : c₂.receiveBuffer ++ c₂.incoming = c.receiveBuffer ++ c.incoming :=
          hsecond.stream_eq.trans hfirst.stream_eq
        cases outcome with
        | timedOut => exact .paused _ _ (.inl rfl) hstream
        | waiting => exact .paused _ _ (.inr rfl) hstream
        | threw what =>
          obtain ⟨event, hevent, hwhat⟩ := hfailure' what rfl
          exact .failed event what _ (hfailure.2 event hevent) hwhat hstream
        | filled =>
          have hprogress : Progress totalSize c₁ c₂ :=
            ⟨hsecond.limits_eq, hsecond.stream_eq, hsecond.length_le, hsecond.le_length⟩
          have hblock := (WithinDeclared.body hlong hdeclared hle hprogress).1
          have hupper : c₂.receiveBuffer.length ≤ max totalSize c₁.receiveBuffer.length :=
            hsecond.length_le
          have hlength : c₂.receiveBuffer.length = totalSize := by
            rw [max_eq_left hle] at hupper
            exact le_antisymm hupper (hsecond.filled rfl)
          have hlimits₂ : c₂.limits = c.limits := hsecond.limits_eq.trans hlimits
          rw [hlimits, ← hlength] at hblock
          dsimp only
          rw [hlimits₂]
          exact .decoded c₂.receiveBuffer _ hblock hstream rfl

/-- And so between any two calls. -/
theorem within_receiveCalls (h : WithinDeclared c.limits c.receiveBuffer)
    (calls : List (List SocketEvent)) :
    (c.receiveCalls calls).2.limits = c.limits ∧
      WithinDeclared c.limits (c.receiveCalls calls).2.receiveBuffer := by
  induction calls generalizing c with
  | nil => exact ⟨rfl, h⟩
  | cons events calls ih =>
    have hlast : (c.receiveFrame events).2 ∈ receiveMoments c events :=
      List.mem_of_getLast? (receiveMoments_getLast? c events)
    obtain ⟨hlimits, hwithin⟩ := within_of_mem h hlast
    by_cases hwaiting : (c.receiveFrame events).1 = .waiting
    · rw [receiveCalls_of_waiting hwaiting]
      exact ⟨hlimits, hwithin⟩
    · rw [receiveCalls_of_ne hwaiting]
      rw [← hlimits] at hwithin
      obtain ⟨hlimits', hrest⟩ := ih hwithin
      rw [hlimits] at hlimits' hrest
      exact ⟨hlimits', hrest⟩

end Bound

/-- Whatever a peer sends, in whatever pieces and with whatever errors, and after any number of
calls: at each moment of the next call the buffer is at most a header, or begins with a
checked header and has at most the size that it declares, which the limits allow; a buffer
longer than a header keeps the total size of its header; and the call ends in one of the
ways of `CallEnd`. -/
theorem hostile_stream_bounded (limits : FrameLimits W) (stream : Bytes)
    (calls : List (List SocketEvent)) (events : List SocketEvent) :
    let c := (receiveCalls { limits := limits, incoming := stream } calls).2
    c.limits = limits ∧
    (∀ m ∈ receiveMoments c events, WithinDeclared limits m.receiveBuffer) ∧
    (receiveMoments c events).getLast? = some (c.receiveFrame events).2 ∧
    (∀ m ∈ receiveMoments c events, 56 < m.receiveBuffer.length → ∃ n,
      frameSizeFromHeader (some m.receiveBuffer) 56 limits = .ok n ∧
      m.receiveBuffer.length ≤ n ∧ n ≤ limits.maxFrameSize.toNat ∧
      ∀ later, ∀ m' ∈ receiveMoments m later, m'.receiveBuffer = [] ∨
        frameSizeFromHeader (some m'.receiveBuffer) 56 limits = .ok n) ∧
    CallEnd c events (c.receiveFrame events) := by
  intro c
  obtain ⟨hlimits, hwithin⟩ : c.limits = limits ∧ WithinDeclared limits c.receiveBuffer :=
    within_receiveCalls (c := { limits := limits, incoming := stream }) (.nil limits) calls
  rw [← hlimits] at hwithin
  refine ⟨hlimits, ?_, receiveMoments_getLast? c events, ?_, callEnd_receiveFrame hwithin events⟩
  · intro m hm
    rw [← hlimits]
    exact (within_of_mem hwithin hm).2
  · intro m hm hlong
    obtain ⟨hmlimits, hmwithin⟩ := within_of_mem hwithin hm
    rw [← hmlimits] at hmwithin
    obtain ⟨n, hdeclared, hlater⟩ := resumed_of_mem hmwithin hlong
    have hheader : Frame.kHeaderSize ≤ m.receiveBuffer.length := hlong.le
    have hle := hmwithin.length_le hheader hdeclared
    have hmax := (declared_bounds hheader hdeclared).2
    have hsame : m.limits = limits := hmlimits.trans hlimits
    rw [hsame] at hdeclared hmax
    refine ⟨n, hdeclared, hle, hmax, fun later m' hm' => ?_⟩
    have hresumed := hlater later m' hm'
    rw [(within_of_mem hmwithin hm').1, hsame] at hresumed
    exact hresumed

/-- A call that times out two bytes behind the header, and the next one. -/
theorem hostile_stream_bounded_resumed :
    let stream := Frame.wire { topic := [97], payload := [1, 2, 3] }
    let c := (receiveCalls { limits := ({} : FrameLimits .bits64), incoming := stream }
      [[.received 55, .received 1, .pollTimeout]]).2
    ∃ n, frameSizeFromHeader (some c.receiveBuffer) 56 ({} : FrameLimits .bits64) = .ok n ∧
      c.receiveBuffer.length ≤ n ∧ CallEnd c [.received 99] (c.receiveFrame [.received 99]) := by
  intro stream c
  obtain ⟨-, -, -, hlong, hend⟩ := hostile_stream_bounded ({} : FrameLimits .bits64) stream
    [[.received 55, .received 1, .pollTimeout]] [.received 99]
  have hmem : c ∈ receiveMoments c [.received 99] := by decide +kernel
  obtain ⟨n, hdeclared, hle, -, -⟩ := hlong c hmem (by decide +kernel)
  exact ⟨n, hdeclared, hle, hend⟩

end TcpConnection
end RobotMiddleware
