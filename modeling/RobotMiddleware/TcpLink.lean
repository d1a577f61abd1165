import RobotMiddleware.Observation
import RobotMiddleware.TcpReceive
import RobotMiddleware.TcpSend

/-! A sending and a receiving connection together. The sender's wire only grows, so what the
receiver has done by some time is what it does on the wire of that time. -/
namespace RobotMiddleware

namespace TcpSender
variable {Tid : Type} {W : SizeT} {limits : FrameLimits W} {s s' : TcpSender Tid}

def noteBegun (s : TcpSender Tid) (a : SendAction Tid) (begun : List Bytes) : List Bytes :=
  match a with
  | .send t (.sent _) =>
    match s.calls t with
    | .sending encoded 0 => begun ++ [encoded]
    | _ => begun
  | _ => begun

structure Logged (limits : FrameLimits W) (s : TcpSender Tid) (begun : List Bytes) : Prop where
  encodings : ∀ b ∈ begun, IsEncoding limits b
  /-- The call that has written a part of its frame is the last one. -/
  writing : ∀ t encoded offset, s.calls t = .sending encoded offset → 0 < offset →
    ∃ complete, begun = complete ++ [encoded] ∧
      s.wire = complete.flatten ++ encoded.take offset
  resting : s.cut = none → (∀ t encoded offset, s.calls t = .sending encoded offset → offset = 0) →
    s.wire = begun.flatten
  broken : s.cut ≠ none → ∃ complete part rest, begun = complete ++ [part ++ rest] ∧
    part ≠ [] ∧ rest ≠ [] ∧ s.wire = complete.flatten ++ part

namespace Logged
variable {begun : List Bytes}

theorem initial : Logged limits ({} : TcpSender Tid) [] := by
  refine ⟨by simp, by simp, fun _ _ => rfl, by simp⟩

theorem proper {encoded : Bytes} {offset : ℕ} (hpos : 0 < offset)
    (hlt : offset < encoded.length) : encoded.take offset ≠ [] ∧ encoded.drop offset ≠ [] := by
  constructor
  · intro hnil
    have hlength := congrArg List.length hnil
    rw [List.length_take, List.length_nil] at hlength
    omega
  · intro hnil
    have hlength := List.drop_eq_nil_iff.mp hnil
    omega

/-- The wire ends with a part of the last frame that has begun, or with all of it. -/
theorem ends (h : Logged limits s begun) :
    s.wire = begun.flatten ∨ ∃ complete part rest, begun = complete ++ [part ++ rest] ∧
      part ≠ [] ∧ rest ≠ [] ∧ s.wire = complete.flatten ++ part := by
  by_cases hcut : s.cut = none
  · by_cases hrest : ∀ t encoded offset, s.calls t = .sending encoded offset → offset = 0
    · exact .inl (h.resting hcut hrest)
    · push Not at hrest
      obtain ⟨t, encoded, offset, hcall, hoffset⟩ := hrest
      obtain ⟨complete, hbegun, hwire⟩ := h.writing t encoded offset hcall (by omega)
      by_cases hlt : offset < encoded.length
      · obtain ⟨hpart, hrest⟩ := proper (by omega) hlt
        refine .inr ⟨complete, encoded.take offset, encoded.drop offset, ?_, hpart, hrest, hwire⟩
        rw [hbegun, List.take_append_drop]
      · -- the last byte is out and the lock is still held
        rw [List.take_of_length_le (not_lt.mp hlt)] at hwire
        exact .inl (by simp [hwire, hbegun])
  · exact .inr (h.broken hcut)

variable [DecidableEq Tid]

/-- A call that is not sending, and will not be, changes its place. -/
theorem setCall (h : Logged limits s begun) {t : Tid} {call : SendCall}
    (hbefore : ∀ b n, s.calls t ≠ .sending b n) (hafter : ∀ b n, call ≠ .sending b n) :
    Logged limits (s.setCall t call) begun := by
  refine ⟨h.encodings, fun u b n hu hn => ?_, fun hcut hrest => ?_, h.broken⟩
  · rw [setCall_calls] at hu
    split at hu
    case isTrue => exact absurd hu (hafter b n)
    case isFalse => exact h.writing u b n hu hn
  · apply h.resting hcut
    intro u b n hu
    apply hrest u b n
    have hne : u ≠ t := by
      rintro rfl
      exact hbefore b n hu
    rw [setCall_calls, if_neg hne, hu]

omit [DecidableEq Tid] in
/-- Only the flags of the connection or its lock change. -/
theorem congr (h : Logged limits s begun) (hcalls : s'.calls = s.calls) (hwire : s'.wire = s.wire)
    (hcut : s'.cut = s.cut) : Logged limits s' begun := by
  refine ⟨h.encodings, ?_, ?_, ?_⟩
  · rw [hcalls, hwire]
    exact h.writing
  · rw [hcalls, hwire, hcut]
    exact h.resting
  · rw [hwire, hcut]
    exact h.broken

theorem sent (h : Logged limits s begun) (hinv : WireInvariant limits s) {t : Tid}
    {encoded : Bytes} {offset count : ℕ} (hcall : s.calls t = .sending encoded offset)
    (hpos : 0 < count) (hopen : s.shutDown = false) :
    Logged limits { s.setCall t (.sending encoded (offset + count)) with
        wire := s.wire ++ (encoded.drop offset).take count }
      (noteBegun s (.send t (.sent count)) begun) := by
  have hcut : s.cut = none := by
    by_contra hne
    obtain ⟨wire, hwire⟩ := Option.ne_none_iff_exists'.mp hne
    have hshut := ((hinv.broken wire hwire).2.2 t encoded offset hcall).1
    rw [hopen] at hshut
    cases hshut
  obtain ⟨hholder, hencoding, -⟩ := hinv.sending t encoded offset hcall
  have hothers (u : Tid) (b : Bytes) (n : ℕ) (hu : s.calls u = .sending b n) : u = t :=
    hinv.holder_unique hcall hu
  -- the frame is in the log from its first byte on
  have hlog : ∃ complete, noteBegun s (.send t (.sent count)) begun = complete ++ [encoded] ∧
      s.wire = complete.flatten ++ encoded.take offset ∧
      ∀ b ∈ noteBegun s (.send t (.sent count)) begun, IsEncoding limits b := by
    cases offset with
    | zero =>
      have hnote : noteBegun s (.send t (.sent count)) begun = begun ++ [encoded] := by
        simp only [noteBegun, hcall]
      refine ⟨begun, hnote, ?_, ?_⟩
      · have hwire : s.wire = begun.flatten := by
          apply h.resting hcut
          intro u b n hu
          obtain rfl := hothers u b n hu
          rw [hcall] at hu
          cases hu
          rfl
        rw [hwire, List.take_zero, List.append_nil]
      · intro b hb
        rw [hnote] at hb
        rcases List.mem_append.mp hb with hb | hb
        · exact h.encodings b hb
        · exact List.mem_singleton.mp hb ▸ hencoding
    | succ offset =>
      have hnote : noteBegun s (.send t (.sent count)) begun = begun := by
        simp only [noteBegun, hcall]
      obtain ⟨complete, hbegun, hwire⟩ := h.writing t encoded _ hcall (Nat.succ_pos _)
      exact ⟨complete, hnote.trans hbegun, hwire, by rw [hnote]; exact h.encodings⟩
  obtain ⟨complete, hbegun, hwire, hencodings⟩ := hlog
  refine ⟨hencodings, fun u b n hu _ => ?_, fun _ hrest => ?_, fun hne => absurd hcut hne⟩
  · obtain ⟨-, rfl, rfl⟩ := sender_of_setCall hothers hu
    refine ⟨complete, hbegun, ?_⟩
    calc s.wire ++ (b.drop offset).take count
        = complete.flatten ++ (b.take offset ++ (b.drop offset).take count) := by
          rw [hwire, List.append_assoc]
      _ = complete.flatten ++ b.take (offset + count) := by rw [List.take_add]
  · have hzero := hrest t encoded (offset + count) (by simp)
    omega

theorem broke (h : Logged limits s begun) (hinv : WireInvariant limits s) {t : Tid}
    {encoded : Bytes} {offset : ℕ} (hcall : s.calls t = .sending encoded offset)
    (hlt : offset < encoded.length) : Logged limits (s.fail t offset) begun := by
  have hothers (u : Tid) (b : Bytes) (n : ℕ) (hu : (s.fail t offset).calls u = .sending b n) :
      False := by
    have hu' : (s.setCall t .failed).calls u = .sending b n := hu
    rw [setCall_calls] at hu'
    split at hu'
    case isTrue => cases hu'
    case isFalse hut => exact hut (hinv.holder_unique hcall hu')
  refine ⟨h.encodings, fun u b n hu _ => (hothers u b n hu).elim, fun hcut _ => ?_, fun hcut => ?_⟩
  · -- nothing is cut, so the call failed before its first byte
    have hzero : ¬ 0 < offset := by
      intro hpos
      simp [fail, hpos] at hcut
    have hbefore : s.cut = none := by simpa [fail, hzero] using hcut
    apply h.resting hbefore
    intro u b n hu
    obtain rfl := hinv.holder_unique hcall hu
    rw [hcall] at hu
    cases hu
    omega
  · by_cases hpos : 0 < offset
    · obtain ⟨complete, hbegun, hwire⟩ := h.writing t encoded offset hcall hpos
      obtain ⟨hpart, hrest⟩ := proper hpos hlt
      refine ⟨complete, encoded.take offset, encoded.drop offset, ?_, hpart, hrest, hwire⟩
      rw [hbegun, List.take_append_drop]
    · exact h.broken (by simpa [fail, hpos] using hcut)

theorem unlocked (h : Logged limits s begun) (hinv : WireInvariant limits s) {t : Tid}
    {encoded : Bytes} {offset : ℕ} (hcall : s.calls t = .sending encoded offset)
    (hle : encoded.length ≤ offset) :
    Logged limits { s.setCall t .idle with sendMutex := none } begun := by
  have hpos := (hinv.sending t encoded offset hcall).2.1.length_pos
  have hoffset : 0 < offset := by omega
  have hcut : s.cut = none := by
    by_contra hne
    obtain ⟨wire, hwire⟩ := Option.ne_none_iff_exists'.mp hne
    have hzero := ((hinv.broken wire hwire).2.2 t encoded offset hcall).2
    omega
  obtain ⟨complete, hbegun, hwire⟩ := h.writing t encoded offset hcall hoffset
  rw [List.take_of_length_le hle] at hwire
  refine ⟨h.encodings, fun u b n hu _ => ?_, fun _ _ => ?_, fun hne => absurd hcut hne⟩
  · have hu' : (s.setCall t .idle).calls u = .sending b n := hu
    rw [setCall_calls] at hu'
    split at hu'
    case isTrue => cases hu'
    case isFalse hut => exact absurd (hinv.holder_unique hcall hu') hut
  · show s.wire = begun.flatten
    simp [hwire, hbegun]

/-- One step, with what it adds to the log. -/
theorem step {a : SendAction Tid} (h : Logged limits s begun) (hinv : WireInvariant limits s)
    (hs : s.step limits a = some s') : Logged limits s' (noteBegun s a begun) := by
  cases step_view hs with
  | encoded t frame encoded hcall _ =>
    exact h.setCall (by rw [hcall]; simp) (by simp)
  | refused t frame hcall => exact h.setCall (by rw [hcall]; simp) (by simp)
  | locked t encoded hcall _ _ =>
    refine ⟨h.encodings, fun u b n hu hn => ?_, fun hcut hrest => ?_, h.broken⟩
    · have hu' : (s.setCall t (.sending encoded 0)).calls u = .sending b n := hu
      rw [setCall_calls] at hu'
      split at hu'
      case isTrue =>
        cases hu'
        omega
      case isFalse => exact h.writing u b n hu' hn
    · apply h.resting hcut
      intro u b n hu
      apply hrest u b n
      have hne : u ≠ t := by
        rintro rfl
        rw [hcall] at hu
        cases hu
      show (s.setCall t (.sending encoded 0)).calls u = _
      rw [setCall_calls, if_neg hne, hu]
  | lockThrew t encoded hcall _ _ => exact h.setCall (by rw [hcall]; simp) (by simp)
  | sent t encoded offset count hcall hpos _ hopen => exact h.sent hinv hcall hpos hopen
  | retried t => exact h
  | broke t encoded offset result hcall hlt =>
    have hnote : noteBegun s (.send t result) begun = begun := by
      cases result with
      | sent count =>
        -- a call that is given a count does not fail
        have hcalls : (s.fail t offset).calls t = .failed := by simp [fail]
        simp only [TcpSender.step, hcall, if_pos hlt] at hs
        obtain ⟨-, hs⟩ := Option.ite_none_right_eq_some.mp hs
        rw [← Option.some.inj hs] at hcalls
        simp at hcalls
      | _ => rfl
    rw [hnote]
    exact h.broke hinv hcall hlt
  | unlocked t encoded offset hcall hle => exact h.unlocked hinv hcall hle
  | interrupted t hcall =>
    have hidle : Logged limits (s.setCall t .idle) begun :=
      h.setCall (by rw [hcall]; simp) (by simp)
    exact hidle.congr rfl rfl rfl
  | shutdown => exact h.congr rfl rfl rfl
  | closed _ => exact h.congr rfl rfl rfl

end Logged
end TcpSender

namespace TcpConnection
variable {W : SizeT} {limits : FrameLimits W} {c : TcpConnection W}

def later (c : TcpConnection W) (more : Bytes) : TcpConnection W :=
  { c with incoming := c.incoming ++ more }

/-- `::recv` takes of a longer stream what it took of a shorter one, with the right answer. -/
theorem recv_later {targetSize : ℕ} (extra : ℕ) (more : Bytes)
    (hshort : c.receiveBuffer.length < targetSize) (hincoming : c.incoming ≠ []) :
    ∃ extra', (c.later more).recv targetSize extra' = (c.recv targetSize extra).later more := by
  have hchunk : 0 < chunkSize := by decide
  have hlength : 0 < c.incoming.length := List.length_pos_iff.mpr hincoming
  let wanted := min (extra + 1) (min chunkSize (targetSize - c.receiveBuffer.length))
  let received := min wanted c.incoming.length
  have hwanted : 0 < wanted := by
    show 0 < min (extra + 1) (min chunkSize (targetSize - c.receiveBuffer.length))
    omega
  have hreceived : min (received - 1 + 1)
      (min chunkSize (targetSize - c.receiveBuffer.length)) = received := by
    show min (min wanted _ - 1 + 1) _ = min wanted _
    have hle : wanted ≤ min chunkSize (targetSize - c.receiveBuffer.length) := min_le_right _ _
    omega
  have hle : received ≤ c.incoming.length := min_le_right _ _
  have htake : (c.incoming ++ more).take received = c.incoming.take wanted := by
    rw [List.take_append_of_le_length hle]
    exact List.take_eq_take_min.symm
  have hdrop : (c.incoming ++ more).drop received = c.incoming.drop wanted ++ more := by
    rw [List.drop_append_of_le_length hle]
    congr 1
    exact (List.drop_eq_drop_min).symm
  refine ⟨received - 1, ?_⟩
  show ({ c with
    receiveBuffer := c.receiveBuffer ++ (c.incoming ++ more).take (min (received - 1 + 1) _)
    incoming := (c.incoming ++ more).drop (min (received - 1 + 1) _) } : TcpConnection W) = _
  have hbuffer : (c.later more).receiveBuffer.length = c.receiveBuffer.length := rfl
  rw [hbuffer, hreceived, htake, hdrop]
  rfl

/-- The loop does the same on a longer stream, for some answers of the kernel; `used` are the
answers that it takes. -/
theorem readUntil_later (targetSize : ℕ) (c : TcpConnection W) (more : Bytes)
    {events : List SocketEvent} (h : ∀ event ∈ events, event.healthy = true) :
    ∃ used : List SocketEvent, (∀ event ∈ used, event.healthy = true) ∧
      ∀ rest, ((readUntil targetSize c events).outcome = .waiting → rest = []) →
        readUntil targetSize (c.later more) (used ++ rest) =
          ⟨(readUntil targetSize c events).outcome,
            (readUntil targetSize c events).connection.later more, rest⟩ := by
  induction events generalizing c with
  | nil =>
    refine ⟨[], by simp, fun rest hrest => ?_⟩
    unfold readUntil at hrest ⊢
    by_cases hle : targetSize ≤ c.receiveBuffer.length
    · have hle' : targetSize ≤ (c.later more).receiveBuffer.length := hle
      cases rest <;> simp [hle, hle']
    · have hle' : ¬ targetSize ≤ (c.later more).receiveBuffer.length := hle
      have hnil : rest = [] := hrest (if_neg hle)
      subst hnil
      simp [hle, hle']
  | cons event events ih =>
    have hrest (e : SocketEvent) (he : e ∈ events) : e.healthy = true :=
      h e (List.mem_cons_of_mem _ he)
    have hevent := h event List.mem_cons_self
    by_cases hle : targetSize ≤ c.receiveBuffer.length
    · have hle' : targetSize ≤ (c.later more).receiveBuffer.length := hle
      refine ⟨[], by simp, fun rest _ => ?_⟩
      unfold readUntil
      cases rest <;> simp [hle, hle']
    · have hle' : ¬ targetSize ≤ (c.later more).receiveBuffer.length := hle
      -- an answer that the longer stream gets too
      have hsame (e : SocketEvent) (c' : TcpConnection W) (he : e.healthy = true)
          (hlater : ∀ events, readUntil targetSize (c.later more) (e :: events) =
            readUntil targetSize (c'.later more) events)
          (hnow : readUntil targetSize c (event :: events) = readUntil targetSize c' events) :
          ∃ used : List SocketEvent, (∀ event ∈ used, event.healthy = true) ∧
            ∀ rest, ((readUntil targetSize c (event :: events)).outcome = .waiting → rest = []) →
              readUntil targetSize (c.later more) (used ++ rest) =
                ⟨(readUntil targetSize c (event :: events)).outcome,
                  (readUntil targetSize c (event :: events)).connection.later more, rest⟩ := by
        obtain ⟨used, hused, hread⟩ := ih c' hrest
        refine ⟨e :: used, List.forall_mem_cons.mpr ⟨he, hused⟩, fun rest hwaiting => ?_⟩
        rw [hnow] at hwaiting ⊢
        rw [List.cons_append, hlater, hread rest hwaiting]
      cases event with
      | pollTimeout =>
        refine ⟨[.pollTimeout], by simp [SocketEvent.healthy], fun rest _ => ?_⟩
        simp [readUntil, hle, hle']
      | received extra =>
        by_cases hincoming : c.incoming = []
        · -- nothing was there, and nothing was taken
          refine hsame (.transient false) c rfl ?_ ?_
          · intro events
            simp [readUntil, hle']
          · have hrecv : c.recv targetSize extra = c := by
              cases c
              simp_all [recv]
            simp [readUntil, hle, hrecv]
        · obtain ⟨extra', hrecv⟩ := recv_later extra more (not_le.mp hle) hincoming
          refine hsame (.received extra') (c.recv targetSize extra) rfl ?_ ?_
          · intro events
            simp [readUntil, hle', hrecv]
          · simp [readUntil, hle]
      | transient expired =>
        cases expired with
        | false =>
          refine hsame (.transient false) c rfl ?_ ?_
          · intro events
            simp [readUntil, hle']
          · simp [readUntil, hle]
        | true =>
          refine ⟨[.transient true], by simp [SocketEvent.healthy], fun rest _ => ?_⟩
          simp [readUntil, hle, hle']
      | pollFailed reason => cases hevent
      | pollInvalid => cases hevent
      | disconnected => cases hevent
      | receiveFailed reason => cases hevent

theorem interrupt_later (c : TcpConnection W) (more : Bytes) :
    (c.later more).interrupt = c.interrupt.later more := by
  have hopen : (c.later more).socketOpen = c.socketOpen := rfl
  unfold interrupt
  rw [hopen]
  split <;> rfl

theorem receiveFrame_later (c : TcpConnection W) (more : Bytes) {events : List SocketEvent}
    (h : ∀ event ∈ events, event.healthy = true) :
    ∃ used : List SocketEvent, (∀ event ∈ used, event.healthy = true) ∧
      (c.later more).receiveFrame used =
        ((c.receiveFrame events).1, (c.receiveFrame events).2.later more) := by
  have hopen : (c.later more).socketOpen = c.socketOpen := rfl
  cases hsocket : c.socketOpen with
  | false => exact ⟨[], by simp, by simp [receiveFrame, hopen, hsocket]⟩
  | true =>
    obtain ⟨used, hused, hread⟩ := readUntil_later Frame.kHeaderSize c more h
    have hhealthy := (readUntil_healthy Frame.kHeaderSize c h).2
    rcases hfirst : readUntil Frame.kHeaderSize c events with ⟨outcome, c₁, rest₁⟩
    rw [hfirst] at hread hhealthy
    -- the call is over after the first loop
    have honce (hne : outcome ≠ .filled) : ∃ used : List SocketEvent,
        (∀ event ∈ used, event.healthy = true) ∧ (c.later more).receiveFrame used =
          ((c.receiveFrame events).1, (c.receiveFrame events).2.later more) := by
      have hall := hread [] fun _ => rfl
      rw [List.append_nil] at hall
      refine ⟨used, hused, ?_⟩
      cases outcome with
      | filled => exact absurd rfl hne
      | timedOut | waiting | threw what =>
        simp [receiveFrame, hopen, hsocket, hfirst, hall]
    cases outcome with
    | timedOut | waiting | threw what => exact honce (by simp)
    | filled =>
      have hlimits : (c₁.later more).limits = c₁.limits := rfl
      have hbuffer : (c₁.later more).receiveBuffer = c₁.receiveBuffer := rfl
      cases hsize : frameSizeFromHeader (some c₁.receiveBuffer) Frame.kHeaderSize c₁.limits with
      | error e =>
        have hall := hread [] (by simp)
        rw [List.append_nil] at hall
        refine ⟨used, hused, ?_⟩
        simp only [receiveFrame, hopen, hsocket, hfirst, hall, hlimits, hbuffer, hsize,
          Bool.not_true, Bool.false_eq_true, ↓reduceIte]
        exact congrArg (Prod.mk _) (interrupt_later { c₁ with receiveBuffer := [] } more)
      | ok totalSize =>
        obtain ⟨used₂, hused₂, hread₂⟩ := readUntil_later totalSize c₁ more hhealthy
        have hall := hread used₂ (by simp)
        have hall₂ := hread₂ [] fun _ => rfl
        rw [List.append_nil] at hall₂
        refine ⟨used ++ used₂, ?_, ?_⟩
        · intro event hevent
          rcases List.mem_append.mp hevent with hevent | hevent
          · exact hused event hevent
          · exact hused₂ event hevent
        · rcases hsecond : readUntil totalSize c₁ rest₁ with ⟨outcome, c₂, rest₂⟩
          rw [hsecond] at hall₂
          cases outcome <;>
            simp only [receiveFrame, hopen, hsocket, hfirst, hall, hlimits, hbuffer, hsize,
              hsecond, hall₂] <;> rfl

/-- A run of calls does the same where the peer sends more afterwards. -/
theorem receiveCalls_later (c : TcpConnection W) (more : Bytes)
    {calls : List (List SocketEvent)}
    (h : ∀ events ∈ calls, ∀ event ∈ events, event.healthy = true) :
    ∃ used : List (List SocketEvent),
      (∀ events ∈ used, ∀ event ∈ events, event.healthy = true) ∧
      (c.later more).receiveCalls used =
        ((c.receiveCalls calls).1, (c.receiveCalls calls).2.later more) := by
  induction calls generalizing c with
  | nil => exact ⟨[], by simp, rfl⟩
  | cons events calls ih =>
    have hevents := h events List.mem_cons_self
    obtain ⟨used, hused, hcall⟩ := receiveFrame_later c more hevents
    by_cases hwaiting : (c.receiveFrame events).1 = .waiting
    · refine ⟨[used], by simpa using hused, ?_⟩
      have hwaiting' : ((c.later more).receiveFrame used).1 = .waiting := by rw [hcall, hwaiting]
      rw [receiveCalls_of_waiting hwaiting, receiveCalls_of_waiting hwaiting', hcall]
    · have hrest := fun events he => h events (List.mem_cons_of_mem _ he)
      obtain ⟨rest, hrest, hcalls⟩ := ih (c.receiveFrame events).2 hrest
      have hne : ((c.later more).receiveFrame used).1 ≠ .waiting := by rwa [hcall]
      refine ⟨used :: rest, List.forall_mem_cons.mpr ⟨hused, hrest⟩, ?_⟩
      rw [receiveCalls_of_ne hwaiting, receiveCalls_of_ne hne, hcall]
      simp only [hcalls]

/-- The bytes of an admitted frame are a block. -/
theorem isBlock_wire {frame : Frame}
    (hadmits : limits.Admits frame.topic.length frame.payload.length) :
    IsBlock limits frame.wire := by
  have hlength := frame.length_wire
  have hheader : Frame.kHeaderSize ≤ frame.wire.length := by omega
  have hdecode := decodeBuffer_wire hadmits
  rw [decodeBuffer, decodeFrame, requirePointer_some, ok_bind] at hdecode
  simp only [bind_eq_ok_iff, throwIf_eq_ok_iff, not_not, exists_const] at hdecode
  obtain ⟨n, hsize, hlength', -⟩ := hdecode
  obtain ⟨-, t, p, hdeclares, hn⟩ := (frameSizeFromHeader_eq_ok_iff le_rfl).mp hsize
  refine ⟨hheader, (frameSizeFromHeader_eq_ok_iff hheader).mpr ⟨le_rfl, t, p, hdeclares, ?_⟩⟩
  omega

end TcpConnection

section Link
variable {Tid : Type} [DecidableEq Tid] {W : SizeT} {limits limits' : FrameLimits W}

theorem TcpSender.logged_of_reachable {x : TcpSender Tid × List Bytes}
    (h : ((sendSystem Tid limits).recorded [] noteBegun).ReachableVia
      (fun y a => LockedAfterInterrupt y.1 a) x) : Logged limits x.1 x.2 := by
  refine h.invariant (P := fun x => Logged limits x.1 x.2) ?_ fun y a y' hy hlogged _ hs => ?_
  · rintro ⟨s, begun⟩ ⟨hs, hbegun⟩
    obtain rfl : s = {} := hs
    obtain rfl : begun = [] := hbegun
    exact Logged.initial
  · obtain ⟨hstep, hnote⟩ := TransitionSystem.recorded_step_iff.mp hs
    rw [hnote]
    exact hlogged.step (wireInvariant_of_reachable hy.of_recorded) hstep

/-- A prefix of blocks that is not all of them leaves the last one out. -/
theorem exists_of_append_eq_concat {α : Type} {first ahead complete : List α} {last : α}
    (h : first ++ ahead = complete ++ [last]) (hne : ahead ≠ []) :
    ∃ middle, complete = first ++ middle ∧ ahead = middle ++ [last] := by
  obtain rfl | ⟨middle, last', rfl⟩ := List.eq_nil_or_concat' ahead
  · exact absurd rfl hne
  · rw [← List.append_assoc] at h
    obtain ⟨hcomplete, hlast⟩ := List.append_inj' h rfl
    exact ⟨middle, hcomplete.symm, by rw [hlast]⟩

structure Delivered (limits : FrameLimits W) (s : TcpSender Tid) (frames : List Frame)
    (run : List ReceiveResult × TcpConnection W) : Prop where
  /-- The frames come out whole and in the order of the wire. -/
  answers : ∃ count, run.1.filterMap ReceiveResult.answer = (frames.take count).map .ok ∧
    ((frames.take count).map Frame.wire).flatten ++
      (run.2.receiveBuffer ++ run.2.incoming) = s.wire
  /-- Nothing is lost. -/
  all : run.2.receiveBuffer = [] → run.2.incoming = [] →
    run.1.filterMap ReceiveResult.answer = frames.map .ok

omit [DecidableEq Tid] in
/-- What has begun are the frames of admitted encodings. -/
theorem TcpSender.Logged.exists_frames {s : TcpSender Tid} {begun : List Bytes}
    (h : Logged limits s begun) : ∃ frames : List Frame, begun = frames.map Frame.wire ∧
      ∀ frame ∈ frames, limits.Admits frame.topic.length frame.payload.length := by
  have hall : ∀ begun : List Bytes, (∀ b ∈ begun, IsEncoding limits b) →
      ∃ frames : List Frame, begun = frames.map Frame.wire ∧
        ∀ frame ∈ frames, limits.Admits frame.topic.length frame.payload.length := by
    intro begun
    induction begun with
    | nil => exact fun _ => ⟨[], rfl, by simp⟩
    | cons b begun ih =>
      intro hencodings
      obtain ⟨hhead, htail⟩ := List.forall_mem_cons.mp hencodings
      obtain ⟨frame, hencode⟩ := hhead
      obtain ⟨hadmits, hwire⟩ := encodeFrame_eq_ok_iff.mp hencode
      obtain ⟨frames, hframes, hrest⟩ := ih htail
      exact ⟨frame :: frames, by rw [List.map_cons, hwire, hframes],
        List.forall_mem_cons.mpr ⟨hadmits, hrest⟩⟩
  exact hall begun h.encodings

/-- However many threads send, whatever pieces the kernel makes of the stream and however the
calls of the receiver time out: it gets whole frames in the order in which they were begun, no
byte is lost or read twice, and when nothing is left over it has all of them. -/
theorem tcp_link_delivers_in_order
    (hwider : ∀ topicSize payloadSize, limits.Admits topicSize payloadSize →
      limits'.Admits topicSize payloadSize)
    {x : TcpSender Tid × List Bytes}
    (h : ((sendSystem Tid limits).recorded [] TcpSender.noteBegun).ReachableVia
      (fun y a => TcpSender.LockedAfterInterrupt y.1 a) x)
    {calls : List (List SocketEvent)}
    (hcalls : ∀ events ∈ calls, ∀ event ∈ events, event.healthy = true) :
    ∃ frames : List Frame, x.2 = frames.map Frame.wire ∧
      Delivered limits' x.1 frames
        (TcpConnection.receiveCalls { limits := limits', incoming := x.1.wire } calls) := by
  have hlogged := TcpSender.logged_of_reachable h
  obtain ⟨frames, hframes, hadmits⟩ := hlogged.exists_frames
  have hdecode (frame : Frame) (hframe : frame ∈ frames) :
      decodeBuffer frame.wire limits' = .ok frame :=
    decodeBuffer_wire (hwider _ _ (hadmits frame hframe))
  have hblock : ∀ block ∈ x.2, TcpConnection.IsBlock limits' block := by
    rw [hframes]
    intro block hblock
    obtain ⟨frame, hframe, rfl⟩ := List.mem_map.mp hblock
    exact TcpConnection.isBlock_wire (hwider _ _ (hadmits frame hframe))
  refine ⟨frames, hframes, ?_⟩
  -- the rest of a frame that is on its way is what the sender may still write
  obtain ⟨more, hmore, hpartial⟩ : ∃ more, x.2.flatten = x.1.wire ++ more ∧
      (more = [] ∨ ∃ complete part, x.2 = complete ++ [part ++ more] ∧ part ≠ []) := by
    rcases hlogged.ends with hwhole | ⟨complete, part, rest, hbegun, hpart, -, hwire⟩
    · exact ⟨[], by rw [hwhole, List.append_nil], .inl rfl⟩
    · exact ⟨rest, by simp [hbegun, hwire], .inr ⟨complete, part, hbegun, hpart⟩⟩
  let c : TcpConnection W := { limits := limits', incoming := x.1.wire }
  have hat : TcpConnection.AtBlock limits' x.2 (c.later more) := by
    refine ⟨rfl, rfl, hblock, hmore.symm, fun block rest hblocks => ?_⟩
    have hheader := (hblock block (hblocks ▸ List.mem_cons_self)).header_le
    have hpos : 0 < Frame.kHeaderSize := by decide
    exact hpos.trans_le hheader
  obtain ⟨used, hused, hrun⟩ := TcpConnection.receiveCalls_later c more hcalls
  obtain ⟨done, ahead, hsplit, hanswers, hstream, -, -⟩ :=
    (TcpConnection.receiveCalls_reassembled hat hused).answers
  rw [hrun] at hanswers hstream
  have hstream' : (c.receiveCalls calls).2.receiveBuffer ++
      ((c.receiveCalls calls).2.incoming ++ more) = ahead.flatten := hstream
  obtain ⟨count, hdone⟩ : ∃ count, done = (frames.take count).map Frame.wire := by
    have htake := congrArg (List.take done.length) (hframes.symm.trans hsplit)
    rw [List.take_left] at htake
    exact ⟨done.length, htake.symm.trans List.map_take.symm⟩
  have hcount : (c.receiveCalls calls).1.filterMap ReceiveResult.answer =
      (frames.take count).map .ok := by
    rw [hanswers, hdone, List.map_map]
    apply List.map_congr_left
    intro frame hframe
    exact hdecode frame (List.mem_of_mem_take hframe)
  refine ⟨⟨count, hcount, ?_⟩, fun hbuffer hincoming => ?_⟩
  · have hwire : (done.flatten ++ ((c.receiveCalls calls).2.receiveBuffer ++
        (c.receiveCalls calls).2.incoming)) ++ more = x.1.wire ++ more := by
      calc _ = done.flatten ++ ahead.flatten := by rw [← hstream']; simp
        _ = x.1.wire ++ more := by rw [← List.flatten_append, ← hsplit, hmore]
    rw [← hdone]
    exact List.append_cancel_right hwire
  · -- nothing of the wire is left over, so nothing is ahead
    have hahead : ahead = [] := by
      rw [hbuffer, hincoming, List.nil_append, List.nil_append] at hstream'
      by_contra hne
      rcases hpartial with rfl | ⟨complete, part, hbegun, hpart⟩
      · obtain ⟨block, rest, rfl⟩ := List.exists_cons_of_ne_nil hne
        have hheader := (hblock block (by rw [hsplit]; simp)).header_le
        have hpos : 0 < Frame.kHeaderSize := by decide
        have hlength := congrArg List.length hstream'
        simp only [List.length_nil, List.flatten_cons, List.length_append] at hlength
        omega
      · obtain ⟨middle, -, rfl⟩ := exists_of_append_eq_concat (hsplit.symm.trans hbegun) hne
        have hlength := congrArg List.length hstream'
        have hpos := List.length_pos_iff.mpr hpart
        simp only [List.flatten_append, List.flatten_cons, List.flatten_nil, List.append_nil,
          List.length_append] at hlength
        omega
    rw [hahead, List.append_nil] at hsplit
    have htake : ((frames.take count).map Frame.wire).length = (frames.map Frame.wire).length := by
      rw [← hdone, ← hsplit, hframes]
    rw [hcount, List.take_of_length_le]
    simp only [List.length_map, List.length_take] at htake
    omega

/-- Two threads send, the stream arrives in pieces with a timeout in the middle. -/
theorem tcp_link_delivers_in_order_two :
    ∃ x : TcpSender (Fin 2) × List Bytes, x.2.length = 2 ∧ ∃ frames : List Frame,
      x.2 = frames.map Frame.wire ∧
      Delivered ({} : FrameLimits .bits64) x.1 frames
        (TcpConnection.receiveCalls { limits := {}, incoming := x.1.wire }
          [[.received 39, .pollTimeout], [.received 99], [.received 9]]) := by
  obtain ⟨x, hx, hp⟩ :=
    ((sendSystem (Fin 2) ({} : FrameLimits .bits64)).recorded [] TcpSender.noteBegun
      ).exists_reachableVia_of_run (fun y a => TcpSender.LockedAfterInterrupt y.1 a) ({}, [])
    [.sendFrame 0 {}, .sendFrame 1 { sequence := 1 }, .lock 1, .send 1 (.sent 10),
      .send 1 .interrupted, .send 1 (.sent 46), .unlock 1, .lock 0, .send 0 (.sent 30)]
    (fun x => x.2.length = 2) ⟨rfl, rfl⟩ (by decide +kernel)
  exact ⟨x, of_decide_eq_true hp, tcp_link_delivers_in_order (fun _ _ h => h) hx (by decide)⟩

end Link
end RobotMiddleware
