import RobotMiddleware.FrameSafety
import RobotMiddleware.UdpModel

/-! Datagrams are judged one by one, and a network that loses, copies and reorders them cannot
make a frame that nobody has sent. -/
namespace RobotMiddleware

namespace UdpReceiver
variable {W : SizeT} {options : UdpTransportOptions W} {datagram : Bytes} {frame : Frame}

/-- The buffer behind the datagram has no influence on what is decoded. -/
theorem handleDatagram_of_le (h : datagram.length ≤ options.maxDatagramSize.toNat) :
    handleDatagram options datagram = decodeBuffer datagram options.frameLimits := by
  have hfill : fillBuffer options.maxDatagramSize.toNat datagram =
      datagram ++ List.replicate (options.maxDatagramSize.toNat - datagram.length) 0 := by
    rw [fillBuffer, List.take_of_length_le h]
  have hextends := decodeFrame_extendsTo options.frameLimits datagram
    (List.replicate (options.maxDatagramSize.toNat - datagram.length) 0) datagram.length
  unfold handleDatagram
  rw [if_neg (not_lt.mpr h), hfill]
  exact hextends decodeBuffer_inBounds

/-- A datagram is accepted as a frame exactly if it is the frame's encoding and fits. -/
theorem handleDatagram_eq_ok_iff : handleDatagram options datagram = .ok frame ↔
    datagram.length ≤ options.maxDatagramSize.toNat ∧
    options.frameLimits.Admits frame.topic.length frame.payload.length ∧
    datagram = frame.wire := by
  by_cases hle : datagram.length ≤ options.maxDatagramSize.toNat
  · rw [handleDatagram_of_le hle, decodeBuffer_eq_ok_iff]
    exact (and_iff_right hle).symm
  · have hlt : options.maxDatagramSize.toNat < datagram.length := not_le.mp hle
    unfold handleDatagram
    rw [if_pos hlt]
    exact iff_of_false (by simp) fun h => hle h.1

inductive CallView (r : UdpReceiver W) : ReceiveResult × UdpReceiver W → Prop
  | waiting : CallView r (.waiting, r)
  | timedOut : CallView r (.timedOut, r)
  | failed (what : String) : CallView r (.returned (.error (.transportError what)), r)
  | took (datagram : Bytes) (incoming : List Bytes) : r.incoming = datagram :: incoming →
      CallView r (.returned (handleDatagram r.options datagram), { r with incoming })

theorem receiveLoop_view (r : UdpReceiver W) (events : List DatagramEvent) :
    CallView r (receiveLoop r events) := by
  induction events with
  | nil => exact .waiting
  | cons event events ih =>
    cases event with
    | pollTimeout => exact .timedOut
    | pollAgain => exact ih
    | pollFailed reason => exact .failed _
    | pollInvalid => exact .failed _
    | socketError reason => cases reason <;> exact .failed _
    | received =>
      unfold receiveLoop
      split
      case h_1 => exact ih
      case h_2 datagram incoming hincoming => exact .took datagram incoming hincoming
    | transient expired =>
      cases expired with
      | true => exact .timedOut
      | false => exact ih
    | recvFailed reason => exact .failed _

/-- Every call leaves the socket alone or takes the datagram in front. -/
theorem receiveFrame_view (r : UdpReceiver W) (events : List DatagramEvent) :
    CallView r (r.receiveFrame events) := by
  unfold receiveFrame
  split
  · exact .failed _
  · exact receiveLoop_view r events

/-- On a healthy socket a call that returns something has taken a datagram. -/
theorem receiveFrame_healthy (r : UdpReceiver W) (hopen : r.socketOpen = true)
    {events : List DatagramEvent} (h : ∀ event ∈ events, event.healthy = true) :
    (r.receiveFrame events = (.waiting, r) ∨ r.receiveFrame events = (.timedOut, r)) ∨
      ∃ datagram incoming, r.incoming = datagram :: incoming ∧ r.receiveFrame events =
        (.returned (handleDatagram r.options datagram), { r with incoming }) := by
  have hcall : r.receiveFrame events = receiveLoop r events := by simp [receiveFrame, hopen]
  rw [hcall]
  clear hcall
  induction events with
  | nil => exact .inl (.inl rfl)
  | cons event events ih =>
    obtain ⟨hevent, hrest⟩ := List.forall_mem_cons.mp h
    cases event with
    | pollTimeout => exact .inl (.inr rfl)
    | pollAgain => exact ih hrest
    | received =>
      unfold receiveLoop
      split
      case h_1 => exact ih hrest
      case h_2 datagram incoming hincoming => exact .inr ⟨datagram, incoming, hincoming, rfl⟩
    | transient expired =>
      cases expired with
      | true => exact .inl (.inr rfl)
      | false => exact ih hrest
    | pollFailed reason => cases hevent
    | pollInvalid => cases hevent
    | socketError reason => cases hevent
    | recvFailed reason => cases hevent

/-- A call to which the kernel answers with a datagram, and not with a timeout, returns. -/
theorem receiveFrame_returns (r : UdpReceiver W) (hopen : r.socketOpen = true)
    {incoming : List Bytes} (hincoming : r.incoming = datagram :: incoming)
    {events : List DatagramEvent}
    (h : ∀ event ∈ events, event = .pollAgain ∨ event = .transient false ∨ event = .received)
    (hreceived : .received ∈ events) :
    r.receiveFrame events =
      (.returned (handleDatagram r.options datagram), { r with incoming }) := by
  have hcall : r.receiveFrame events = receiveLoop r events := by simp [receiveFrame, hopen]
  rw [hcall]
  clear hcall
  induction events with
  | nil => cases hreceived
  | cons event events ih =>
    obtain ⟨hevent, hrest⟩ := List.forall_mem_cons.mp h
    rcases hevent with rfl | rfl | rfl
    · exact ih hrest ((List.mem_cons.mp hreceived).resolve_left nofun)
    · exact ih hrest ((List.mem_cons.mp hreceived).resolve_left nofun)
    · simp [receiveLoop, hincoming]

theorem receiveCalls_of_waiting {r : UdpReceiver W} {events : List DatagramEvent}
    (h : r.receiveFrame events = (.waiting, r)) (calls : List (List DatagramEvent)) :
    r.receiveCalls (events :: calls) = ([.waiting], r) := by
  rw [receiveCalls, h]

theorem receiveCalls_of_ne {r r' : UdpReceiver W} {events : List DatagramEvent}
    {result : ReceiveResult} (h : r.receiveFrame events = (result, r')) (hne : result ≠ .waiting)
    (calls : List (List DatagramEvent)) : r.receiveCalls (events :: calls) =
      (result :: (r'.receiveCalls calls).1, (r'.receiveCalls calls).2) := by
  rw [receiveCalls, h]
  cases result with
  | waiting => exact absurd rfl hne
  | timedOut | returned answer => rfl

/-- A run of calls answers with the verdicts on the datagrams in front, in their order, and
leaves the rest in the socket. -/
theorem receiveCalls_spec (r : UdpReceiver W) (hopen : r.socketOpen = true)
    {calls : List (List DatagramEvent)}
    (hcalls : ∀ events ∈ calls, ∀ event ∈ events, event.healthy = true) :
    ∃ count, (r.receiveCalls calls).1.filterMap ReceiveResult.answer =
        (r.incoming.take count).map (handleDatagram r.options) ∧
      (r.receiveCalls calls).2 = { r with incoming := r.incoming.drop count } := by
  induction calls generalizing r with
  | nil => exact ⟨0, rfl, rfl⟩
  | cons events calls ih =>
    obtain ⟨hevents, hrest⟩ := List.forall_mem_cons.mp hcalls
    rcases r.receiveFrame_healthy hopen hevents with
      (hwaiting | htimedOut) | ⟨datagram, incoming, hincoming, htook⟩
    · rw [receiveCalls_of_waiting hwaiting]
      exact ⟨0, rfl, rfl⟩
    · rw [receiveCalls_of_ne htimedOut (by simp)]
      exact ih r hopen hrest
    · rw [receiveCalls_of_ne htook (by simp)]
      obtain ⟨count, hanswers, hleft⟩ := ih { r with incoming } hopen hrest
      refine ⟨count + 1, ?_, ?_⟩
      · rw [hincoming, List.take_succ_cons, List.map_cons, ← hanswers]
        rfl
      · rw [hincoming, List.drop_succ_cons]
        exact hleft

/-- Whatever datagrams arrive: each of them gets the verdict that it would get alone, in the
order of arrival, calls that time out take none, and only the whole encoding of an admitted
frame is accepted. -/
theorem datagrams_judged_apart (options : UdpTransportOptions W) (datagrams : List Bytes)
    {calls : List (List DatagramEvent)}
    (hcalls : ∀ events ∈ calls, ∀ event ∈ events, event.healthy = true) :
    let run := receiveCalls { options, incoming := datagrams } calls
    (∃ count, run.1.filterMap ReceiveResult.answer =
        (datagrams.take count).map (handleDatagram options) ∧
      run.2 = { options, incoming := datagrams.drop count }) ∧
    (∀ datagram frame, handleDatagram options datagram = .ok frame ↔
      datagram.length ≤ options.maxDatagramSize.toNat ∧
      options.frameLimits.Admits frame.topic.length frame.payload.length ∧
      datagram = frame.wire) ∧
    ∀ datagram incoming, run.2.incoming = datagram :: incoming → ∀ events,
      (∀ event ∈ events, event = .pollAgain ∨ event = .transient false ∨ event = .received) →
      .received ∈ events →
      run.2.receiveFrame events =
        (.returned (handleDatagram options datagram), { options, incoming }) := by
  intro run
  have hspec := receiveCalls_spec { options, incoming := datagrams } rfl hcalls
  refine ⟨hspec, fun _ _ => handleDatagram_eq_ok_iff, fun datagram incoming hincoming events => ?_⟩
  intro hevents hreceived
  obtain ⟨count, -, hrun⟩ := hspec
  have hopen : run.2.socketOpen = true := congrArg socketOpen hrun
  have hoptions : run.2.options = options := congrArg UdpReceiver.options hrun
  rw [run.2.receiveFrame_returns hopen hincoming hevents hreceived, hoptions, hopen]

/-- A damaged datagram, one that is too long, and a good one behind them. -/
theorem datagrams_judged_apart_damaged :
    let options : UdpTransportOptions .bits64 := { maxDatagramSize := 60 }
    let good := Frame.wire { topic := [97] }
    let calls : List (List DatagramEvent) :=
      [[.received], [.pollTimeout], [.transient false, .received], [.pollAgain, .received]]
    let run := receiveCalls { options, incoming := [good.set 56 98, good ++ good, good] } calls
    run.1 = [.returned (.error (.transportError "frame CRC32 mismatch")), .timedOut,
      .returned (.error (.transportError
        "received UDP datagram exceeds configured maximum size")),
      .returned (.ok { topic := [97] })] ∧
    ∃ count, run.1.filterMap ReceiveResult.answer =
      ([good.set 56 98, good ++ good, good].take count).map (handleDatagram options) := by
  intro options good calls run
  have hcalls : ∀ events ∈ calls, ∀ event ∈ events, event.healthy = true := by decide
  obtain ⟨count, hanswers, -⟩ :=
    (datagrams_judged_apart options [good.set 56 98, good ++ good, good] hcalls).1
  exact ⟨by decide +kernel, count, hanswers⟩

end UdpReceiver

namespace UdpLink
variable {W : SizeT} {options options' : UdpTransportOptions W} {s s' : UdpLink W}

/-- A sent datagram is the whole encoding of its frame, and fits the sender. -/
theorem sendFrame_eq_sent {sender : UdpSender W} {frame : Frame} {results : List SendtoResult}
    {datagram : Bytes} (h : sender.sendFrame frame results = .sent datagram) :
    datagram = frame.wire ∧ datagram.length ≤ sender.options.maxDatagramSize.toNat ∧
      sender.options.frameLimits.Admits frame.topic.length frame.payload.length := by
  have hloop (encoded : Bytes) (results : List SendtoResult)
      (hsent : UdpSender.sendto encoded results = .sent datagram) : datagram = encoded := by
    induction results with
    | nil => cases hsent
    | cons result results ih =>
      cases result with
      | interrupted => exact ih hsent
      | failed reason => cases hsent
      | sent count =>
        unfold UdpSender.sendto at hsent
        split at hsent
        case isTrue =>
          cases hsent
          rfl
        case isFalse => cases hsent
  unfold UdpSender.sendFrame at h
  split at h
  case h_1 => cases h
  case h_2 encoded hencode =>
    obtain ⟨hadmits, rfl⟩ := encodeFrame_eq_ok_iff.mp hencode
    unfold UdpSender.sendDatagram at h
    split_ifs at h with hclosed hnull hsize
    have heq := hloop _ _ h
    rw [Option.getD_some, List.take_length] at heq
    exact ⟨heq, heq ▸ not_lt.mp hsize, hadmits⟩

structure Accounted (options options' : UdpTransportOptions W) (s : UdpLink W) : Prop where
  senderOptions : s.sender.options = options
  receiverOptions : s.receiver.options = options'
  conserved : s.network.Conserved
  sent : s.network.sent = s.sentFrames.map Frame.wire
  fits : ∀ frame ∈ s.sentFrames, frame.wire.length ≤ options.maxDatagramSize.toNat ∧
    options.frameLimits.Admits frame.topic.length frame.payload.length
  judged : ∃ taken, s.network.delivered = taken ++ s.receiver.incoming ∧
    s.answers = taken.map (UdpReceiver.handleDatagram options')

namespace Accounted

/-- Only the order or the number of the datagrams on their way changes. -/
theorem beside {network : LossyNetwork Bytes} (h : Accounted options options' s)
    (hconserved : network.Conserved) (hsent : network.sent = s.network.sent)
    (hdelivered : network.delivered = s.network.delivered) :
    Accounted options options' { s with network } :=
  ⟨h.senderOptions, h.receiverOptions, hconserved, hsent.trans h.sent, h.fits, by
    show ∃ taken, network.delivered = _ ∧ _
    rw [hdelivered]
    exact h.judged⟩

theorem step {a : UdpLinkAction} (h : Accounted options options' s) (hs : s.step a = some s') :
    Accounted options options' s' := by
  cases a with
  | sendFrame frame results =>
    simp only [UdpLink.step] at hs
    split at hs
    case h_1 datagram hsend =>
      cases hs
      obtain ⟨rfl, hfits, hadmits⟩ := sendFrame_eq_sent hsend
      rw [h.senderOptions] at hfits hadmits
      refine ⟨h.senderOptions, h.receiverOptions, h.conserved.send _, ?_, ?_, h.judged⟩
      · show s.network.sent ++ [frame.wire] = (s.sentFrames ++ [frame]).map Frame.wire
        rw [h.sent, List.map_append]
        rfl
      · intro other hother
        rcases List.mem_append.mp hother with hother | hother
        · exact h.fits other hother
        · obtain rfl := List.mem_singleton.mp hother
          exact ⟨hfits, hadmits⟩
    case h_2 =>
      cases hs
      exact h
    case h_3 => cases hs
  | lose datagram =>
    obtain ⟨network, hnetwork, rfl⟩ := Option.map_eq_some_iff.mp hs
    have hconserved := h.conserved.lose hnetwork
    obtain ⟨-, heq⟩ := Option.ite_none_right_eq_some.mp hnetwork
    cases heq
    exact h.beside hconserved rfl rfl
  | duplicate datagram =>
    obtain ⟨network, hnetwork, rfl⟩ := Option.map_eq_some_iff.mp hs
    have hconserved := h.conserved.duplicate hnetwork
    obtain ⟨-, heq⟩ := Option.ite_none_right_eq_some.mp hnetwork
    cases heq
    exact h.beside hconserved rfl rfl
  | deliver datagram =>
    obtain ⟨network, hnetwork, rfl⟩ := Option.map_eq_some_iff.mp hs
    have hconserved := h.conserved.deliver hnetwork
    obtain ⟨-, heq⟩ := Option.ite_none_right_eq_some.mp hnetwork
    cases heq
    obtain ⟨taken, hdelivered, hanswers⟩ := h.judged
    refine ⟨h.senderOptions, h.receiverOptions, hconserved, h.sent, h.fits, taken, ?_, hanswers⟩
    show s.network.delivered ++ [datagram] = taken ++ (s.receiver.incoming ++ [datagram])
    rw [hdelivered, List.append_assoc]
  | receiveFrame events =>
    simp only [UdpLink.step] at hs
    have hview := s.receiver.receiveFrame_view events
    generalize s.receiver.receiveFrame events = r at hview hs
    cases hview with
    | waiting => cases hs
    | timedOut =>
      cases hs
      exact h
    | failed what =>
      simp only [↓reduceIte] at hs
      cases hs
      exact h
    | took datagram incoming hincoming =>
      have hne : incoming ≠ s.receiver.incoming := by
        intro heq
        have hlength := congrArg List.length (heq.trans hincoming)
        simp at hlength
      simp only [if_neg hne] at hs
      cases hs
      obtain ⟨taken, hdelivered, hanswers⟩ := h.judged
      refine ⟨h.senderOptions, h.receiverOptions, h.conserved, h.sent, h.fits,
        taken ++ [datagram], ?_, ?_⟩
      · show s.network.delivered = taken ++ [datagram] ++ incoming
        rw [hdelivered, hincoming, List.append_assoc]
        rfl
      · show s.answers ++ _ = _
        rw [hanswers, h.receiverOptions, List.map_append]
        rfl

/-- A datagram that has been taken is the encoding of a frame that was sent. -/
theorem exists_sent_of_taken (h : Accounted options options' s) {taken : List Bytes}
    (hdelivered : s.network.delivered = taken ++ s.receiver.incoming) {datagram : Bytes}
    (hmem : datagram ∈ taken) : ∃ frame ∈ s.sentFrames, datagram = frame.wire := by
  have harrived : datagram ∈ s.network.delivered := by
    rw [hdelivered]
    exact List.mem_append_left _ hmem
  have hsent := h.conserved.mem_sent (.inl harrived)
  rw [h.sent] at hsent
  obtain ⟨frame, hframe, hwire⟩ := List.mem_map.mp hsent
  exact ⟨frame, hframe, hwire.symm⟩

/-- The network makes no frames. -/
theorem mem_sentFrames (h : Accounted options options' s) {frame : Frame}
    (hframe : .ok frame ∈ s.answers) : frame ∈ s.sentFrames := by
  obtain ⟨taken, hdelivered, hanswers⟩ := h.judged
  rw [hanswers] at hframe
  obtain ⟨datagram, hmem, hverdict⟩ := List.mem_map.mp hframe
  obtain ⟨-, hadmits, rfl⟩ := UdpReceiver.handleDatagram_eq_ok_iff.mp hverdict
  obtain ⟨other, hother, hwire⟩ := h.exists_sent_of_taken hdelivered hmem
  obtain rfl := wire_injective hadmits (h.fits other hother).2 hwire
  exact hother

end Accounted

theorem accounted_of_reachable (h : (udpLinkSystem options options').Reachable s) :
    Accounted options options' s := by
  refine h.invariant ?_ fun s a s' _ haccounted hs => haccounted.step hs
  rintro s ⟨-, -, rfl⟩
  exact ⟨rfl, rfl, .empty, rfl, by simp, [], rfl, rfl⟩

/-- How often a frame has been received, is waiting, is on its way or is lost is how often it
was sent and copied, and nothing else is received. -/
structure Conserved (options' : UdpTransportOptions W) (s : UdpLink W) : Prop where
  received_sent : ∀ frame, .ok frame ∈ s.answers → frame ∈ s.sentFrames
  counts : ∀ frame, UdpReceiver.handleDatagram options' frame.wire = .ok frame →
    s.answers.count (.ok frame) + s.receiver.incoming.count frame.wire +
        s.network.inFlight.count frame.wire + s.network.lost.count frame.wire =
      s.sentFrames.count frame + s.network.copies.count frame.wire

theorem count_map_eq {α β : Type} [BEq α] [LawfulBEq α] [BEq β] [LawfulBEq β] {f : α → β}
    {l : List α} {a : α} {b : β} (h : ∀ a' ∈ l, f a' = b ↔ a' = a) :
    (l.map f).count b = l.count a := by
  rw [List.count_eq_countP, List.count_eq_countP, List.countP_map]
  apply List.countP_congr
  intro a' ha'
  simp only [Function.comp_apply, beq_iff_eq]
  exact h a' ha'

/-- Over a network that loses, copies and reorders datagrams as it likes: only frames that were
sent are received, each frame is accounted for, and between compatible ends nothing that arrives
is refused. -/
theorem udp_link_conserves (h : (udpLinkSystem options options').Reachable s) :
    Conserved options' s ∧
    (options.maxDatagramSize.toNat ≤ options'.maxDatagramSize.toNat →
      (∀ topicSize payloadSize, options.frameLimits.Admits topicSize payloadSize →
        options'.frameLimits.Admits topicSize payloadSize) →
      ∀ answer ∈ s.answers, ∃ frame ∈ s.sentFrames, answer = .ok frame) := by
  have haccounted := accounted_of_reachable h
  obtain ⟨taken, hdelivered, hanswers⟩ := haccounted.judged
  refine ⟨⟨fun frame => haccounted.mem_sentFrames, fun frame haccepted => ?_⟩,
    fun hsize hlimits answer hanswer => ?_⟩
  · have hcounts := haccounted.conserved.counts frame.wire
    obtain ⟨hfits, hadmits, -⟩ := UdpReceiver.handleDatagram_eq_ok_iff.mp haccepted
    have hreceived : s.answers.count (.ok frame) = taken.count frame.wire := by
      rw [hanswers]
      apply count_map_eq
      intro datagram _
      rw [UdpReceiver.handleDatagram_eq_ok_iff]
      constructor
      · exact fun hverdict => hverdict.2.2
      · rintro rfl
        exact ⟨hfits, hadmits, rfl⟩
    have hsent : s.network.sent.count frame.wire = s.sentFrames.count frame := by
      rw [haccounted.sent]
      apply count_map_eq
      intro other hother
      constructor
      · exact fun hwire => wire_injective (haccounted.fits other hother).2 hadmits hwire
      · rintro rfl
        rfl
    rw [hdelivered, List.count_append] at hcounts
    omega
  · rw [hanswers] at hanswer
    obtain ⟨datagram, hmem, rfl⟩ := List.mem_map.mp hanswer
    obtain ⟨frame, hframe, rfl⟩ := haccounted.exists_sent_of_taken hdelivered hmem
    obtain ⟨hfits, hadmits⟩ := haccounted.fits frame hframe
    exact ⟨frame, hframe, UdpReceiver.handleDatagram_eq_ok_iff.mpr
      ⟨hfits.trans hsize, hlimits _ _ hadmits, rfl⟩⟩

/-- Two frames are sent, the first is copied and overtaken, and one copy of it is lost. -/
theorem udp_link_conserves_reordered : ∃ s : UdpLink .bits64,
    s.answers = [.ok { sequence := 2 }, .ok { sequence := 1 }] ∧ s.network.lost.length = 1 ∧
    Conserved {} s ∧ ∀ answer ∈ s.answers, ∃ frame ∈ s.sentFrames, answer = .ok frame := by
  let first : Frame := { sequence := 1 }
  let second : Frame := { sequence := 2 }
  let M := udpLinkSystem ({} : UdpTransportOptions .bits64) {}
  obtain ⟨s, hs, hp⟩ := M.exists_reachable_of_run { sender := {}, receiver := {} }
    [.sendFrame first [.interrupted, .sent 56], .duplicate first.wire,
      .sendFrame second [.sent 56], .deliver second.wire, .deliver first.wire, .lose first.wire,
      .receiveFrame [.received], .receiveFrame [.pollTimeout],
      .receiveFrame [.pollAgain, .received]]
    (fun s => s.answers = [.ok second, .ok first] && s.network.lost.length = 1)
    ⟨by decide, by decide, rfl⟩ (by decide +kernel)
  rw [Bool.and_eq_true, decide_eq_true_iff, decide_eq_true_iff] at hp
  obtain ⟨hconserved, hall⟩ := udp_link_conserves hs
  exact ⟨s, hp.1, hp.2, hconserved, hall le_rfl fun _ _ h => h⟩

end UdpLink
end RobotMiddleware
