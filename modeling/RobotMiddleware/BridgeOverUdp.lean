import RobotMiddleware.BridgeEpochs
import RobotMiddleware.BridgeLink
import RobotMiddleware.BridgeRestart
import RobotMiddleware.UdpDatagrams

/-! Two bridges with datagrams between them. The sender thread of the one hands its frames to
`UdpSender::send_frame`, and a thread hands what `UdpReceiver::receive_frame` returns to the
`receive_frame` of the other. The network loses, copies and reorders. -/
namespace RobotMiddleware

structure UdpBridge (W : SizeT) where
  source : ExportState
  link : UdpLink W
  destination : ImportState

inductive UdpBridgeAction
  | source (a : ExportAction)
  /-- The sender thread takes the frame in front and sends it, or fails to. -/
  | send (results : List SendtoResult)
  /-- The network, and senders of frames of other publishers. -/
  | link (a : UdpLinkAction)
  | receive (events : List DatagramEvent)
  | destination (a : ImportAction)

/-- The frame with which a call of `receive_frame` begins. -/
def ImportAction.received : ImportAction → Option Frame
  | .receive frame => some frame
  | _ => none

/-- The frame that a step of the link sends; `none` if it is the receiver's step. -/
def UdpLinkAction.sends : UdpLinkAction → Option (Option Frame)
  | .sendFrame frame _ => some (some frame)
  | .lose _ | .duplicate _ | .deliver _ => some none
  | .receiveFrame _ => none

namespace UdpBridge
variable {W : SizeT}

def publisherId (s : UdpBridge W) : BitVec 64 :=
  s.source.bridge.publisherId

def deliver (destination : ImportState) : ReceiveResult → Option ImportState
  | .returned (.ok frame) => destination.step (.receive frame)
  | _ => some destination

def step (s : UdpBridge W) : UdpBridgeAction → Option (UdpBridge W)
  | .source .take => none
  | .source a => (s.source.step a).map fun source => { s with source }
  | .send results =>
    match s.source.bridge.outbound with
    | frame :: _ => do
      let source ← s.source.step .take
      let link ← s.link.step (.sendFrame frame results)
      return { s with source, link }
    | [] => none
  | .link a =>
    match a.sends with
    | some sent =>
      if ∀ frame ∈ sent, frame.publisherId ≠ s.publisherId then
        (s.link.step a).map fun link => { s with link }
      else none
    | none => none
  | .receive events =>
    -- the thread receives again when `receive_frame` of the bridge has returned
    if s.destination.callsOf s.publisherId = 0 then do
      let link ← s.link.step (.receiveFrame events)
      let destination ← deliver s.destination (s.link.receiver.receiveFrame events).1
      return { s with link, destination }
    else none
  | .destination a =>
    if ∀ frame ∈ a.received, frame.publisherId ≠ s.publisherId then
      (s.destination.step a).map fun destination => { s with destination }
    else none

end UdpBridge

/-- A fresh source, an empty network, and an importing bridge that has not seen the source's
publisher id. -/
def udpBridgeSystem {W : SizeT} (options options' : UdpTransportOptions W)
    (exportOptions importOptions : NetworkBridgeOptions) (defaultPublisherId : BitVec 64) :
    TransitionSystem (UdpBridge W) UdpBridgeAction where
  init s := (exportSystem exportOptions defaultPublisherId).init s.source ∧
    (udpLinkSystem options options').init s.link ∧
    (importSystem importOptions).Reachable s.destination ∧
    (∀ call ∈ s.destination.calls, call.frame.publisherId ≠ s.publisherId) ∧
    ∀ frame ∈ s.destination.checked, frame.publisherId ≠ s.publisherId
  step := UdpBridge.step

namespace ExportState
variable {s s' : ExportState} {a : ExportAction}

/-- The clock that a callback reads has not gone back behind the frames of its topic. -/
def ClockForward (s : ExportState) : ExportAction → Prop
  | .callback topic _ now => ∀ f ∈ s.emitted, f.topic = topic → f.sendTimeNs ≤ now
  | _ => True

instance (s : ExportState) : ∀ a, Decidable (s.ClockForward a)
  | .callback topic _ now =>
    inferInstanceAs (Decidable (∀ f ∈ s.emitted, f.topic = topic → f.sendTimeNs ≤ now))
  | .addExport .. | .emit _ | .take | .stop => .isTrue trivial

/-- The send times of a topic do not decrease, and the one being built has the last. -/
structure Timed (s : ExportState) : Prop where
  building : ∀ topic f, s.building topic = some f → f.topic = topic ∧
    ∀ g ∈ s.emitted, g.topic = topic → g.sendTimeNs ≤ f.sendTimeNs
  emitted : s.emitted.Pairwise fun f g => f.topic = g.topic → f.sendTimeNs ≤ g.sendTimeNs

theorem makeFrame_sendTimeNs {topic payload : Bytes} {route : ExportRoute}
    {sequence publisherId now : BitVec 64} {frame : Frame}
    (h : makeFrame topic route payload sequence publisherId now = .ok frame) :
    frame.sendTimeNs = now := by
  unfold makeFrame at h
  split at h
  · cases h
  · split at h
    · cases h
    · cases h
      rfl

theorem Timed.of_eq (h : s.Timed) (hbuilding : s'.building = s.building)
    (hemitted : s'.emitted = s.emitted) : s'.Timed := by
  refine ⟨?_, ?_⟩
  · rw [hbuilding, hemitted]
    exact h.building
  · rw [hemitted]
    exact h.emitted

theorem Timed.callback {topic payload : Bytes} {now : BitVec 64} (h : s.Timed)
    (hs : s.step (.callback topic payload now) = some s')
    (hclock : ∀ f ∈ s.emitted, f.topic = topic → f.sendTimeNs ≤ now) : s'.Timed := by
  simp only [step] at hs
  split at hs
  case h_1 route hroute hidle =>
    split at hs
    case h_1 frame hframe =>
      cases hs
      refine ⟨fun t f hf => ?_, h.emitted⟩
      rcases update_eq_some hf with ⟨rfl, hnew⟩ | hold
      · cases hnew
        have htime : frame.sendTimeNs = now := makeFrame_sendTimeNs hframe
        refine ⟨(makeFrame_eq_ok hframe).1, fun g hg hgt => ?_⟩
        rw [htime]
        exact hclock g hg hgt
      · exact h.building t f hold
    case h_2 =>
      cases hs
      exact h.of_eq rfl rfl
  case h_2 => cases hs

theorem Timed.emit {topic : Bytes} {frame : Frame} (h : s.Timed)
    (hframe : s.building topic = some frame)
    (hbuilding : s'.building = Function.update s.building topic none)
    (hemitted : s'.emitted = s.emitted ++ [frame] ∨ s'.emitted = s.emitted) : s'.Timed := by
  obtain ⟨htopic, hlast⟩ := h.building topic frame hframe
  have hold {t : Bytes} {f : Frame} (hf : s'.building t = some f) :
      t ≠ topic ∧ s.building t = some f := by
    rw [hbuilding] at hf
    constructor
    · rintro rfl
      rw [Function.update_self] at hf
      cases hf
    · rcases update_eq_some hf with ⟨-, hnone⟩ | hsome
      · cases hnone
      · exact hsome
  rcases hemitted with hpushed | hdropped
  · refine ⟨fun t f hf => ?_, ?_⟩
    · obtain ⟨hne, hf⟩ := hold hf
      obtain ⟨hft, hbefore⟩ := h.building t f hf
      refine ⟨hft, fun g hg hgt => ?_⟩
      rw [hpushed] at hg
      rcases List.mem_append.mp hg with hg | hg
      · exact hbefore g hg hgt
      · obtain rfl := List.mem_singleton.mp hg
        exact absurd (hgt.symm.trans htopic) hne
    · rw [hpushed]
      refine List.pairwise_append.mpr ⟨h.emitted, List.pairwise_singleton _ _, ?_⟩
      intro g hg f hf hsame
      obtain rfl := List.mem_singleton.mp hf
      exact hlast g hg (hsame.trans htopic)
  · refine ⟨fun t f hf => ?_, ?_⟩
    · rw [hdropped]
      exact h.building t f (hold hf).2
    · rw [hdropped]
      exact h.emitted

/-- Only a callback draws a number. -/
theorem draws_of_step (hs : s.step a = some s')
    (hother : ∀ topic payload now, a ≠ .callback topic payload now) : s'.draws = s.draws := by
  cases a with
  | callback topic payload now => exact absurd rfl (hother topic payload now)
  | addExport remoteTopic route =>
    simp only [step] at hs
    split at hs <;> cases hs <;> rfl
  | emit topic =>
    simp only [step] at hs
    split at hs
    · cases hs
      rfl
    · cases hs
  | take =>
    simp only [step] at hs
    split at hs
    · cases hs
      rfl
    · cases hs
  | stop =>
    cases hs
    rfl

theorem Timed.step (h : s.Timed) (hs : s.step a = some s') (hclock : s.ClockForward a) :
    s'.Timed := by
  by_cases hcallback : ∃ topic payload now, a = .callback topic payload now
  · obtain ⟨topic, payload, now, rfl⟩ := hcallback
    exact h.callback hs hclock
  · have hdraws : s'.draws = s.draws :=
      draws_of_step hs fun topic payload now heq => hcallback ⟨topic, payload, now, heq⟩
    cases (step_view hs).1 with
    | quiet _ _ hbuilding hemitted => exact h.of_eq hbuilding hemitted
    | built _ _ _ hmore => omega
    | wasted _ hmore => omega
    | emitted topic frame _ _ hframe hbuilding hemitted => exact h.emit hframe hbuilding hemitted

/-- Of two frames of a topic the one with the smaller number was not sent later. -/
theorem emitted_trichotomy (hordered : s.Ordered) (h : s.Timed) {f g : Frame} (hf : f ∈ s.emitted)
    (hg : g ∈ s.emitted) (htopic : f.topic = g.topic) :
    f = g ∨ f.sequence < g.sequence ∧ f.sendTimeNs ≤ g.sendTimeNs ∨
      g.sequence < f.sequence ∧ g.sendTimeNs ≤ f.sendTimeNs := by
  have hboth := hordered.increasing.and h.emitted
  let related (f g : Frame) : Prop := f.topic = g.topic → f = g ∨
    f.sequence < g.sequence ∧ f.sendTimeNs ≤ g.sendTimeNs ∨
      g.sequence < f.sequence ∧ g.sendTimeNs ≤ f.sendTimeNs
  have hforth : s.emitted.Pairwise related :=
    hboth.imp fun hxy hsame => .inr (.inl ⟨hxy.1 hsame, hxy.2 hsame⟩)
  have hback : s.emitted.Pairwise (flip related) :=
    hboth.imp fun hxy hsame => .inr (.inr ⟨hxy.1 hsame.symm, hxy.2 hsame.symm⟩)
  have hself (x : Frame) (_ : x ∈ s.emitted) : related x x := fun _ => .inl rfl
  exact List.Pairwise.forall_of_forall_of_flip hself hforth hback hf hg htopic

end ExportState

namespace ImportState
variable {options : NetworkBridgeOptions} {s s' : ImportState} {a : ImportAction}
  {id : BitVec 64} {frame : Frame} {known : Frame → Prop}

def acceptedOf (s : ImportState) (id : BitVec 64) : List Frame :=
  s.accepted.filter fun frame => frame.publisherId = id

structure Brought (known : Frame → Prop) (s : ImportState) : Prop where
  calls : ∀ call ∈ s.calls, known call.frame
  checked : ∀ frame ∈ s.checked, known frame

theorem Brought.cons_erase (h : s.Brought known) {call next : ReceiveCall} (hmem : call ∈ s.calls)
    (hframe : next.frame = call.frame) : ∀ c ∈ next ::ₘ s.calls.erase call, known c.frame := by
  intro c hc
  rcases Multiset.mem_cons.mp hc with rfl | hc
  · exact hframe ▸ h.calls call hmem
  · exact h.calls c (Multiset.mem_of_mem_erase hc)

theorem Brought.step (h : s.Brought known) (hs : s.step a = some s')
    (hreceived : ∀ frame ∈ a.received, known frame) : s'.Brought known := by
  cases a with
  | addImport remoteTopic route =>
    simp only [ImportState.step] at hs
    split at hs <;> cases hs <;> exact ⟨h.calls, h.checked⟩
  | stop =>
    cases hs
    exact ⟨h.calls, h.checked⟩
  | receive frame =>
    simp only [ImportState.step] at hs
    split at hs
    · cases hs
      exact ⟨h.calls, h.checked⟩
    · split at hs <;> cases hs
      · exact ⟨h.calls, h.checked⟩
      · exact ⟨h.calls, h.checked⟩
      · refine ⟨fun c hc => ?_, h.checked⟩
        rcases Multiset.mem_cons.mp hc with rfl | hc
        · exact hreceived frame rfl
        · exact h.calls c hc
  | lookup frame =>
    obtain ⟨hmem, hs⟩ := Option.ite_none_right_eq_some.mp hs
    split at hs <;> cases hs
    · exact ⟨h.cons_erase hmem rfl, h.checked⟩
    · exact ⟨fun c hc => h.calls c (Multiset.mem_of_mem_erase hc), h.checked⟩
  | reserve frame =>
    obtain ⟨hmem, hs⟩ := Option.ite_none_right_eq_some.mp hs
    have hchecked (verdict : Bool) :
        ∀ f ∈ (s.history.verdicts ++ [(frame, verdict)]).map Prod.fst, known f := by
      intro f hf
      rw [List.map_append, List.mem_append] at hf
      rcases hf with hf | hf
      · exact h.checked f hf
      · obtain rfl := List.mem_singleton.mp hf
        exact h.calls _ hmem
    split at hs <;> cases hs
    · exact ⟨h.cons_erase hmem rfl, hchecked _⟩
    · exact ⟨fun c hc => h.calls c (Multiset.mem_of_mem_erase hc), hchecked _⟩
  | enter frame =>
    obtain ⟨hmem, hs⟩ := Option.ite_none_right_eq_some.mp hs
    cases hs
    exact ⟨h.cons_erase hmem rfl, h.checked⟩
  | finish frame threw =>
    obtain ⟨hmem, hs⟩ := Option.ite_none_right_eq_some.mp hs
    cases hs
    exact ⟨fun c hc => h.calls c (Multiset.mem_of_mem_erase hc), h.checked⟩

def pending : Option ReceiveCall → List Frame
  | some (.reserved frame) => [frame]
  | _ => []

/-- The publisher has at most one call, so its frames enter handlers in the order in which they
are let through. -/
def Sequential (id : BitVec 64) (s : ImportState) : Prop :=
  ∃ call : Option ReceiveCall, s.callsOf id = ↑call.toList ∧
    s.acceptedOf id = s.enteredOf id ++ pending call

theorem acceptedOf_eq (s : ImportState) (id : BitVec 64) :
    s.acceptedOf id = KeyedFilter.passed (s.verdictsOf id) := by
  unfold acceptedOf accepted verdictsOf KeyedFilter.passed
  rw [List.filter_map, List.filter_filter, List.filter_filter]
  simp only [Function.comp_def, Bool.and_comm]

theorem Sequential.of_undisturbed (h : s.Sequential id) (hs : Undisturbed id s s') :
    s'.Sequential id := by
  obtain ⟨call, hcalls, horder⟩ := h
  refine ⟨call, hs.calls.trans hcalls, ?_⟩
  rw [acceptedOf_eq, hs.verdicts, ← acceptedOf_eq, horder, hs.entered]

/-- A call that is there is the one. -/
theorem Sequential.of_mem (h : s.Sequential id) {call : ReceiveCall} (hmem : call ∈ s.calls)
    (hid : call.frame.publisherId = id) :
    s.callsOf id = {call} ∧ s.acceptedOf id = s.enteredOf id ++ pending (some call) := by
  obtain ⟨other, hcalls, horder⟩ := h
  have hmem' : call ∈ s.callsOf id := Multiset.mem_filter.mpr ⟨hmem, hid⟩
  rw [hcalls] at hmem'
  cases other with
  | none => cases hmem'
  | some other =>
    obtain rfl := List.mem_singleton.mp hmem'
    exact ⟨hcalls, horder⟩

theorem Sequential.step (h : s.Sequential id) (hs : s.step a = some s')
    (hreceived : ∀ frame ∈ a.received, frame.publisherId = id → s.callsOf id = 0) :
    s'.Sequential id := by
  by_cases hother : ∀ frame ∈ a.frame, frame.publisherId ≠ id
  · by_cases hstop : a = .stop
    · subst hstop
      cases hs
      exact h
    · exact h.of_undisturbed (undisturbed_of_step hs hother hstop)
  · push Not at hother
    obtain ⟨frame, hframe, hid⟩ := hother
    cases a with
    | addImport remoteTopic route => cases hframe
    | stop => cases hframe
    | receive f =>
      obtain rfl : f = frame := Option.some.inj hframe
      have hnone : s.callsOf id = 0 := hreceived f rfl hid
      simp only [ImportState.step] at hs
      split at hs
      · cases hs
        exact h
      · split at hs <;> cases hs
        · exact h
        · exact h
        · obtain ⟨call, hcalls, horder⟩ := h
          have hcall : call = none := by
            rw [hnone] at hcalls
            cases call with
            | none => rfl
            | some call => exact absurd hcalls.symm (Multiset.singleton_ne_zero call)
          subst hcall
          refine ⟨some (.routing f), ?_, horder⟩
          refine (filter_cons_of_eq (.routing f) hid s.calls).trans ?_
          rw [← callsOf, hnone]
          rfl
    | lookup f =>
      obtain rfl : f = frame := Option.some.inj hframe
      obtain ⟨hmem, hs⟩ := Option.ite_none_right_eq_some.mp hs
      obtain ⟨hcalls, horder⟩ := h.of_mem hmem hid
      split at hs <;> cases hs
      · exact ⟨some (.matched f), callsOf_next hcalls hid, horder⟩
      · exact ⟨none, callsOf_erase hcalls, horder⟩
    | reserve f =>
      obtain rfl : f = frame := Option.some.inj hframe
      obtain ⟨hmem, hs⟩ := Option.ite_none_right_eq_some.mp hs
      obtain ⟨hcalls, horder⟩ := h.of_mem hmem hid
      have hnothing : s.acceptedOf id = s.enteredOf id := horder.trans (List.append_nil _)
      have hverdict (verdict : Bool) (t : ImportState)
          (ht : t.history.verdicts = s.history.verdicts ++ [(f, verdict)]) :
          t.acceptedOf id = s.acceptedOf id ++ if verdict then [f] else [] := by
        unfold acceptedOf accepted
        rw [ht, KeyedFilter.passed_append, List.filter_append]
        cases verdict
        · rfl
        · simp [KeyedFilter.passed, hid]
      split at hs
      case h_1 bridge hreserve =>
        cases hs
        refine ⟨some (.reserved f), callsOf_next hcalls hid, (hverdict true _ ?_).trans ?_⟩
        · rw [hreserve]
        · rw [hnothing]
          rfl
      case h_2 bridge hreserve =>
        cases hs
        refine ⟨none, callsOf_erase hcalls, (hverdict false _ ?_).trans ?_⟩
        · rw [hreserve]
          rfl
        · rw [hnothing]
          rfl
    | enter f =>
      obtain rfl : f = frame := Option.some.inj hframe
      obtain ⟨hmem, hs⟩ := Option.ite_none_right_eq_some.mp hs
      obtain ⟨hcalls, horder⟩ := h.of_mem hmem hid
      cases hs
      refine ⟨some (.handling f), callsOf_next hcalls hid, horder.trans ?_⟩
      have hentered : (s.history.entered ++ [f]).filter (fun frame => frame.publisherId = id) =
          s.enteredOf id ++ [f] := filter_concat_of_eq Frame.publisherId hid
      exact hentered.symm.trans (List.append_nil _).symm
    | finish f threw =>
      obtain rfl : f = frame := Option.some.inj hframe
      obtain ⟨hmem, hs⟩ := Option.ite_none_right_eq_some.mp hs
      obtain ⟨hcalls, horder⟩ := h.of_mem hmem hid
      cases hs
      exact ⟨none, callsOf_erase hcalls, horder⟩

/-- The frames let through under one pair, from those that were checked under it. -/
theorem accepted_pair (h : (importSystem options).Reachable s)
    (hpairs : s.pairs.card ≤ options.maxDedupEntries) (k : Bytes × BitVec 64) :
    s.accepted.filter (fun f => referenceFilter.key f = k) = KeyedFilter.passed
      (referenceFilter.run KeyedFilter.empty
        (s.checked.filter fun f => referenceFilter.key f = k)) := by
  rw [accepted_eq h hpairs, ← KeyedFilter.run_filter rfl]
  unfold KeyedFilter.passed
  rw [List.filter_map, List.filter_filter, List.filter_filter]
  simp only [Function.comp_def, Bool.and_comm]

/-- Where the checked frames of a pair are among some whose times do not decrease with their
numbers, the frames let through are in the order of their numbers. -/
theorem accepted_increasing (h : (importSystem options).Reachable s)
    (hpairs : s.pairs.card ≤ options.maxDedupEntries) {k : Bytes × BitVec 64}
    (hchecked : ∀ f ∈ s.checked, referenceFilter.key f = k →
      ∀ g ∈ s.checked, referenceFilter.key g = k →
        f = g ∨ f.sequence < g.sequence ∧ f.sendTimeNs ≤ g.sendTimeNs ∨
          g.sequence < f.sequence ∧ g.sendTimeNs ≤ f.sendTimeNs) :
    (s.accepted.filter fun f => referenceFilter.key f = k).Pairwise
      fun f g => f.sequence < g.sequence := by
  have hadvances : referenceFilter.Advances (fun last state => last.highest < state.highest)
      (s.checked.filter fun f => referenceFilter.key f = k) := by
    intro before f rest hsplit last hlast hadmitted
    have hmem {x : Frame} (hx : x ∈ before ++ f :: rest) :
        x ∈ s.checked ∧ referenceFilter.key x = k := by
      rw [← hsplit, List.mem_filter] at hx
      exact ⟨hx.1, of_decide_eq_true hx.2⟩
    obtain ⟨hf, hfk⟩ := hmem (List.mem_append_right _ List.mem_cons_self)
    -- what is remembered is that of an earlier frame
    obtain hempty | ⟨g, hg, -, rfl⟩ := KeyedFilter.exists_of_after_eq_some hlast
    · cases hempty
    · obtain ⟨hg, hgk⟩ := hmem (List.mem_append_left _ hg)
      simp only [referenceFilter, decide_eq_true_eq] at hadmitted ⊢
      rcases hadmitted with hlt | ⟨hzero, htime⟩
      · exact hlt
      · -- a frame of number 0 was sent before all others of its topic
        exfalso
        rcases hchecked f hf hfk g hg hgk with rfl | ⟨-, hle⟩ | ⟨hlt, -⟩
        · exact BitVec.lt_irrefl _ htime
        · exact absurd hle (BitVec.not_le.mpr htime)
        · rw [hzero] at hlt
          exact BitVec.not_lt_zero hlt
  have htrans (x y z : SequenceState) : x.highest < y.highest → y.highest < z.highest →
      x.highest < z.highest := BitVec.lt_trans
  have hpairwise := hadvances.pairwise htrans
  rw [← accepted_pair h hpairs] at hpairwise
  refine hpairwise.imp_of_mem fun hf hg hlt => hlt ?_
  have hkey {x : Frame} (hx : x ∈ s.accepted.filter fun f => referenceFilter.key f = k) :
      referenceFilter.key x = k := of_decide_eq_true (List.mem_filter.mp hx).2
  exact (hkey hf).trans (hkey hg).symm

/-- A frame is refused only after one of its pair whose number is as great. -/
def RefusedBehind (s : ImportState) : Prop :=
  ∀ f, (f, false) ∈ s.history.verdicts →
    ∃ g ∈ s.accepted, referenceFilter.key g = referenceFilter.key f ∧ f.sequence ≤ g.sequence

theorem RefusedBehind.of_reachable (h : (importSystem options).Reachable s) :
    s.RefusedBehind := by
  refine h.invariant ?_ fun s a s' hreach ih hs f hf => ?_
  · rintro s ⟨bridge, -, rfl⟩ f hf
    cases hf
  · have hsame (hverdicts : s'.history.verdicts = s.history.verdicts) :
        ∃ g ∈ s'.accepted, referenceFilter.key g = referenceFilter.key f ∧
          f.sequence ≤ g.sequence := by
      rw [accepted, hverdicts]
      rw [hverdicts] at hf
      exact ih f hf
    cases step_view hs with
    | enter frame _ hbridge hverdicts => exact hsame hverdicts
    | other _ _ hne htable hmax hverdicts => exact hsame hverdicts
    | reserve frame _ hbridge hverdicts =>
      have hold {x : Frame} (hx : ∃ g ∈ s.accepted, referenceFilter.key g = referenceFilter.key x ∧
          x.sequence ≤ g.sequence) : ∃ g ∈ s'.accepted,
            referenceFilter.key g = referenceFilter.key x ∧ x.sequence ≤ g.sequence := by
        obtain ⟨g, hg, hfacts⟩ := hx
        refine ⟨g, ?_, hfacts⟩
        rw [accepted, hverdicts, KeyedFilter.passed_append]
        exact List.mem_append_left _ hg
      rw [hverdicts] at hf
      rcases List.mem_append.mp hf with hf | hf
      · exact hold (ih f hf)
      · obtain ⟨rfl, hrefused⟩ := Prod.mk.inj (List.mem_singleton.mp hf)
        have hview := s.bridge.reserve_view f
        generalize s.bridge.reserve f = r at hview hrefused
        cases hview with
        | duplicate found hfound hadmits =>
          obtain ⟨g, hg, htopic, hpublisher, hhighest⟩ := exists_accepted_of_lookup hreach hfound
          refine hold ⟨g, hg, Prod.ext htopic hpublisher, ?_⟩
          rw [← hhighest]
          by_contra hlt
          have hadmitted : referenceFilter.admits found f = true := by
            simp only [referenceFilter, decide_eq_true_eq]
            exact .inl (BitVec.not_le.mp hlt)
          rw [hadmits] at hadmitted
          cases hadmitted
        | advanced => cases hrefused
        | fresh => cases hrefused
        | cleared => cases hrefused

end ImportState
namespace UdpLink
variable {W : SizeT} {s s' : UdpLink W}

theorem sentFrames_of_step {a : UdpLinkAction} (hs : s.step a = some s') {f : Frame}
    (hf : f ∈ s'.sentFrames) : f ∈ s.sentFrames ∨ a.sends = some (some f) := by
  cases a with
  | sendFrame frame results =>
    simp only [step] at hs
    split at hs
    · cases hs
      rcases List.mem_append.mp hf with hf | hf
      · exact .inl hf
      · obtain rfl := List.mem_singleton.mp hf
        exact .inr rfl
    · cases hs
      exact .inl hf
    · cases hs
  | lose datagram =>
    obtain ⟨network, -, rfl⟩ := Option.map_eq_some_iff.mp hs
    exact .inl hf
  | duplicate datagram =>
    obtain ⟨network, -, rfl⟩ := Option.map_eq_some_iff.mp hs
    exact .inl hf
  | deliver datagram =>
    obtain ⟨network, -, rfl⟩ := Option.map_eq_some_iff.mp hs
    exact .inl hf
  | receiveFrame events =>
    simp only [step] at hs
    split at hs
    · split at hs <;> cases hs <;> exact .inl hf
    · cases hs
      exact .inl hf
    · cases hs

/-- A frame that a call returns is among the answers. -/
theorem mem_answers_of_returned {events : List DatagramEvent} {frame : Frame}
    (hs : s.step (.receiveFrame events) = some s')
    (hreturned : (s.receiver.receiveFrame events).1 = .returned (.ok frame)) :
    .ok frame ∈ s'.answers := by
  simp only [step] at hs
  have hview := s.receiver.receiveFrame_view events
  generalize s.receiver.receiveFrame events = r at hview hs hreturned
  cases hview with
  | waiting => cases hreturned
  | timedOut => cases hreturned
  | failed what => cases hreturned
  | took datagram incoming hincoming =>
    have hne : incoming ≠ s.receiver.incoming := by
      intro heq
      have hlength := congrArg List.length (heq.trans hincoming)
      simp at hlength
    simp only [if_neg hne] at hs
    cases hs
    injection hreturned with hanswer
    rw [← hanswer]
    exact List.mem_append_right _ (List.mem_singleton_self _)

end UdpLink

namespace UdpBridge
variable {W : SizeT} {options options' : UdpTransportOptions W}
  {exportOptions importOptions : NetworkBridgeOptions} {defaultPublisherId id : BitVec 64}
  {s s' : UdpBridge W}

def ClockForward (s : UdpBridge W) : UdpBridgeAction → Prop
  | .source a => s.source.ClockForward a
  | _ => True

instance (s : UdpBridge W) : ∀ a, Decidable (s.ClockForward a)
  | .source a => inferInstanceAs (Decidable (s.source.ClockForward a))
  | .send _ | .link _ | .receive _ | .destination _ => .isTrue trivial

/-- Whatever the destination has of the publisher the source has sent. -/
structure Crossing (options options' : UdpTransportOptions W)
    (importOptions : NetworkBridgeOptions) (id : BitVec 64) (s : UdpBridge W) : Prop where
  numbered : ExportState.Numbered id s.source
  timed : s.source.Timed
  link : UdpLink.Accounted options options' s.link
  sentFrames : ∀ f ∈ s.link.sentFrames, f.publisherId = id → f ∈ s.source.sent
  reachable : (importSystem importOptions).Reachable s.destination
  brought : s.destination.Brought fun f => f.publisherId = id → f ∈ s.source.sent
  sequential : s.destination.Sequential id

theorem sent_of_source {source source' : ExportState} {a : ExportAction}
    (hs : source.step a = some source') {f : Frame} (hf : f ∈ source.sent) : f ∈ source'.sent := by
  cases a with
  | addExport remoteTopic route =>
    simp only [ExportState.step] at hs
    split at hs <;> cases hs <;> exact hf
  | callback topic payload now =>
    simp only [ExportState.step] at hs
    split at hs
    · split at hs <;> cases hs <;> exact hf
    · cases hs
  | emit topic =>
    simp only [ExportState.step] at hs
    split at hs
    · cases hs
      exact hf
    · cases hs
  | take =>
    simp only [ExportState.step] at hs
    split at hs
    · cases hs
      exact List.mem_append_left _ hf
    · cases hs
  | stop =>
    cases hs
    exact hf

/-- The source moves on. -/
theorem Crossing.source (h : s.Crossing options options' importOptions id) {source : ExportState}
    {a : ExportAction} (hs : s.source.step a = some source)
    (hclock : s.source.ClockForward a) :
    ({ s with source } : UdpBridge W).Crossing options options' importOptions id where
  numbered := h.numbered.step hs
  timed := h.timed.step hs hclock
  link := h.link
  sentFrames f hf hid := sent_of_source hs (h.sentFrames f hf hid)
  reachable := h.reachable
  brought := ⟨fun call hcall hid => sent_of_source hs (h.brought.calls call hcall hid),
    fun f hf hid => sent_of_source hs (h.brought.checked f hf hid)⟩
  sequential := h.sequential

theorem Crossing.ofLink (h : s.Crossing options options' importOptions id) {link : UdpLink W}
    {a : UdpLinkAction} (hs : s.link.step a = some link)
    (hsends : ∀ f, a.sends = some (some f) → f.publisherId = id → f ∈ s.source.sent) :
    ({ s with link } : UdpBridge W).Crossing options options' importOptions id :=
  { h with
    link := h.link.step hs
    sentFrames := fun f hf hid => (UdpLink.sentFrames_of_step hs hf).elim
      (fun hold => h.sentFrames f hold hid) fun hnew => hsends f hnew hid }

theorem Crossing.ofDestination (h : s.Crossing options options' importOptions id)
    {destination : ImportState} {a : ImportAction} (hs : s.destination.step a = some destination)
    (hreceived : ∀ f ∈ a.received, f.publisherId = id → f ∈ s.source.sent ∧
      s.destination.callsOf id = 0) :
    ({ s with destination } : UdpBridge W).Crossing options options' importOptions id :=
  { h with
    reachable := h.reachable.step hs
    brought := h.brought.step hs fun f hf hid => (hreceived f hf hid).1
    sequential := h.sequential.step hs fun f hf hid => (hreceived f hf hid).2 }

theorem Crossing.step {a : UdpBridgeAction} (h : s.Crossing options options' importOptions id)
    (hs : s.step a = some s') (hclock : s.ClockForward a) :
    s'.Crossing options options' importOptions id := by
  have hid : s.publisherId = id := h.numbered.bridge_publisherId
  cases a with
  | source a =>
    cases a with
    | take => cases hs
    | stop =>
      cases hs
      exact h.source (a := .stop) rfl trivial
    | _ =>
      obtain ⟨source, hsource, rfl⟩ := Option.map_eq_some_iff.mp hs
      exact h.source hsource hclock
  | send results =>
    simp only [UdpBridge.step] at hs
    split at hs
    case h_1 frame rest houtbound =>
      simp only [Option.bind_eq_bind, Option.bind_eq_some_iff, Option.pure_def] at hs
      obtain ⟨source, htake, link, hlink, hs⟩ := hs
      obtain rfl := Option.some.inj hs
      have hsource := h.source htake trivial
      refine hsource.ofLink hlink fun f hf _ => ?_
      obtain rfl : frame = f := Option.some.inj (Option.some.inj hf)
      simp only [ExportState.step, houtbound] at htake
      cases htake
      exact List.mem_append_right _ (List.mem_singleton_self _)
    case h_2 => cases hs
  | link a =>
    simp only [UdpBridge.step] at hs
    split at hs
    case h_1 sent hsent =>
      obtain ⟨hother, hs⟩ := Option.ite_none_right_eq_some.mp hs
      obtain ⟨link, hlink, rfl⟩ := Option.map_eq_some_iff.mp hs
      refine h.ofLink hlink fun f hf hpublisher => ?_
      rw [hsent] at hf
      exact absurd (hpublisher.trans hid.symm) (hother f (Option.some.inj hf))
    case h_2 => cases hs
  | receive events =>
    obtain ⟨hidle, hs⟩ := Option.ite_none_right_eq_some.mp hs
    simp only [Option.bind_eq_bind, Option.bind_eq_some_iff, Option.pure_def] at hs
    obtain ⟨link, hlink, destination, hdestination, hs⟩ := hs
    obtain rfl := Option.some.inj hs
    have hlinked := h.ofLink hlink fun f hf => by cases hf
    generalize hresult : (s.link.receiver.receiveFrame events).1 = result at hdestination
    unfold deliver at hdestination
    split at hdestination
    case h_1 frame =>
      refine hlinked.ofDestination hdestination fun f hf hpublisher => ⟨?_, hid ▸ hidle⟩
      obtain rfl : frame = f := Option.some.inj hf
      have hanswer := UdpLink.mem_answers_of_returned hlink hresult
      exact hlinked.sentFrames frame (hlinked.link.mem_sentFrames hanswer) hpublisher
    case h_2 =>
      cases hdestination
      exact hlinked
  | destination a =>
    obtain ⟨hother, hs⟩ := Option.ite_none_right_eq_some.mp hs
    obtain ⟨destination, hdestination, rfl⟩ := Option.map_eq_some_iff.mp hs
    refine h.ofDestination hdestination fun f hf hpublisher => ?_
    exact absurd (hpublisher.trans hid.symm) (hother f hf)

/-- Nothing of the publisher is at the destination yet. -/
theorem sequential_of_new {destination : ImportState}
    (h : (importSystem importOptions).Reachable destination)
    (hcalls : ∀ call ∈ destination.calls, call.frame.publisherId ≠ id)
    (hchecked : ∀ f ∈ destination.checked, f.publisherId ≠ id) : destination.Sequential id := by
  have haccepted {f : Frame} (hf : f ∈ destination.accepted) : f.publisherId ≠ id :=
    hchecked f (List.mem_map.mpr ⟨(f, true), KeyedFilter.mem_passed.mp hf, rfl⟩)
  have hentered {f : Frame} (hf : f ∈ destination.history.entered) : f.publisherId ≠ id := by
    have hhandled : (destination.history.entered : Multiset Frame) ≤ destination.accepted := by
      rw [← ImportState.entered_add_awaiting h]
      exact Multiset.le_add_right _ _
    exact haccepted (Multiset.mem_coe.mp (Multiset.mem_of_le hhandled hf))
  refine ⟨none, Multiset.filter_eq_nil.mpr hcalls, ?_⟩
  have hnone : destination.acceptedOf id = [] :=
    List.filter_eq_nil_iff.mpr fun f hf => by simpa using haccepted hf
  have hnone' : destination.enteredOf id = [] :=
    List.filter_eq_nil_iff.mpr fun f hf => by simpa using hentered hf
  rw [hnone, hnone']
  rfl

theorem Crossing.of_init
    (h : (udpBridgeSystem options options' exportOptions importOptions
      defaultPublisherId).init s) : s.Crossing options options' importOptions s.publisherId := by
  obtain ⟨⟨bridge, hcreate, hsource⟩, ⟨-, -, hlink⟩, hreachable, hcalls, hchecked⟩ := h
  have hsequential := sequential_of_new hreachable hcalls hchecked
  have hfirst : bridge.nextSequence = 0 ∧ bridge.outbound = [] := by
    unfold BridgeExport.create at hcreate
    split at hcreate <;> cases hcreate
    exact ⟨rfl, rfl⟩
  have hemitted : s.source.emitted = [] := by
    rw [ExportState.emitted, hsource, hfirst.2]
    rfl
  have hbuilding (t : Bytes) : s.source.building t = none := by rw [hsource]
  have hdrawn : s.source.draws = 0 := by rw [hsource]
  refine ⟨⟨rfl, ?_, ?_, ?_, fun _ => ⟨?_, ?_, ?_, ?_⟩⟩, ⟨?_, ?_⟩, ?_, ?_, hreachable, ⟨?_, ?_⟩,
    hsequential⟩
  · rw [hsource, hfirst.1]
    rfl
  · simp [hemitted]
  · simp [hbuilding]
  · simp [hemitted]
  · simp [hbuilding]
  · simp [hbuilding]
  · simp [hemitted]
  · simp [hbuilding]
  · simp [hemitted]
  · rw [hlink]
    exact ⟨rfl, rfl, .empty, rfl, by simp, [], rfl, rfl⟩
  · simp [hlink]
  · exact fun call hcall hid => absurd hid (hcalls call hcall)
  · exact fun f hf hid => absurd hid (hchecked f hf)

theorem Crossing.of_reachableVia
    (h : (udpBridgeSystem options options' exportOptions importOptions
      defaultPublisherId).ReachableVia ClockForward s) :
    s.Crossing options options' importOptions s.publisherId := by
  refine h.invariant (P := fun s => s.Crossing options options' importOptions s.publisherId)
    (fun s hs => .of_init hs) fun s a s' _ hcrossing hclock hs => ?_
  have hstep := hcrossing.step hs hclock
  have hid : s'.publisherId = s.publisherId := hstep.numbered.bridge_publisherId
  rw [hid]
  exact hstep

/-- A list without repetitions that is ordered like another one that has its elements. -/
theorem sublist_of_increasing {frames others : List Frame}
    (h : frames.Pairwise fun f g => f.sequence < g.sequence)
    (hothers : others.Pairwise fun f g => f.sequence < g.sequence)
    (hsubset : ∀ f ∈ frames, f ∈ others) : frames.Sublist others := by
  have hantisymm : Std.Antisymm fun f g : Frame => f.sequence < g.sequence :=
    ⟨fun f g hlt hgt => absurd (BitVec.lt_trans hlt hgt) (BitVec.lt_irrefl _)⟩
  have hnodup : frames.Nodup := h.imp fun hlt heq => by
    rw [heq] at hlt
    exact BitVec.lt_irrefl _ hlt
  exact List.sublist_of_subperm_of_pairwise (List.subperm_of_subset hnodup hsubset) h hothers

/-- Over a network that loses, copies and reorders datagrams, the messages of a topic enter the
handler in the order in which they were exported and none of them twice, though some may be
missing, and a frame is refused only when one as new has come before it. -/
theorem udp_bridge_in_order
    (h : (udpBridgeSystem options options' exportOptions importOptions
      defaultPublisherId).ReachableVia ClockForward s)
    (hdraws : s.source.draws ≤ 2 ^ 64)
    (hpairs : s.destination.pairs.card ≤ importOptions.maxDedupEntries) (topic : Bytes) :
    let entered := (s.destination.enteredOf s.publisherId).filter fun f => f.topic = topic
    entered.Sublist (s.source.sentOn topic) ∧
      entered.Pairwise (fun f g => f.sequence < g.sequence) ∧
      ∀ f, (f, false) ∈ s.destination.history.verdicts → ∃ g ∈ s.destination.accepted,
        referenceFilter.key g = referenceFilter.key f ∧ f.sequence ≤ g.sequence := by
  intro entered
  have hcrossing := Crossing.of_reachableVia h
  have hordered := hcrossing.numbered.ordered hdraws
  have hsent : s.source.sent.Sublist s.source.emitted := List.sublist_append_left _ _
  -- the frames of the pair that reached the filter
  have hchecked {f : Frame} (hf : f ∈ s.destination.checked)
      (hkey : referenceFilter.key f = (topic, s.publisherId)) :
      f ∈ s.source.sent ∧ f.topic = topic := by
    obtain ⟨htopic, hpublisher⟩ := Prod.mk.inj hkey
    exact ⟨hcrossing.brought.checked f hf hpublisher, htopic⟩
  have hincreasing := ImportState.accepted_increasing (k := (topic, s.publisherId))
    hcrossing.reachable hpairs fun f hf hfk g hg hgk =>
      ExportState.emitted_trichotomy hordered hcrossing.timed
        (hsent.subset (hchecked hf hfk).1) (hsent.subset (hchecked hg hgk).1)
        ((hchecked hf hfk).2.trans (hchecked hg hgk).2.symm)
  have hentered : entered.Sublist (s.destination.accepted.filter
      fun f => referenceFilter.key f = (topic, s.publisherId)) := by
    obtain ⟨call, -, horder⟩ := hcrossing.sequential
    have hpart : (s.destination.enteredOf s.publisherId).Sublist
        (s.destination.acceptedOf s.publisherId) := horder ▸ List.sublist_append_left _ _
    have hpair : (s.destination.acceptedOf s.publisherId).filter (fun f => f.topic = topic) =
        s.destination.accepted.filter
          fun f => referenceFilter.key f = (topic, s.publisherId) := by
      rw [ImportState.acceptedOf, List.filter_filter]
      simp [referenceFilter]
    rw [← hpair]
    exact hpart.filter _
  have hpairwise := hincreasing.sublist hentered
  refine ⟨?_, hpairwise, ImportState.RefusedBehind.of_reachable hcrossing.reachable⟩
  have hsorted : (s.source.sentOn topic).Pairwise fun f g => f.sequence < g.sequence := by
    have hfiltered := (hordered.increasing.sublist hsent).filter fun f => f.topic = topic
    refine hfiltered.imp_of_mem fun hf hg hlt => hlt ?_
    have htopic {x : Frame} (hx : x ∈ s.source.sent.filter fun f => f.topic = topic) :
        x.topic = topic := of_decide_eq_true (List.mem_filter.mp hx).2
    exact (htopic hf).trans (htopic hg).symm
  refine sublist_of_increasing hpairwise hsorted fun f hf => ?_
  obtain ⟨haccepted, hkey⟩ := List.mem_filter.mp (hentered.subset hf)
  have hmem : f ∈ s.destination.checked :=
    List.mem_map.mpr ⟨(f, true), KeyedFilter.mem_passed.mp haccepted, rfl⟩
  obtain ⟨hsource, htopic⟩ := hchecked hmem (of_decide_eq_true hkey)
  exact List.mem_filter.mpr ⟨hsource, decide_eq_true htopic⟩

/-- Three messages: the second arrives first, then the first, the third and the second again. -/
theorem udp_bridge_in_order_overtaken :
    ∃ s : UdpBridge .bits64, s.source.sent.map Frame.sequence = [0, 1, 2] ∧
      s.destination.history.verdicts.map Prod.snd = [true, false, true, false] ∧
      (((s.destination.enteredOf 7).filter fun f => f.topic = [97]).map Frame.sequence) = [1, 2] ∧
      ((s.destination.enteredOf s.publisherId).filter fun f => f.topic = [97]).Sublist
        (s.source.sentOn [97]) := by
  let frame (sequence now : BitVec 64) : Frame :=
    { topic := [97], publisherId := 7, sequence, sendTimeNs := now }
  let message (now : BitVec 64) : List UdpBridgeAction :=
    [.source (.callback [97] [] now), .source (.emit [97]), .send [.sent 57]]
  let arrival (f : Frame) : List UdpBridgeAction :=
    [.link (.deliver f.wire), .receive [.received], .destination (.lookup f),
      .destination (.reserve f)]
  let handled (f : Frame) : List UdpBridgeAction :=
    [.destination (.enter f), .destination (.finish f false)]
  let M := udpBridgeSystem ({} : UdpTransportOptions .bits64) {} {} {} 7
  obtain ⟨s, hs, hp⟩ := M.exists_reachableVia_of_run ClockForward
    { source := { bridge := { publisherId := 7, outboundQueueDepth := 1024 } }
      link := { sender := {}, receiver := {} }
      destination := { bridge := { maxDedupEntries := 4096, maxDedupEntries_pos := by decide } } }
    ([.source (.addExport [97] {}), .destination (.addImport [97] {})] ++ message 5 ++ message 6 ++
      message 6 ++ [.link (.duplicate (frame 1 6).wire)] ++ arrival (frame 1 6) ++
      handled (frame 1 6) ++ arrival (frame 0 5) ++ arrival (frame 2 6) ++ handled (frame 2 6) ++
      arrival (frame 1 6))
    (fun s => s.source.sent.map Frame.sequence = [0, 1, 2] ∧
      s.destination.history.verdicts.map Prod.snd = [true, false, true, false] ∧
      (((s.destination.enteredOf 7).filter fun f => f.topic = [97]).map Frame.sequence) = [1, 2] ∧
      s.source.draws ≤ 2 ^ 64 ∧ s.destination.pairs.card ≤ 4096)
    ⟨⟨_, rfl, rfl⟩, ⟨by decide, by decide, rfl⟩, .init ⟨_, rfl, rfl⟩, by simp, by
      simp [ImportState.checked]⟩ (by decide +kernel)
  obtain ⟨hsent, hverdicts, hentered, hdraws, hpairs⟩ := of_decide_eq_true hp
  exact ⟨s, hsent, hverdicts, hentered, (udp_bridge_in_order hs hdraws hpairs [97]).1⟩

end UdpBridge
end RobotMiddleware
