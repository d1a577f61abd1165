import RobotMiddleware.BridgeStopModel

/-! When `NetworkBridge::stop` returns. The thread that has the stop mutex joins the sender
thread, so it waits for ever exactly if the sender thread waits for that mutex in its
`FrameSender`. -/
namespace RobotMiddleware

def StopCall.holds : StopCall → Bool
  | .none | .locking => false
  | _ => true

/-- The call has set `stopped_`. -/
def StopCall.pastExchange : StopCall → Bool
  | .none | .locking | .exchanging => false
  | _ => true

theorem StopCall.holds_of_pastExchange {call : StopCall} (h : call.pastExchange = true) :
    call.holds = true := by
  cases call <;> first | rfl | cases h

namespace BridgeStopState
variable {Tid Frame : Type} [DecidableEq Tid] {sender t : Tid} {depth : ℕ}
  {s s' : BridgeStopState Tid Frame} {a : BridgeStopAction Tid Frame}

@[simp] theorem setCall_calls (call : StopCall) :
    (s.setCall t call).calls = Function.update s.calls t call := rfl

@[simp] theorem setCall_stopMutex (call : StopCall) :
    (s.setCall t call).stopMutex = s.stopMutex := rfl

@[simp] theorem setCall_stopped (call : StopCall) : (s.setCall t call).stopped = s.stopped := rfl

@[simp] theorem setCall_joinable (call : StopCall) :
    (s.setCall t call).joinable = s.joinable := rfl

@[simp] theorem setCall_sender (call : StopCall) : (s.setCall t call).sender = s.sender := rfl

inductive StepView (sender : Tid) (s : BridgeStopState Tid Frame) :
    BridgeStopAction Tid Frame → BridgeStopState Tid Frame → Prop
  | quiet (a : BridgeStopAction Tid Frame) (exports : ℕ → ExportSubscription Frame)
      (registered : ℕ) (cancellers : List ℕ) (outbound : ThreadSafeQueue Frame) :
      StepView sender s a { s with exports := exports, registered := registered,
                                   cancellers := cancellers, outbound := outbound }
  | looped (a : BridgeStopAction Tid Frame) (loop : SenderLoop Frame)
      (outbound : ThreadSafeQueue Frame) : s.sender ≠ .left →
      (∀ frame, s.sender = .sending frame → s.calls sender = .none) →
      StepView sender s a { s with sender := loop, outbound := outbound }
  | called (t : Tid) : s.calls t = .none → (t = sender → ∃ frame, s.sender = .sending frame) →
      StepView sender s (.stop t) (s.setCall t .locking)
  | locked (t : Tid) : s.calls t = .locking → s.stopMutex = none →
      StepView sender s (.lock t) ({ s with stopMutex := some t }.setCall t .exchanging)
  | exchanged (t : Tid) : s.calls t = .exchanging →
      StepView sender s (.exchange t)
        ({ s with stopped := true }.setCall t (if s.stopped then .connecting else .configuring))
  | moved (a : BridgeStopAction Tid Frame) (t : Tid) (call : StopCall)
      (exports : ℕ → ExportSubscription Frame) (cancellers : List ℕ) (running : Bool)
      (outbound : ThreadSafeQueue Frame) : (s.calls t).pastExchange = true →
      call.pastExchange = true → (call = .joining → t ≠ sender) →
      (call = .unlocking → t = sender ∨ s.joinable = false) →
      StepView sender s a ({ s with exports := exports, cancellers := cancellers,
                                    running := running, outbound := outbound }.setCall t call)
  | joined (t : Tid) : s.calls t = .joining → s.sender = .left →
      StepView sender s (.join t) ({ s with joinable := false }.setCall t .unlocking)
  | unlocked (t : Tid) : s.calls t = .unlocking →
      StepView sender s (.unlock t) ({ s with stopMutex := none }.setCall t .none)

theorem step_view (h : s.step sender a = some s') : StepView sender s a s' := by
  cases a with
  | addExport =>
    obtain ⟨-, h⟩ := Option.ite_none_right_eq_some.mp h
    cases h
    exact .quiet ..
  | callbackBegin subscription =>
    simp only [step] at h
    split at h
    case h_1 =>
      obtain ⟨-, h⟩ := Option.ite_none_right_eq_some.mp h
      cases h
      exact .quiet ..
    case h_2 => cases h
  | emitFrame subscription frame | push subscription | callbackEnd subscription =>
    simp only [step] at h
    split at h <;> cases h
    all_goals exact .quiet ..
  | check =>
    simp only [step] at h
    split at h
    case h_1 hsender =>
      cases h
      exact .looped _ _ _ (by simp [hsender]) (by simp [hsender])
    case h_2 => cases h
  | pop =>
    simp only [step] at h
    split at h
    case h_1 hsender =>
      split at h <;> cases h
      all_goals exact .looped _ _ _ (by simp [hsender]) (by simp [hsender])
    case h_2 => cases h
  | senderEnd =>
    simp only [step] at h
    split at h
    case h_1 frame hsender hcall =>
      cases h
      exact .looped _ _ _ (by simp [hsender]) fun _ _ => hcall
    case h_2 => cases h
  | stop t =>
    obtain ⟨hcan, h⟩ := Option.ite_none_right_eq_some.mp h
    cases h
    simp only [canCall] at hcan
    split at hcan
    case h_1 frame hcall hsender => exact .called t hcall fun _ => ⟨frame, hsender⟩
    case h_2 hcall hsender => exact .called t hcall fun hself => absurd hself (by simpa using hcan)
    case h_3 => cases hcan
  | lock t =>
    simp only [step] at h
    split at h <;> cases h
    case h_1 hcall hmutex => exact .locked t hcall hmutex
  | exchange t =>
    simp only [step] at h
    split at h <;> cases h
    case h_1 hcall => exact .exchanged t hcall
  | configure t | cancel t | stopRunning t | close t =>
    simp only [step] at h
    split at h <;> cases h
    case h_1 hcall =>
      exact .moved _ t _ _ _ _ _ (by simp [hcall, StopCall.pastExchange]) rfl (by simp) (by simp)
  | waited t =>
    simp only [step] at h
    split at h
    case h_1 hcall =>
      split at h <;> cases h
      exact .moved _ t _ _ _ _ _ (by simp [hcall, StopCall.pastExchange]) rfl (by simp) (by simp)
    case h_2 => cases h
  | connection t =>
    simp only [step] at h
    split at h <;> cases h
    case h_1 hcall =>
      have hpast : (s.calls t).pastExchange = true := by rw [hcall]; rfl
      by_cases hjoin : s.joinable = true ∧ t ≠ sender
      · rw [if_pos (by simpa using hjoin)]
        exact .moved _ t .joining _ _ _ _ hpast rfl (fun _ => hjoin.2) (by simp)
      · rw [if_neg (by simpa using hjoin)]
        refine .moved _ t .unlocking _ _ _ _ hpast rfl (by simp) fun _ => ?_
        by_cases hself : t = sender
        · exact .inl hself
        · exact .inr (Bool.eq_false_iff.mpr fun hjoinable => hjoin ⟨hjoinable, hself⟩)
  | join t =>
    simp only [step] at h
    split at h <;> cases h
    case h_1 hcall hsender => exact .joined t hcall hsender
  | unlock t =>
    simp only [step] at h
    split at h <;> cases h
    case h_1 hcall => exact .unlocked t hcall

/-- A call in the critical section has the mutex, a call of the sender thread is made in its
`FrameSender`, and a call that leaves without a join is the sender thread's or finds the join
done. -/
structure StopInvariant (sender : Tid) (s : BridgeStopState Tid Frame) : Prop where
  holder : ∀ t, s.stopMutex = some t ↔ (s.calls t).holds = true
  sending : s.calls sender ≠ .none → ∃ frame, s.sender = .sending frame
  stopped : ∀ t, (s.calls t).pastExchange = true → s.stopped = true
  joined : s.joinable = false → s.sender = .left
  joining : s.calls sender ≠ .joining
  unlocking : ∀ t, s.calls t = .unlocking → t = sender ∨ s.joinable = false

/-- One call moves on, and takes or leaves the mutex with it. -/
theorem StopInvariant.setCall {call : StopCall} {stopMutex : Option Tid}
    (hinv : StopInvariant sender s) (hself : stopMutex = some t ↔ call.holds = true)
    (hothers : ∀ u ≠ t, stopMutex = some u ↔ s.stopMutex = some u)
    (hsending : call ≠ .none → t = sender → ∃ frame, s.sender = .sending frame)
    (hstopped : call.pastExchange = true → s.stopped = true) (hjoining : call = .joining → t ≠ sender)
    (hunlocking : call = .unlocking → t = sender ∨ s.joinable = false) :
    StopInvariant sender ({ s with stopMutex := stopMutex }.setCall t call) where
  holder u := by
    simp only [setCall_stopMutex, setCall_calls, Function.update_apply]
    split
    case isTrue hut => rw [hut, hself]
    case isFalse hut => rw [hothers u hut, hinv.holder u]
  sending hbusy := by
    rw [setCall_calls, Function.update_apply] at hbusy
    split at hbusy
    case isTrue hst => exact hsending hbusy hst.symm
    case isFalse => exact hinv.sending hbusy
  stopped u hpast := by
    rw [setCall_calls, Function.update_apply] at hpast
    split at hpast
    case isTrue => exact hstopped hpast
    case isFalse => exact hinv.stopped u hpast
  joined := hinv.joined
  joining hjoin := by
    rw [setCall_calls, Function.update_apply] at hjoin
    split at hjoin
    case isTrue hst => exact hjoining hjoin hst.symm
    case isFalse => exact hinv.joining hjoin
  unlocking u hunlock := by
    rw [setCall_calls, Function.update_apply] at hunlock
    split at hunlock
    case isTrue hut => exact hut ▸ hunlocking hunlock
    case isFalse => exact hinv.unlocking u hunlock

omit [DecidableEq Tid] in
theorem StopInvariant.init :
    StopInvariant sender ({ outbound := { capacity := depth } } : BridgeStopState Tid Frame) where
  holder t := by simp [StopCall.holds]
  sending hbusy := absurd rfl hbusy
  stopped t hpast := by cases hpast
  joined hjoined := by cases hjoined
  joining hjoin := by cases hjoin
  unlocking t hunlock := by cases hunlock

theorem StopInvariant.step (hinv : StopInvariant sender s) (h : s.step sender a = some s') :
    StopInvariant sender s' := by
  -- a call inside the critical section of the sender thread is made in its `FrameSender`
  have hsending (t : Tid) (hholds : (s.calls t).holds = true) (hself : t = sender) :
      ∃ frame, s.sender = .sending frame := by
    apply hinv.sending
    intro hnone
    rw [hself, hnone] at hholds
    cases hholds
  have hkeep (t : Tid) (call : StopCall) (hholds : (s.calls t).holds = true)
      (hcall : call.holds = true) : s.stopMutex = some t ↔ call.holds = true := by
    rw [hinv.holder t, hholds, hcall]
  cases step_view h with
  | quiet => exact { hinv with }
  | looped _ loop outbound hleft hidle =>
    have hnone : s.calls sender = .none := by
      by_contra hbusy
      obtain ⟨frame, hframe⟩ := hinv.sending hbusy
      exact hbusy (hidle frame hframe)
    exact { hinv with
      sending := fun hbusy => absurd hnone hbusy
      joined := fun hjoined => absurd (hinv.joined hjoined) hleft }
  | called t hnone hframe =>
    have hout : s.stopMutex = some t ↔ StopCall.locking.holds = true := by
      rw [hinv.holder t, hnone]
      rfl
    exact hinv.setCall hout (fun _ _ => Iff.rfl) (fun _ => hframe) (by simp [StopCall.pastExchange])
      (by simp) (by simp)
  | locked t hlocking hmutex =>
    refine hinv.setCall (by simp [StopCall.holds]) (fun u hut => ?_) (fun _ hself => ?_)
      (by simp [StopCall.pastExchange]) (by simp) (by simp)
    · simp [hmutex, hut.symm]
    · apply hinv.sending
      rw [← hself, hlocking]
      exact StopCall.noConfusion
  | exchanged t hcall =>
    have hholds : (s.calls t).holds = true := by rw [hcall]; rfl
    have hstopped : StopInvariant sender { s with stopped := true } :=
      { hinv with stopped := fun _ _ => rfl }
    refine hstopped.setCall (hkeep t _ hholds ?_) (fun _ _ => Iff.rfl) (fun _ => hsending t hholds)
      (fun _ => rfl) ?_ ?_ <;> split <;> simp [StopCall.holds]
  | moved _ t call exports cancellers running outbound hpast hpast' hjoining hunlocking =>
    have hholds := StopCall.holds_of_pastExchange hpast
    have hkept : StopInvariant sender { s with exports := exports, cancellers := cancellers,
                                               running := running, outbound := outbound } :=
      { hinv with }
    exact hkept.setCall (hkeep t call hholds (StopCall.holds_of_pastExchange hpast'))
      (fun _ _ => Iff.rfl) (fun _ => hsending t hholds) (fun _ => hinv.stopped t hpast) hjoining
      hunlocking
  | joined t hcall hleft =>
    have hholds : (s.calls t).holds = true := by rw [hcall]; rfl
    have hjoined : StopInvariant sender { s with joinable := false } :=
      { hinv with
        joined := fun _ => hleft
        unlocking := fun _ _ => .inr rfl }
    exact hjoined.setCall (hkeep t _ hholds rfl) (fun _ _ => Iff.rfl) (fun _ => hsending t hholds)
      (fun _ => hinv.stopped t (by rw [hcall]; rfl)) (by simp) fun _ => .inr rfl
  | unlocked t hcall =>
    have hmutex : s.stopMutex = some t := by
      rw [hinv.holder t, hcall]
      rfl
    refine hinv.setCall (by simp [StopCall.holds]) (fun u hut => ?_) (by simp)
      (by simp [StopCall.pastExchange]) (by simp) (by simp)
    simp [hmutex, hut.symm]

theorem stopInvariant_of_reachable (h : (bridgeStopSystem Tid Frame sender depth).Reachable s) :
    StopInvariant sender s := by
  refine h.invariant (fun s hinit => ?_) fun s a s' _ hinv hstep => hinv.step hstep
  cases hinit
  exact .init

/-- A call that has begun has set `stopped_` when it is over. -/
theorem begun_of_leads (hinv : StopInvariant sender s)
    (h : (bridgeStopSystem Tid Frame sender depth).Leads s s')
    (hbegun : s.stopped = true ∨ s.calls t ≠ .none) :
    StopInvariant sender s' ∧ (s'.stopped = true ∨ s'.calls t ≠ .none) := by
  refine h.invariant (P := fun s => StopInvariant sender s ∧ (s.stopped = true ∨ s.calls t ≠ .none))
    (fun s a s' hs hstep => ⟨hs.1.step hstep, ?_⟩) ⟨hinv, hbegun⟩
  obtain ⟨hinv, hbegun⟩ := hs
  rcases hbegun with hstopped | hbusy
  · left
    cases step_view hstep with
    | exchanged t hcall => rfl
    | _ => exact hstopped
  · cases step_view hstep with
    | quiet | looped => exact .inr hbusy
    | exchanged u hcall => exact .inl rfl
    | moved a u call exports cancellers running outbound hpast =>
      exact .inl (hinv.stopped u hpast)
    | joined u hcall => exact .inl (hinv.stopped u (by rw [hcall]; rfl))
    | unlocked u hcall => exact .inl (hinv.stopped u (by rw [hcall]; rfl))
    | called u hnone =>
      right
      rw [setCall_calls, Function.update_apply]
      split
      case isTrue => simp
      case isFalse => exact hbusy
    | locked u hlocking =>
      right
      rw [setCall_calls, Function.update_apply]
      split
      case isTrue => simp
      case isFalse => exact hbusy

end BridgeStopState

def ExportCallback.rank {Frame : Type} : ExportCallback Frame → ℕ
  | .idle => 0
  | .ending => 1
  | .pushing _ => 2
  | .building => 3

theorem ExportCallback.rank_le {Frame : Type} (callback : ExportCallback Frame) :
    callback.rank ≤ 3 := by
  cases callback <;> simp [ExportCallback.rank]

def SenderLoop.rank {Frame : Type} : SenderLoop Frame → ℕ
  | .left => 0
  | .checking => 1
  | .sending _ => 2
  | .popping => 3

theorem SenderLoop.rank_le {Frame : Type} (loop : SenderLoop Frame) : loop.rank ≤ 3 := by
  cases loop <;> simp [SenderLoop.rank]

namespace BridgeStopState
variable {Tid Frame : Type} [DecidableEq Tid] {sender t : Tid} {depth : ℕ}
  {s s' : BridgeStopState Tid Frame} {a : BridgeStopAction Tid Frame}

/-- How many steps a call in the critical section, with the callbacks and the sender thread that
it waits for, has before it at most. -/
def callRank (s : BridgeStopState Tid Frame) : StopCall → ℕ
  | .none | .locking => 0
  | .unlocking => 1
  | .joining => 2 + s.sender.rank
  | .connecting => 6
  | .closing => 7
  | .cancelling exports => 8 + 5 * exports.length
  | .waitingExport subscription exports =>
    9 + 5 * exports.length + (s.exports subscription).callback.rank
  | .configuring => 9 + 5 * s.cancellers.length
  | .exchanging => 10 + 5 * s.cancellers.length

structure Advances (t : Tid) (s s' : BridgeStopState Tid Frame) : Prop where
  lower : s'.callRank (s'.calls t) < s.callRank (s.calls t)
  entered : s'.calls t ≠ .locking
  others : ∀ u ≠ t, s'.calls u = s.calls u

omit [DecidableEq Tid] in
theorem Advances.of_calls (hcalls : s'.calls = s.calls) (hholds : (s.calls t).holds = true)
    (hlt : s'.callRank (s.calls t) < s.callRank (s.calls t)) : Advances t s s' where
  lower := by rwa [hcalls]
  entered := by
    rw [hcalls]
    intro hlocking
    rw [hlocking] at hholds
    cases hholds
  others u _ := by rw [hcalls]

theorem Advances.setCall {base : BridgeStopState Tid Frame} {call : StopCall}
    (hcalls : base.calls = s.calls) (hentered : call ≠ .locking)
    (hlt : base.callRank call < s.callRank (s.calls t)) : Advances t s (base.setCall t call) where
  lower := by
    rw [setCall_calls, Function.update_self]
    exact hlt
  entered := by rwa [setCall_calls, Function.update_self]
  others u hut := by rw [setCall_calls, Function.update_of_ne hut, hcalls]

/-- The callback that a call waits for ends. -/
theorem exists_advance_callback {subscription : ℕ} {exports : List ℕ}
    (hcall : s.calls t = .waitingExport subscription exports)
    (hbusy : (s.exports subscription).callback ≠ .idle) :
    ∃ a s', s.step sender a = some s' ∧ Advances t s s' := by
  have hholds : (s.calls t).holds = true := by rw [hcall]; rfl
  have hlower (s' : BridgeStopState Tid Frame) (hcalls : s'.calls = s.calls)
      (hlt : (s'.exports subscription).callback.rank < (s.exports subscription).callback.rank) :
      Advances t s s' := by
    apply Advances.of_calls hcalls hholds
    simp only [hcall, callRank]
    omega
  cases hcallback : (s.exports subscription).callback with
  | idle => exact absurd hcallback hbusy
  | building | ending =>
    refine ⟨.callbackEnd subscription, s.setExport subscription { s.exports subscription with
      callback := .idle }, by simp only [step, hcallback], hlower _ rfl ?_⟩
    simp [setExport, hcallback, ExportCallback.rank]
  | pushing frame =>
    refine ⟨.push subscription,
      { s with outbound := (s.outbound.tryPush frame).getD s.outbound }.setExport subscription
        { s.exports subscription with callback := .ending },
      by simp only [step, hcallback], hlower _ rfl ?_⟩
    simp [setExport, hcallback, ExportCallback.rank]

/-- The sender thread of a stopped bridge gets closer to its end, unless it calls `stop`. -/
theorem exists_sender_step (hstopped : s.stopped = true) (hidle : s.calls sender = .none)
    (hleft : s.sender ≠ .left) :
    ∃ a s', s.step sender a = some s' ∧ s'.stopped = true ∧ s'.calls = s.calls ∧
      s'.sender.rank < s.sender.rank := by
  cases hsender : s.sender with
  | checking =>
    exact ⟨.check, { s with sender := .left }, by simp [step, hsender, hstopped], hstopped, rfl,
      by simp [SenderLoop.rank]⟩
  | popping =>
    cases hpop : s.outbound.waitPopFor with
    | mk outbound popped =>
      cases popped with
      | none =>
        exact ⟨.pop, { s with sender := .checking }, by simp only [step, hsender, hpop], hstopped, rfl,
          by simp [SenderLoop.rank]⟩
      | some frame =>
        exact ⟨.pop, { s with outbound := outbound, sender := .sending frame },
          by simp only [step, hsender, hpop], hstopped, rfl,
          by simp [SenderLoop.rank]⟩
  | sending frame =>
    exact ⟨.senderEnd, { s with sender := .checking }, by simp only [step, hsender, hidle], hstopped, rfl,
      by simp [SenderLoop.rank]⟩
  | left => exact absurd hsender hleft

/-- The thread that has the mutex gets closer to its end, unless it joins a sender thread that
calls `stop`. -/
theorem exists_advance (hinv : StopInvariant sender s) (hholds : (s.calls t).holds = true)
    (hjoining : s.calls t = .joining → s.calls sender = .none) :
    ∃ a s', s.step sender a = some s' ∧ Advances t s s' := by
  cases hcall : s.calls t with
  | none | locking =>
    rw [hcall] at hholds
    cases hholds
  | exchanging =>
    have hstep : s.step sender (.exchange t) = some ({ s with stopped := true }.setCall t
        (if s.stopped then .connecting else .configuring)) := by simp only [step, hcall]
    refine ⟨_, _, hstep, .setCall rfl ?_ ?_⟩
    · split <;> simp
    · split <;> simp only [hcall, callRank] <;> omega
  | configuring =>
    have hstep : s.step sender (.configure t) =
        some ({ s with cancellers := [] }.setCall t (.cancelling s.cancellers)) := by
      simp only [step, hcall]
    exact ⟨_, _, hstep, .setCall rfl (by simp) (by simp [hcall, callRank])⟩
  | cancelling exports =>
    cases exports with
    | nil =>
      have hstep : s.step sender (.stopRunning t) =
          some ({ s with running := false }.setCall t .closing) := by simp only [step, hcall]
      exact ⟨_, _, hstep, .setCall rfl (by simp) (by simp [hcall, callRank])⟩
    | cons subscription exports =>
      have hstep : s.step sender (.cancel t) = some ((s.setExport subscription
          { s.exports subscription with active := false }).setCall t
          (.waitingExport subscription exports)) := by simp only [step, hcall]
      refine ⟨_, _, hstep, .setCall rfl (by simp) ?_⟩
      have hle := ((s.exports subscription).callback).rank_le
      simp only [setExport, hcall, callRank, Function.update_self, List.length_cons]
      omega
  | waitingExport subscription exports =>
    by_cases hcallback : (s.exports subscription).callback = .idle
    · have hstep : s.step sender (.waited t) = some (s.setCall t (.cancelling exports)) := by
        simp only [step, hcall, hcallback]
      refine ⟨_, _, hstep, .setCall rfl (by simp) ?_⟩
      simp only [hcall, callRank]
      omega
    · exact exists_advance_callback hcall hcallback
  | closing =>
    have hstep : s.step sender (.close t) =
        some ({ s with outbound := s.outbound.close }.setCall t .connecting) := by
      simp only [step, hcall]
    exact ⟨_, _, hstep, .setCall rfl (by simp) (by simp [hcall, callRank])⟩
  | connecting =>
    have hstep : s.step sender (.connection t) =
        some (s.setCall t (if s.joinable && t ≠ sender then .joining else .unlocking)) := by
      simp only [step, hcall]
    refine ⟨_, _, hstep, .setCall rfl ?_ ?_⟩
    · split <;> simp
    · have hle := s.sender.rank_le
      split <;> simp only [hcall, callRank] <;> omega
  | joining =>
    by_cases hleft : s.sender = .left
    · have hstep : s.step sender (.join t) =
          some ({ s with joinable := false }.setCall t .unlocking) := by
        simp only [step, hcall, hleft]
      refine ⟨_, _, hstep, .setCall rfl (by simp) ?_⟩
      simp only [hcall, callRank]
      omega
    · have hstopped := hinv.stopped t (by rw [hcall]; rfl)
      obtain ⟨a, s', hstep, -, hcalls, hlt⟩ :=
        exists_sender_step hstopped (hjoining hcall) hleft
      refine ⟨a, s', hstep, .of_calls hcalls hholds ?_⟩
      simp only [hcall, callRank]
      omega
  | unlocking =>
    have hstep : s.step sender (.unlock t) =
        some ({ s with stopMutex := none }.setCall t .none) := by simp only [step, hcall]
    exact ⟨_, _, hstep, .setCall rfl (by simp) (by simp [hcall, callRank])⟩

omit [DecidableEq Tid] in
theorem StopInvariant.eq_of_holds (hinv : StopInvariant sender s) {u : Tid}
    (ht : (s.calls t).holds = true) (hu : (s.calls u).holds = true) : u = t := by
  have hmutex := (hinv.holder t).mpr ht
  rw [(hinv.holder u).mpr hu, Option.some.injEq] at hmutex
  exact hmutex

omit [DecidableEq Tid] in
theorem StopInvariant.stopMutex_eq_none (hinv : StopInvariant sender s)
    (h : ∀ t, (s.calls t).holds = false) : s.stopMutex = none := by
  cases hmutex : s.stopMutex with
  | none => rfl
  | some t =>
    have hholds := (hinv.holder t).mp hmutex
    rw [h t] at hholds
    cases hholds

omit [DecidableEq Tid] in
theorem StopInvariant.eq_of_stopMutex_none (hinv : StopInvariant sender s)
    (h : s.stopMutex = none) (t : Tid) : s.calls t = .none ∨ s.calls t = .locking := by
  have hout : ¬ (s.calls t).holds = true := by
    rw [← hinv.holder t, h]
    simp
  cases hcall : s.calls t <;> simp_all [StopCall.holds]

variable (depth) in
/-- The thread that has the mutex can finish its call, unless the sender thread waits for it. -/
theorem exists_finish (hinv : StopInvariant sender s) (hholds : (s.calls t).holds = true)
    (hclear : t = sender ∨ s.calls sender = .none) :
    ∃ s', (bridgeStopSystem Tid Frame sender depth).Leads s s' ∧ StopInvariant sender s' ∧
      s'.stopMutex = none ∧ s'.calls t = .none ∧ ∀ u ≠ t, s'.calls u = s.calls u := by
  let P (s' : BridgeStopState Tid Frame) : Prop :=
    StopInvariant sender s' ∧ s'.calls t ≠ .locking ∧ ∀ u ≠ t, s'.calls u = s.calls u
  have hprogress (s₁ : BridgeStopState Tid Frame) (hs₁ : P s₁) (hbusy : ¬ s₁.calls t = .none) :
      ∃ a s₂, s₁.step sender a = some s₂ ∧ P s₂ ∧
        s₂.callRank (s₂.calls t) < s₁.callRank (s₁.calls t) := by
    obtain ⟨hinv₁, hentered, hothers⟩ := hs₁
    have hholds₁ : (s₁.calls t).holds = true := by
      cases hcall : s₁.calls t <;> simp_all [StopCall.holds]
    obtain ⟨a, s₂, hstep, hadvances⟩ := exists_advance hinv₁ hholds₁ fun hjoin => by
      rcases hclear with rfl | hnone
      · exact absurd hjoin hinv₁.joining
      · have hne : sender ≠ t := by
          intro hst
          rw [← hst, hnone] at hholds
          cases hholds
        rw [hothers sender hne, hnone]
    refine ⟨a, s₂, hstep, ⟨hinv₁.step hstep, hadvances.entered, fun u hut => ?_⟩,
      hadvances.lower⟩
    rw [hadvances.others u hut, hothers u hut]
  have hentered : s.calls t ≠ .locking := by
    intro hlocking
    rw [hlocking] at hholds
    cases hholds
  obtain ⟨s', hleads, ⟨hinv', -, hothers⟩, hover⟩ :=
    TransitionSystem.exists_leads_of_progress
      (M := bridgeStopSystem Tid Frame sender depth) (P := P) _ hprogress
      ⟨hinv, hentered, fun _ _ => rfl⟩
  refine ⟨s', hleads, hinv', hinv'.stopMutex_eq_none fun u => ?_, hover, hothers⟩
  by_cases hut : u = t
  · rw [hut, hover]
    rfl
  · rw [hothers u hut]
    exact Bool.eq_false_iff.mpr fun hu => hut (hinv.eq_of_holds hholds hu)

variable (depth) in
/-- A call at the lock takes the free mutex and finishes. -/
theorem exists_serve (hinv : StopInvariant sender s) (hmutex : s.stopMutex = none)
    (hlocking : s.calls t = .locking) (hclear : t = sender ∨ s.calls sender = .none) :
    ∃ s', (bridgeStopSystem Tid Frame sender depth).Leads s s' ∧ StopInvariant sender s' ∧
      s'.stopMutex = none ∧ s'.calls t = .none ∧ ∀ u ≠ t, s'.calls u = s.calls u := by
  have hlock : (bridgeStopSystem Tid Frame sender depth).step s (.lock t) =
      some ({ s with stopMutex := some t }.setCall t .exchanging) := by
    simp only [bridgeStopSystem, step, hlocking, hmutex]
  have hothers (u : Tid) (hut : u ≠ t) :
      ({ s with stopMutex := some t }.setCall t .exchanging).calls u = s.calls u := by
    rw [setCall_calls, Function.update_of_ne hut]
  have hinv₁ := hinv.step (a := .lock t) hlock
  obtain ⟨s', hleads, hinv', hmutex', hover, hkept⟩ :=
    exists_finish depth (t := t) hinv₁
      (by rw [setCall_calls, Function.update_self]; rfl) (hclear.imp_right fun hnone => by
        by_cases hst : sender = t
        · rw [hst, hlocking] at hnone
          cases hnone
        · rw [hothers sender hst, hnone])
  refine ⟨s', .head hlock hleads, hinv', hmutex', hover, fun u hut => ?_⟩
  rw [hkept u hut, hothers u hut]

/-- The sender thread waits in its `FrameSender` for the mutex of a thread that will join it. -/
def Crossed (sender : Tid) (s : BridgeStopState Tid Frame) (t : Tid) : Prop :=
  t ≠ sender ∧ s.stopMutex = some t ∧ s.calls sender = .locking

variable (depth) in
/-- The mutex is free at some time, and no call of the sender thread is on its way then. -/
theorem exists_settle (hinv : StopInvariant sender s) (hclear : ∀ t, ¬ s.Crossed sender t) :
    ∃ s', (bridgeStopSystem Tid Frame sender depth).Leads s s' ∧ StopInvariant sender s' ∧
      s'.stopMutex = none ∧ s'.calls sender = .none := by
  have hfree : ∃ s₁, (bridgeStopSystem Tid Frame sender depth).Leads s s₁ ∧
      StopInvariant sender s₁ ∧ s₁.stopMutex = none := by
    cases hmutex : s.stopMutex with
    | none => exact ⟨s, .refl s, hinv, hmutex⟩
    | some t =>
      have hholds := (hinv.holder t).mp hmutex
      have hother : t = sender ∨ s.calls sender = .none := by
        by_cases hself : t = sender
        · exact .inl hself
        · right
          have hout : ¬ (s.calls sender).holds = true := fun h =>
            hself (hinv.eq_of_holds hholds h).symm
          cases hcall : s.calls sender with
          | none => rfl
          | locking => exact absurd ⟨hself, hmutex, hcall⟩ (hclear t)
          | _ => simp [hcall, StopCall.holds] at hout
      obtain ⟨s₁, hleads, hinv₁, hmutex₁, -⟩ := exists_finish depth hinv hholds hother
      exact ⟨s₁, hleads, hinv₁, hmutex₁⟩
  obtain ⟨s₁, hleads, hinv₁, hmutex₁⟩ := hfree
  rcases hinv₁.eq_of_stopMutex_none hmutex₁ sender with hnone | hlocking
  · exact ⟨s₁, hleads, hinv₁, hmutex₁, hnone⟩
  · obtain ⟨s₂, hleads₂, hinv₂, hmutex₂, hnone, -⟩ :=
      exists_serve depth hinv₁ hmutex₁ hlocking (.inl rfl)
    exact ⟨s₂, hleads.trans hleads₂, hinv₂, hmutex₂, hnone⟩

variable (depth) in
/-- Where nothing is crossed, any call can return, and the sender thread is in none. -/
theorem exists_return (hinv : StopInvariant sender s) (hclear : ∀ t, ¬ s.Crossed sender t)
    (t : Tid) :
    ∃ s', (bridgeStopSystem Tid Frame sender depth).Leads s s' ∧ s'.calls t = .none ∧
      s'.calls sender = .none := by
  obtain ⟨s₁, hleads₁, hinv₁, hmutex₁, hidle⟩ := exists_settle depth hinv hclear
  rcases hinv₁.eq_of_stopMutex_none hmutex₁ t with hnone | hlocking
  · exact ⟨s₁, hleads₁, hnone, hidle⟩
  · obtain ⟨s₂, hleads₂, -, -, hnone, hothers⟩ :=
      exists_serve depth hinv₁ hmutex₁ hlocking (.inr hidle)
    have hne : sender ≠ t := by
      intro hst
      rw [← hst, hidle] at hlocking
      cases hlocking
    exact ⟨s₂, hleads₁.trans hleads₂, hnone, (hothers sender hne).trans hidle⟩

/-- The sender thread of a bridge that is or will be stopped can leave its loop. -/
theorem exists_leave (hinv : StopInvariant sender s) (hclear : ∀ t, ¬ s.Crossed sender t)
    (hbegun : s.stopped = true ∨ s.calls t ≠ .none) :
    ∃ s', (bridgeStopSystem Tid Frame sender depth).Leads s s' ∧ s'.sender = .left := by
  obtain ⟨s₁, hleads₁, hnone, hidle⟩ := exists_return depth hinv hclear t
  have hstopped : s₁.stopped = true :=
    (begun_of_leads hinv hleads₁ hbegun).2.resolve_right fun hbusy => hbusy hnone
  let P (s' : BridgeStopState Tid Frame) : Prop := s'.stopped = true ∧ s'.calls sender = .none
  have hprogress (s₂ : BridgeStopState Tid Frame) (hs₂ : P s₂) (hleft : ¬ s₂.sender = .left) :
      ∃ a s₃, s₂.step sender a = some s₃ ∧ P s₃ ∧ s₃.sender.rank < s₂.sender.rank := by
    obtain ⟨a, s₃, hstep, hstopped₃, hcalls, hlt⟩ := exists_sender_step hs₂.1 hs₂.2 hleft
    exact ⟨a, s₃, hstep, ⟨hstopped₃, by rw [hcalls, hs₂.2]⟩, hlt⟩
  obtain ⟨s', hleads, -, hleft⟩ := TransitionSystem.exists_leads_of_progress
    (M := bridgeStopSystem Tid Frame sender depth) (P := P) _ hprogress ⟨hstopped, hidle⟩
  exact ⟨s', hleads₁.trans hleads, hleft⟩

/-- A thread waits for a lock or for a join that only another thread can provide. -/
def Waits (s : BridgeStopState Tid Frame) (t : Tid) : Prop :=
  (s.calls t = .locking ∧ ∃ u ≠ t, s.stopMutex = some u) ∨
    (s.calls t = .joining ∧ s.sender ≠ .left)

/-- The sender thread and all that are in `stop` wait. -/
def Deadlocked (sender : Tid) (s : BridgeStopState Tid Frame) : Prop :=
  s.Waits sender ∧ ∀ t, s.calls t ≠ .none → s.Waits t

/-- The `FrameSender` calls `stop` only while no other thread has the stop mutex, and no other
thread takes it from a `FrameSender` that waits for it. -/
def StopsApart (sender : Tid) (s : BridgeStopState Tid Frame) :
    BridgeStopAction Tid Frame → Prop
  | .stop t => t = sender → s.stopMutex = none
  | .lock t => t ≠ sender → s.calls sender ≠ .locking
  | _ => True

instance (sender : Tid) (s : BridgeStopState Tid Frame) : DecidablePred (s.StopsApart sender)
  | .stop t => inferInstanceAs (Decidable (t = sender → s.stopMutex = none))
  | .lock t => inferInstanceAs (Decidable (t ≠ sender → s.calls sender ≠ .locking))
  | .addExport | .callbackBegin _ | .emitFrame _ _ | .push _ | .callbackEnd _ | .check | .pop
  | .senderEnd | .exchange _ | .configure _ | .cancel _ | .waited _ | .stopRunning _ | .close _
  | .connection _ | .join _ | .unlock _ => .isTrue trivial

omit [DecidableEq Tid] in
theorem Deadlocked.exists_crossed (hinv : StopInvariant sender s) (h : s.Deadlocked sender) :
    ∃ t, s.Crossed sender t := by
  rcases h.1 with ⟨hlocking, t, hne, hmutex⟩ | ⟨hjoining, -⟩
  · exact ⟨t, hne, hmutex, hlocking⟩
  · exact absurd hjoining hinv.joining

/-- The sender thread cannot leave its `FrameSender`, so the join is never over. -/
theorem Crossed.step (hinv : StopInvariant sender s) (hcrossed : s.Crossed sender t)
    (h : s.step sender a = some s') : s'.Crossed sender t := by
  obtain ⟨hne, hmutex, hlocking⟩ := hcrossed
  obtain ⟨frame, hframe⟩ := hinv.sending (by simp [hlocking])
  have hkept (u : Tid) (call : StopCall) (hcall : s.calls u ≠ .locking) :
      Function.update s.calls u call sender = .locking := by
    rw [Function.update_of_ne, hlocking]
    rintro rfl
    exact hcall hlocking
  cases step_view h with
  | quiet => exact ⟨hne, hmutex, hlocking⟩
  | looped _ loop outbound _ hidle =>
    rw [hidle frame hframe] at hlocking
    cases hlocking
  | called u hnone => exact ⟨hne, hmutex, hkept u _ (by simp [hnone])⟩
  | locked u hcall hfree =>
    rw [hfree] at hmutex
    cases hmutex
  | exchanged u hcall => exact ⟨hne, hmutex, hkept u _ (by simp [hcall])⟩
  | moved _ u call exports cancellers running outbound hpast =>
    refine ⟨hne, hmutex, hkept u _ fun hcall => ?_⟩
    rw [hcall] at hpast
    cases hpast
  | joined u hcall hleft =>
    rw [hleft] at hframe
    cases hframe
  | unlocked u hcall =>
    have hut : u = t :=
      hinv.eq_of_holds ((hinv.holder t).mp hmutex) (by rw [hcall]; rfl)
    rcases hinv.unlocking u hcall with hself | hjoined
    · exact absurd (hut.symm.trans hself) hne
    · rw [hinv.joined hjoined] at hframe
      cases hframe

/-- Only a step outside of the condition crosses two calls. -/
theorem crossed_of_step (h : s.step sender a = some s')
    (hcrossed : s'.Crossed sender t) : s.Crossed sender t ∨ ¬ s.StopsApart sender a := by
  obtain ⟨hne, hmutex, hlocking⟩ := hcrossed
  -- a call that moves on to anything but `locking` is not the sender thread's
  have hother (u : Tid) (call : StopCall) (hcall : call ≠ .locking)
      (hlocking : Function.update s.calls u call sender = .locking) :
      u ≠ sender ∧ s.calls sender = .locking := by
    rw [Function.update_apply] at hlocking
    split at hlocking
    case isTrue => exact absurd hlocking hcall
    case isFalse hself => exact ⟨fun h => hself h.symm, hlocking⟩
  cases step_view h with
  | quiet | looped => exact .inl ⟨hne, hmutex, hlocking⟩
  | called u hnone =>
    by_cases hself : u = sender
    · right
      intro hapart
      rw [setCall_stopMutex, hapart hself] at hmutex
      cases hmutex
    · rw [setCall_calls, Function.update_of_ne (Ne.symm hself)] at hlocking
      exact .inl ⟨hne, hmutex, hlocking⟩
  | locked u hcall hfree =>
    obtain ⟨hself, hsender⟩ := hother u _ (by simp) hlocking
    exact .inr fun hapart => hapart hself hsender
  | exchanged u hcall =>
    exact .inl ⟨hne, hmutex, (hother u _ (by split <;> simp) hlocking).2⟩
  | moved _ u call exports cancellers running outbound hpast hpast' =>
    refine .inl ⟨hne, hmutex, (hother u _ (fun hcall => ?_) hlocking).2⟩
    rw [hcall] at hpast'
    cases hpast'
  | joined u hcall => exact .inl ⟨hne, hmutex, (hother u _ (by simp) hlocking).2⟩
  | unlocked u hcall => cases hmutex

theorem calls_of_canCall (h : s.canCall sender t = true) : s.calls t = .none := by
  simp only [canCall] at h
  split at h
  case h_1 hcall _ => exact hcall
  case h_2 hcall _ => exact hcall
  case h_3 => cases h

/-- A step outside of the condition crosses the two calls. -/
theorem exists_crossed_of_step (hinv : StopInvariant sender s) (h : s.step sender a = some s')
    (hapart : ¬ s.StopsApart sender a) : ∃ t, s'.Crossed sender t := by
  cases a with
  | stop u =>
    obtain ⟨hcan, h⟩ := Option.ite_none_right_eq_some.mp h
    cases h
    obtain ⟨hself, hbusy⟩ := Classical.not_imp.mp hapart
    obtain ⟨t, hmutex⟩ := Option.ne_none_iff_exists'.mp hbusy
    refine ⟨t, fun ht => ?_, hmutex, by rw [setCall_calls, hself, Function.update_self]⟩
    have hholds := (hinv.holder t).mp hmutex
    rw [ht, ← hself, calls_of_canCall hcan] at hholds
    cases hholds
  | lock u =>
    simp only [step] at h
    split at h <;> cases h
    obtain ⟨hne, hbusy⟩ := Classical.not_imp.mp hapart
    refine ⟨u, hne, rfl, ?_⟩
    rw [setCall_calls, Function.update_of_ne (Ne.symm hne)]
    exact not_not.mp hbusy
  | _ => exact absurd trivial hapart

theorem not_crossed_of_reachable
    (h : (bridgeStopSystem Tid Frame sender depth).ReachableVia (StopsApart sender) s) :
    ¬ s.Crossed sender t := by
  refine h.invariant (P := fun s => ¬ s.Crossed sender t) (fun s hinit hcrossed => ?_)
    fun s a s' _ hclear hapart hstep hcrossed => ?_
  · cases hinit
    cases hcrossed.2.1
  · rcases crossed_of_step hstep hcrossed with hold | hbad
    · exact hclear hold
    · exact hbad hapart

/-- Two calls that are crossed end in a deadlock. -/
theorem exists_deadlock (hinv : StopInvariant sender s) (hcrossed : s.Crossed sender t) :
    ∃ s', (bridgeStopSystem Tid Frame sender depth).Leads s s' ∧ s'.Deadlocked sender := by
  let P (s' : BridgeStopState Tid Frame) : Prop :=
    StopInvariant sender s' ∧ s'.Crossed sender t
  have hprogress (s₁ : BridgeStopState Tid Frame) (hs₁ : P s₁) (hbefore : ¬ s₁.calls t = .joining) :
      ∃ a s₂, s₁.step sender a = some s₂ ∧ P s₂ ∧
        s₂.callRank (s₂.calls t) < s₁.callRank (s₁.calls t) := by
    obtain ⟨hinv₁, hcrossed₁⟩ := hs₁
    have hholds := (hinv₁.holder t).mp hcrossed₁.2.1
    obtain ⟨a, s₂, hstep, hadvances⟩ :=
      exists_advance hinv₁ hholds fun hjoining => absurd hjoining hbefore
    exact ⟨a, s₂, hstep, ⟨hinv₁.step hstep, hcrossed₁.step hinv₁ hstep⟩, hadvances.lower⟩
  obtain ⟨s', hleads, ⟨hinv', hne, hmutex, hlocking⟩, hjoining⟩ :=
    TransitionSystem.exists_leads_of_progress
      (M := bridgeStopSystem Tid Frame sender depth) (P := P) _ hprogress ⟨hinv, hcrossed⟩
  obtain ⟨frame, hframe⟩ := hinv'.sending (by simp [hlocking])
  refine ⟨s', hleads, .inl ⟨hlocking, t, hne, hmutex⟩, fun u hbusy => ?_⟩
  by_cases hut : u = t
  · exact .inr ⟨hut ▸ hjoining, by simp [hframe]⟩
  · have hout : ¬ (s'.calls u).holds = true := fun hu =>
      hut (hinv'.eq_of_holds ((hinv'.holder t).mp hmutex) hu)
    cases hcall : s'.calls u with
    | none => exact absurd hcall hbusy
    | locking => exact .inl ⟨hcall, t, Ne.symm hut, hmutex⟩
    | _ => simp [hcall, StopCall.holds] at hout

/-- As long as the two are kept apart no state is deadlocked, every call of `stop` can return and
the sender thread can leave its loop. One step that does not keep them apart ends in a deadlock,
and neither call nor the sender thread ever ends. -/
theorem stop_returns_iff_apart (sender : Tid) (depth : ℕ) :
    (∀ s, (bridgeStopSystem Tid Frame sender depth).ReachableVia (StopsApart sender) s →
      ¬ s.Deadlocked sender ∧
      (∀ t, ∃ s', (bridgeStopSystem Tid Frame sender depth).Leads s s' ∧ s'.calls t = .none) ∧
      ((s.stopped = true ∨ ∃ t, s.calls t ≠ .none) →
        ∃ s', (bridgeStopSystem Tid Frame sender depth).Leads s s' ∧ s'.sender = .left)) ∧
    ∀ s a s', (bridgeStopSystem Tid Frame sender depth).Reachable s →
      (bridgeStopSystem Tid Frame sender depth).step s a = some s' → ¬ s.StopsApart sender a →
      (∃ s₁, (bridgeStopSystem Tid Frame sender depth).Leads s' s₁ ∧ s₁.Deadlocked sender) ∧
      ∃ t ≠ sender, ∀ s₁, (bridgeStopSystem Tid Frame sender depth).Leads s' s₁ →
        s₁.calls t ≠ .none ∧ s₁.calls sender ≠ .none ∧ s₁.sender ≠ .left := by
  constructor
  · intro s hreach
    have hinv := stopInvariant_of_reachable hreach.reachable
    have hclear (t : Tid) : ¬ s.Crossed sender t := not_crossed_of_reachable hreach
    refine ⟨fun hdead => ?_, fun t => ?_, fun hbegun => ?_⟩
    · obtain ⟨t, hcrossed⟩ := hdead.exists_crossed hinv
      exact hclear t hcrossed
    · obtain ⟨s', hleads, hnone, -⟩ := exists_return depth hinv hclear t
      exact ⟨s', hleads, hnone⟩
    · rcases hbegun with hstopped | ⟨t, hbusy⟩
      · exact exists_leave (t := sender) hinv hclear (.inl hstopped)
      · exact exists_leave hinv hclear (.inr hbusy)
  · intro s a s' hreach hstep hapart
    have hinv := stopInvariant_of_reachable hreach
    have hinv' : StopInvariant sender s' := hinv.step hstep
    obtain ⟨t, hcrossed⟩ := exists_crossed_of_step hinv hstep hapart
    refine ⟨exists_deadlock hinv' hcrossed, t, hcrossed.1, fun s₁ hleads => ?_⟩
    have hkept : StopInvariant sender s₁ ∧ s₁.Crossed sender t :=
      hleads.invariant (P := fun s => StopInvariant sender s ∧ s.Crossed sender t)
        (fun s a s' hs hstep => ⟨hs.1.step hstep, hs.2.step hs.1 hstep⟩) ⟨hinv', hcrossed⟩
    obtain ⟨hinv₁, hne, hmutex, hlocking⟩ := hkept
    obtain ⟨frame, hframe⟩ := hinv₁.sending (by simp [hlocking])
    refine ⟨fun hnone => ?_, by simp [hlocking], by simp [hframe]⟩
    have hholds := (hinv₁.holder t).mp hmutex
    rw [hnone] at hholds
    cases hholds

/-- A frame is being sent and its export callback still runs when another thread stops the
bridge, which then joins the sender thread. -/
def stopWhileSending : List (BridgeStopAction (Fin 2) ℕ) :=
  [.addExport, .callbackBegin 0, .emitFrame 0 7, .push 0, .check, .pop, .stop 1, .lock 1,
    .exchange 1, .configure 1, .cancel 1, .callbackEnd 0, .waited 1, .stopRunning 1, .close 1,
    .connection 1]

theorem stop_returns_while_sending :
    ∃ s, (bridgeStopSystem (Fin 2) ℕ 0 4).ReachableVia (StopsApart 0) s ∧
      (s.calls 1 = .joining ∧ s.sender = .sending 7) ∧ ¬ s.Deadlocked 0 ∧
      (∃ s', (bridgeStopSystem (Fin 2) ℕ 0 4).Leads s s' ∧ s'.calls 1 = .none) ∧
      ∃ s', (bridgeStopSystem (Fin 2) ℕ 0 4).Leads s s' ∧ s'.sender = .left := by
  obtain ⟨s, hreach, hs⟩ := TransitionSystem.exists_reachableVia_of_run
    (bridgeStopSystem (Fin 2) ℕ 0 4) (StopsApart 0) _ stopWhileSending
    (fun s => decide (s.calls 1 = .joining ∧ s.sender = .sending 7)) rfl (by decide)
  have hjoining := of_decide_eq_true hs
  obtain ⟨hdead, hreturn, hleave⟩ := (stop_returns_iff_apart 0 4).1 s hreach
  exact ⟨s, hreach, hjoining, hdead, hreturn 1, hleave (.inr ⟨1, by simp [hjoining.1]⟩)⟩

/-- The same, and then the `FrameSender` calls `stop`. -/
theorem stop_deadlocks_while_sending :
    ¬ ∀ s, (bridgeStopSystem (Fin 2) ℕ 0 4).Reachable s → ¬ s.Deadlocked 0 := by
  intro hclaim
  obtain ⟨s, hreach, hs⟩ := TransitionSystem.exists_reachable_of_run
    (bridgeStopSystem (Fin 2) ℕ 0 4) _ (stopWhileSending ++ [.stop 0])
    (fun s => decide ((s.calls 0 = .locking ∧ s.stopMutex = some 1) ∧ s.calls 1 = .joining ∧
      s.sender = .sending 7)) rfl (by decide)
  obtain ⟨⟨hlocking, hmutex⟩, hjoining, hsending⟩ := of_decide_eq_true hs
  have hself : s.Waits 0 := .inl ⟨hlocking, 1, by decide, hmutex⟩
  refine hclaim s hreach ⟨hself, fun t _ => ?_⟩
  match t with
  | 0 => exact hself
  | 1 => exact .inr ⟨hjoining, by simp [hsending]⟩

end BridgeStopState
end RobotMiddleware
