import RobotMiddleware.MailboxModel

/-! What one step of the mailbox system can do, said once. Invariants are proved by
cases on these views and never unfold the step function. -/
namespace RobotMiddleware

namespace SubscriptionControlBlock
variable {Tid Msg : Type}

@[simp] theorem cancel_callbackThread (c : SubscriptionControlBlock Tid Msg) :
    c.cancel.callbackThread = c.callbackThread := rfl

@[simp] theorem enqueueCleanup_callbackThread (c : SubscriptionControlBlock Tid Msg) :
    c.enqueueCleanup.callbackThread = c.callbackThread := rfl

@[simp] theorem drainFinish_callbackThread (c : SubscriptionControlBlock Tid Msg)
    (failed : Bool) : (c.drainFinish failed).callbackThread = none := rfl

@[simp] theorem drainFinish_inFlight (c : SubscriptionControlBlock Tid Msg) (failed : Bool) :
    (c.drainFinish failed).inFlight = c.inFlight - 1 := rfl

/-- Only a block with a callback can be created. -/
theorem create_hasCallback {options : SubscriptionOptions} {hasCallback : Bool}
    {block : SubscriptionControlBlock Tid Msg} (h : create options hasCallback = .ok block) :
    (create options true : Except MiddlewareError (SubscriptionControlBlock Tid Msg)) =
      .ok block := by
  cases hasCallback with
  | true => exact h
  | false =>
    unfold create at h
    split at h <;> cases h

inductive PushView (c : SubscriptionControlBlock Tid Msg) (message : Msg) (isRemote : Bool) :
    PushResult Tid Msg → Prop
  | skipped : (c.active = false ∨ isRemote = true ∧ c.options.receiveRemote = false) →
      PushView c message isRemote ⟨c, {}, false⟩
  | rejected : c.active = true → c.options.overflowPolicy = .rejectNewest →
      c.options.queueDepth ≤ c.pending.length →
      PushView c message isRemote
        ⟨{ c with rejectedNewest := c.rejectedNewest + 1 }, { rejectedNewest := true }, false⟩
  | displaced (oldest : Msg) (rest : List Msg) : c.active = true →
      c.options.overflowPolicy = .dropOldest → c.pending = oldest :: rest →
      c.options.queueDepth ≤ c.pending.length →
      PushView c message isRemote
        (accept { c with pending := rest, droppedOldest := c.droppedOldest + 1 }
          { droppedOldest := true } message)
  | appended : c.active = true → c.pending.length < c.options.queueDepth →
      PushView c message isRemote (accept c {} message)

theorem enqueuePush_view (c : SubscriptionControlBlock Tid Msg) (message : Msg)
    (isRemote : Bool) : PushView c message isRemote (c.enqueuePush message isRemote) := by
  unfold enqueuePush
  split
  case isTrue hinactive => exact .skipped (.inl (by simpa using hinactive))
  case isFalse hactive =>
    replace hactive : c.active = true := by simpa using hactive
    split
    case isTrue hremote => exact .skipped (.inr (by simpa using hremote))
    case isFalse hlocal =>
      split
      case isTrue hfull =>
        split
        case h_1 hpolicy => exact .rejected hactive hpolicy hfull
        case h_2 hpolicy =>
          -- a full mailbox of positive depth has a front to pop
          obtain ⟨oldest, rest, hpending⟩ := List.exists_cons_of_length_pos
            (lt_of_lt_of_le c.queueDepth_pos hfull)
          have htail : c.pending.tail = rest := by rw [hpending, List.tail_cons]
          rw [htail]
          exact .displaced oldest rest hactive hpolicy hpending hfull
      case isFalse hroom => exact .appended hactive (not_le.mp hroom)

inductive PopView (c : SubscriptionControlBlock Tid Msg) (t : Tid) :
    SubscriptionControlBlock Tid Msg × Option Msg → Prop
  | inactive : c.active = false →
      PopView c t ({ c with pending := [], scheduled := false }, none)
  | empty : c.active = true → c.pending = [] → PopView c t ({ c with scheduled := false }, none)
  | popped (message : Msg) (rest : List Msg) : c.active = true → c.pending = message :: rest →
      PopView c t
        ({ c with pending := rest, inFlight := c.inFlight + 1, callbackThread := some t },
          some message)

theorem drainPop_view (c : SubscriptionControlBlock Tid Msg) (t : Tid) :
    PopView c t (c.drainPop t) := by
  unfold drainPop
  split
  case isTrue hinactive => exact .inactive (by simpa using hinactive)
  case isFalse hactive =>
    replace hactive : c.active = true := by simpa using hactive
    split
    case h_1 hpending => exact .empty hactive hpending
    case h_2 message rest hpending => exact .popped message rest hactive hpending

end SubscriptionControlBlock

namespace MailboxThread
variable {Msg : Type}

@[simp] theorem notified_drain (th : MailboxThread Msg) : th.notified.drain = th.drain := by
  unfold notified
  split <;> rfl

theorem notified_call (th : MailboxThread Msg) :
    th.notified.call = if th.call = .waiting then .woken else th.call := by
  unfold notified
  split
  · simp only [*, ↓reduceIte]
  · rw [if_neg ‹_›]

theorem canCall_iff (th : MailboxThread Msg) :
    th.canCall = true ↔
      th.call = .none ∧ (th.drain = .none ∨ ∃ message, th.drain = .callback message) := by
  rcases th with ⟨drain, call⟩
  cases call <;> cases drain <;> simp [canCall]

end MailboxThread

namespace MailboxState
variable {Tid Msg : Type} [DecidableEq Tid] (threads : Tid → MailboxThread Msg) (t u : Tid)

@[simp] theorem setCall_drain (call : CallState) :
    (setCall threads t call u).drain = (threads u).drain := by
  by_cases h : u = t
  · subst h; simp [setCall]
  · simp [setCall, h]

@[simp] theorem setCall_call (call : CallState) :
    (setCall threads t call u).call = if u = t then call else (threads u).call := by
  by_cases h : u = t
  · subst h; simp [setCall]
  · simp [setCall, h]

@[simp] theorem setDrain_call (drain : DrainState Msg) :
    (setDrain threads t drain u).call = (threads u).call := by
  by_cases h : u = t
  · subst h; simp [setDrain]
  · simp [setDrain, h]

@[simp] theorem setDrain_drain (drain : DrainState Msg) :
    (setDrain threads t drain u).drain = if u = t then drain else (threads u).drain := by
  by_cases h : u = t
  · subst h; simp [setDrain]
  · simp [setDrain, h]

omit [DecidableEq Tid] in
@[simp] theorem notifyAll_drain : (notifyAll threads u).drain = (threads u).drain :=
  MailboxThread.notified_drain _

omit [DecidableEq Tid] in
@[simp] theorem notifyAll_call :
    (notifyAll threads u).call =
      if (threads u).call = .waiting then .woken else (threads u).call :=
  MailboxThread.notified_call _

variable {threads t u}

inductive StepView (s : MailboxState Tid Msg) :
    MailboxAction Tid Msg → MailboxState Tid Msg → Prop
  | enqueue (t : Tid) (message : Msg) (isRemote : Bool)
      (r : SubscriptionControlBlock.PushResult Tid Msg) :
      (s.threads t).canCall = true → s.block.PushView message isRemote r →
      StepView s (.enqueue t message isRemote) { s with
        block := r.block
        threads := if r.mustSchedule then setCall s.threads t (.posting r.outcome) else s.threads
        history := { s.history with
          accepted := if r.outcome.enqueued then s.history.accepted ++ [message]
            else s.history.accepted
          returns := if r.mustSchedule then s.history.returns
            else s.history.returns ++ [(t, .enqueued r.outcome)] } }
  | posted (t : Tid) (outcome : DeliveryOutcome) : (s.threads t).call = .posting outcome →
      StepView s (.post t .accepted) { s with
        tasks := s.tasks + 1
        threads := setCall s.threads t .none
        history := { s.history with
          returns := s.history.returns ++ [(t, .enqueued outcome)] } }
  | postFailed (t : Tid) (outcome : DeliveryOutcome) (result : PostResult) (threw : Bool) :
      (s.threads t).call = .posting outcome → result ≠ .accepted →
      StepView s (.post t result) { s with
        threads := setCall s.threads t (.cleaning outcome threw)
        history := { s.history with postFailed := true } }
  | cleanup (t : Tid) (outcome : DeliveryOutcome) (threw : Bool) :
      (s.threads t).call = .cleaning outcome threw →
      StepView s (.cleanup t) { s with
        block := s.block.enqueueCleanup
        threads := notifyAll (setCall s.threads t .none)
        history := { s.history with
          returns := s.history.returns ++ [(t, if threw then .enqueueThrew
            else .enqueued { outcome with enqueued := false, executorRejected := true })] } }
  | cancel (t : Tid) : (s.threads t).canCall = true →
      StepView s (.cancel t) { s with
        block := s.block.cancel
        threads := notifyAll s.threads
        history := { s.history with
          cancelled := true
          cancelDiscarded := s.history.cancelDiscarded + s.block.pending.length
          returns := s.history.returns ++ [(t, .cancelled)] } }
  | cancelAndWait (t : Tid) : (s.threads t).canCall = true →
      StepView s (.cancelAndWait t) { s with
        block := s.block.cancel
        threads := setCall (notifyAll s.threads) t .waitEntry
        history := { s.history with
          cancelled := true
          cancelDiscarded := s.history.cancelDiscarded + s.block.pending.length } }
  | waitThrew (t : Tid) : (s.threads t).call = .waitEntry →
      s.block.waitsForItself t = true →
      StepView s (.checkWait t) { s with
        threads := setCall s.threads t .none
        history := { s.history with
          returns := s.history.returns ++ [(t, .waitThrew selfWaitError)] } }
  | waited (t : Tid) (a : MailboxAction Tid Msg) :
      (s.threads t).call = .waitEntry ∧ a = .checkWait t ∨
        (s.threads t).call = .woken ∧ a = .recheck t →
      s.block.inFlight = 0 →
      StepView s a { s with
        threads := setCall s.threads t .none
        history := { s.history with returns := s.history.returns ++ [(t, .waited)] } }
  | slept (t : Tid) (a : MailboxAction Tid Msg) :
      (s.threads t).call = .waitEntry ∧ a = .checkWait t ∧ s.block.waitsForItself t = false ∨
        (s.threads t).call = .woken ∧ a = .recheck t →
      s.block.inFlight ≠ 0 →
      StepView s a { s with threads := setCall s.threads t .waiting }
  | woke (t : Tid) : (s.threads t).call = .waiting →
      StepView s (.wake t) { s with threads := setCall s.threads t .woken }
  | startDrain (t : Tid) (tasks : ℕ) : s.tasks = tasks + 1 → (s.threads t).call = .none →
      (s.threads t).drain = .none →
      StepView s (.startDrain t)
        { s with tasks := tasks, threads := setDrain s.threads t .popping }
  | popped (t : Tid) (message : Msg) (rest : List Msg) : (s.threads t).drain = .popping →
      s.block.active = true → s.block.pending = message :: rest →
      StepView s (.pop t) { s with
        block := { s.block with
          pending := rest, inFlight := s.block.inFlight + 1, callbackThread := some t }
        threads := setDrain s.threads t (.callback message)
        history := { s.history with started := s.history.started ++ [message] } }
  | drained (t : Tid) : (s.threads t).drain = .popping →
      s.block.active = false ∨ s.block.pending = [] →
      StepView s (.pop t) { s with
        block := { s.block with pending := [], scheduled := false }
        threads := notifyAll (setDrain s.threads t .none)
        history := { s.history with
          cancelDiscarded := s.history.cancelDiscarded + s.block.pending.length } }
  | callbackEnd (t : Tid) (message : Msg) (threw : Bool) : (s.threads t).call = .none →
      (s.threads t).drain = .callback message →
      StepView s (.callbackEnd t threw)
        { s with threads := setDrain s.threads t (.finishing threw) }
  | finish (t : Tid) (failed : Bool) : (s.threads t).drain = .finishing failed →
      StepView s (.finish t) { s with
        block := s.block.drainFinish failed
        threads := notifyAll (setDrain s.threads t .popping) }

theorem step_view {s s' : MailboxState Tid Msg} {a : MailboxAction Tid Msg}
    (h : s.step a = some s') : StepView s a s' := by
  cases a with
  | enqueue t message isRemote =>
    simp only [step, Option.ite_none_right_eq_some, Option.some.injEq] at h
    obtain ⟨hcall, rfl⟩ := h
    exact .enqueue t message isRemote _ hcall (s.block.enqueuePush_view message isRemote)
  | post t result =>
    simp only [step] at h
    split at h
    case h_1 outcome hcall => cases h; exact .posted t outcome hcall
    case h_2 outcome hcall => cases h; exact .postFailed t outcome _ false hcall (by simp)
    case h_3 outcome hcall => cases h; exact .postFailed t outcome _ true hcall (by simp)
    case h_4 => cases h
  | cleanup t =>
    simp only [step] at h
    split at h
    case h_1 outcome threw hcall => cases h; exact .cleanup t outcome threw hcall
    case h_2 => cases h
  | cancel t =>
    simp only [step, Option.ite_none_right_eq_some, Option.some.injEq] at h
    obtain ⟨hcall, rfl⟩ := h
    exact .cancel t hcall
  | cancelAndWait t =>
    simp only [step, Option.ite_none_right_eq_some, Option.some.injEq] at h
    obtain ⟨hcall, rfl⟩ := h
    exact .cancelAndWait t hcall
  | checkWait t =>
    simp only [step] at h
    split at h
    case h_1 hcall =>
      split at h
      case isTrue hself => cases h; exact .waitThrew t hcall hself
      case isFalse hself =>
        split at h
        case isTrue hidle => cases h; exact .waited t _ (.inl ⟨hcall, rfl⟩) hidle
        case isFalse hbusy =>
          cases h
          exact .slept t _ (.inl ⟨hcall, rfl, by simpa using hself⟩) hbusy
    case h_2 => cases h
  | wake t =>
    simp only [step] at h
    split at h
    case h_1 hcall => cases h; exact .woke t hcall
    case h_2 => cases h
  | recheck t =>
    simp only [step] at h
    split at h
    case h_1 hcall =>
      split at h
      case isTrue hidle => cases h; exact .waited t _ (.inr ⟨hcall, rfl⟩) hidle
      case isFalse hbusy => cases h; exact .slept t _ (.inr ⟨hcall, rfl⟩) hbusy
    case h_2 => cases h
  | startDrain t =>
    simp only [step] at h
    split at h
    case h_1 tasks htasks hcall hdrain => cases h; exact .startDrain t tasks htasks hcall hdrain
    case h_2 => cases h
  | pop t =>
    simp only [step] at h
    split at h
    case h_1 hdrain =>
      have hview := s.block.drainPop_view t
      generalize s.block.drainPop t = r at h hview
      cases hview with
      | inactive hactive => cases h; exact .drained t hdrain (.inl hactive)
      | empty hactive hpending =>
        cases h
        have hview := StepView.drained (s := s) t hdrain (.inr hpending)
        simpa only [hpending] using hview
      | popped message rest hactive hpending =>
        cases h
        exact .popped t message rest hdrain hactive hpending
    case h_2 => cases h
  | callbackEnd t threw =>
    simp only [step] at h
    split at h
    case h_1 message hcall hdrain => cases h; exact .callbackEnd t message threw hcall hdrain
    case h_2 => cases h
  | finish t =>
    simp only [step] at h
    split at h
    case h_1 failed hdrain => cases h; exact .finish t failed hdrain
    case h_2 => cases h

variable {s s' : MailboxState Tid Msg} {a : MailboxAction Tid Msg}

/-- Only the steps of `drain` move a thread in `drain`. -/
theorem drain_of_step (hs : s.step a = some s') (u : Tid) :
    (s'.threads u).drain = (s.threads u).drain ∨ a = .startDrain u ∨ a = .pop u ∨
      (∃ threw, a = .callbackEnd u threw) ∨ a = .finish u := by
  cases step_view hs with
  | enqueue t message isRemote r =>
    left
    split
    case isTrue => rw [setCall_drain]
    case isFalse => rfl
  | startDrain t =>
    by_cases hut : u = t
    · exact .inr (.inl (by rw [hut]))
    · exact .inl (by simp only [setDrain_drain, if_neg hut])
  | popped t =>
    by_cases hut : u = t
    · exact .inr (.inr (.inl (by rw [hut])))
    · exact .inl (by simp only [setDrain_drain, if_neg hut])
  | drained t =>
    by_cases hut : u = t
    · exact .inr (.inr (.inl (by rw [hut])))
    · exact .inl (by simp only [notifyAll_drain, setDrain_drain, if_neg hut])
  | callbackEnd t message threw =>
    by_cases hut : u = t
    · exact .inr (.inr (.inr (.inl ⟨threw, by rw [hut]⟩)))
    · exact .inl (by simp only [setDrain_drain, if_neg hut])
  | finish t =>
    by_cases hut : u = t
    · exact .inr (.inr (.inr (.inr (by rw [hut]))))
    · exact .inl (by simp only [notifyAll_drain, setDrain_drain, if_neg hut])
  | _ => exact .inl (by simp only [notifyAll_drain, setCall_drain])

/-- Only the pop section starts a callback. -/
theorem started_of_step (hs : s.step a = some s') :
    s'.history.started = s.history.started ∨ ∃ t, a = .pop t := by
  cases step_view hs with
  | popped t => exact .inr ⟨t, rfl⟩
  | _ => exact .inl rfl

end MailboxState
end RobotMiddleware
