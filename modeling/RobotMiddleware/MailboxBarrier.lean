import RobotMiddleware.MailboxTokens
import RobotMiddleware.MailboxOrder

/-! `cancel_and_wait` as a barrier: what its return means, which of its calls throw, and
why nobody sleeps through the last notification. -/
namespace RobotMiddleware

def MailboxAction.actor {Tid Msg : Type} : MailboxAction Tid Msg → Tid
  | .enqueue t _ _ | .post t _ | .cleanup t | .cancel t | .cancelAndWait t | .checkWait t
  | .wake t | .recheck t | .startDrain t | .pop t | .callbackEnd t _ | .finish t => t

/-- `cancel_and_wait` has cancelled and has not come back. -/
def CallState.inWait : CallState → Bool
  | .waitEntry | .waiting | .woken => true
  | _ => false

namespace MailboxState
variable {Tid Msg : Type} {options : SubscriptionOptions} {s s' s₁ s₂ : MailboxState Tid Msg}

/-- A thread in a call runs user code below it, or nothing. Who waits has cancelled
first, who sleeps or has slept is not the callback thread, and nobody sleeps on an idle
mailbox. -/
structure BarrierInvariant (s : MailboxState Tid Msg) : Prop where
  cancelled : ∀ t, (s.threads t).call.inWait = true → s.block.active = false
  returned : ∀ t, (t, CallReturn.waited) ∈ s.history.returns →
    s.block.active = false ∧ s.block.inFlight = 0
  awake : ∀ t, (s.threads t).call = .waiting → s.block.inFlight ≠ 0
  context : ∀ t, (s.threads t).call ≠ .none →
    (s.threads t).drain = .none ∨ ∃ message, (s.threads t).drain = .callback message
  outside : ∀ t, (s.threads t).call = .waiting ∨ (s.threads t).call = .woken →
    (s.threads t).drain = .none

namespace BarrierInvariant

theorem initial {block : SubscriptionControlBlock Tid Msg} :
    BarrierInvariant { block := block } := by
  refine ⟨?_, ?_, ?_, ?_, ?_⟩ <;> simp [CallState.inWait]

/-- The block may be cancelled or counted in, as long as callbacks stay where they are. -/
theorem replaceBlock (h : BarrierInvariant s) {block : SubscriptionControlBlock Tid Msg}
    (hactive : s.block.active = false → block.active = false)
    (hflight : block.inFlight = s.block.inFlight) : BarrierInvariant { s with block := block } := by
  refine ⟨fun t ht => hactive (h.cancelled t ht), fun t ht => ?_, fun t ht => ?_,
    h.context, h.outside⟩
  · obtain ⟨hcancelled, hidle⟩ := h.returned t ht
    exact ⟨hactive hcancelled, hflight.trans hidle⟩
  · have hbusy := h.awake t ht
    simpa only [hflight] using hbusy

/-- `notify_all` only wakes. -/
theorem notify (h : BarrierInvariant s) :
    BarrierInvariant { s with threads := notifyAll s.threads } := by
  refine ⟨fun u hu => ?_, h.returned, fun u hu => ?_, fun u hu => ?_, fun u hu => ?_⟩
  · apply h.cancelled u
    simp only [notifyAll_call] at hu
    split at hu
    case isTrue hw => rw [hw]; rfl
    case isFalse => exact hu
  · simp only [notifyAll_call] at hu
    split at hu
    case isTrue => cases hu
    case isFalse hw => exact absurd hu hw
  · simp only [notifyAll_drain]
    apply h.context u
    intro hnone
    simp only [notifyAll_call, hnone, reduceCtorEq, ↓reduceIte, ne_eq, not_true_eq_false] at hu
  · simp only [notifyAll_drain]
    apply h.outside u
    by_cases hw : (s.threads u).call = .waiting
    · exact .inl hw
    · right
      simpa only [notifyAll_call, hw, ↓reduceIte, false_or] using hu

/-- Only a call that comes back from the wait adds to what `returned` is about. -/
theorem returned_append (h : BarrierInvariant s) {t : Tid} {result : CallReturn}
    (hresult : result ≠ .waited) :
    ∀ u, (u, CallReturn.waited) ∈ s.history.returns ++ [(t, result)] →
      s.block.active = false ∧ s.block.inFlight = 0 := by
  intro u hu
  rcases List.mem_append.mp hu with hold | hnew
  · exact h.returned u hold
  · cases List.mem_singleton.mp hnew
    exact absurd rfl hresult

/-- A thread at a pop or past a callback is in no call. -/
theorem call_none (h : BarrierInvariant s) {t : Tid} (hdrain : (s.threads t).drain ≠ .none)
    (hcallback : ∀ message, (s.threads t).drain ≠ .callback message) :
    (s.threads t).call = .none := by
  by_contra hcall
  rcases h.context t hcall with hnone | ⟨message, hmessage⟩
  · exact hdrain hnone
  · exact hcallback message hmessage

variable [DecidableEq Tid]

/-- What a thread needs in order to move to another point of a call. -/
theorem setCall {t : Tid} {call : CallState} {tasks : ℕ} {history : MailboxHistory Tid Msg}
    (h : BarrierInvariant s)
    (hcancelled : call.inWait = true → s.block.active = false)
    (hawake : call = .waiting → s.block.inFlight ≠ 0)
    (hcontext : call ≠ .none →
      (s.threads t).drain = .none ∨ ∃ message, (s.threads t).drain = .callback message)
    (houtside : call = .waiting ∨ call = .woken → (s.threads t).drain = .none)
    (hreturned : ∀ u, (u, CallReturn.waited) ∈ history.returns →
      s.block.active = false ∧ s.block.inFlight = 0) :
    BarrierInvariant { s with
      tasks := tasks, threads := setCall s.threads t call, history := history } := by
  refine ⟨fun u hu => ?_, hreturned, fun u hu => ?_, fun u hu => ?_, fun u hu => ?_⟩ <;>
    simp only [setCall_call] at hu <;> try simp only [setCall_drain]
  all_goals
    by_cases hut : u = t
    · subst hut
      simp only [↓reduceIte] at hu
      first
      | exact hcancelled hu
      | exact hawake hu
      | exact hcontext hu
      | exact houtside hu
    · simp only [hut, ↓reduceIte] at hu
      first
      | exact h.cancelled u hu
      | exact h.awake u hu
      | exact h.context u hu
      | exact h.outside u hu

/-- A thread outside any call may go anywhere in `drain`. -/
theorem setDrain {t : Tid} {drain : DrainState Msg} {tasks : ℕ} (h : BarrierInvariant s)
    (hcall : (s.threads t).call = .none) :
    BarrierInvariant { s with tasks := tasks, threads := setDrain s.threads t drain } := by
  refine ⟨fun u hu => ?_, h.returned, fun u hu => ?_, fun u hu => ?_, fun u hu => ?_⟩ <;>
    simp only [setDrain_call] at hu
  · exact h.cancelled u hu
  · exact h.awake u hu
  · have hut : u ≠ t := by
      rintro rfl
      exact hu hcall
    simpa only [setDrain_drain, hut, ↓reduceIte] using h.context u hu
  · have hut : u ≠ t := by
      rintro rfl
      rcases hu with hu | hu <;> simp [hcall] at hu
    simpa only [setDrain_drain, hut, ↓reduceIte] using h.outside u hu

theorem enqueue {t : Tid} {message : Msg} {isRemote : Bool}
    {r : SubscriptionControlBlock.PushResult Tid Msg} {accepted : List Msg}
    (h : BarrierInvariant s) (hcall : (s.threads t).canCall = true)
    (hr : s.block.PushView message isRemote r) :
    BarrierInvariant { s with
      block := r.block
      threads := if r.mustSchedule then MailboxState.setCall s.threads t (.posting r.outcome)
        else s.threads
      history := { s.history with
        accepted := accepted
        returns := if r.mustSchedule then s.history.returns
          else s.history.returns ++ [(t, .enqueued r.outcome)] } } := by
  have hblock : BarrierInvariant { s with block := r.block } := by
    cases hr <;> exact h.replaceBlock id rfl
  obtain ⟨-, hcontext⟩ := (s.threads t).canCall_iff.mp hcall
  cases r.mustSchedule with
  | true =>
    exact hblock.setCall (by simp [CallState.inWait]) (by simp) (fun _ => hcontext) (by simp)
      hblock.returned
  | false =>
    exact ⟨hblock.cancelled, hblock.returned_append (by simp), hblock.awake, hblock.context,
      hblock.outside⟩

/-- Leaving a call for user code. -/
theorem leave {t : Tid} {tasks : ℕ} {history : MailboxHistory Tid Msg} (h : BarrierInvariant s)
    (hreturned : ∀ u, (u, CallReturn.waited) ∈ history.returns →
      s.block.active = false ∧ s.block.inFlight = 0) :
    BarrierInvariant { s with
      tasks := tasks, threads := MailboxState.setCall s.threads t .none, history := history } :=
  h.setCall (by simp [CallState.inWait]) (by simp) (by simp) (by simp) hreturned

theorem step {a : MailboxAction Tid Msg} (htoken : TokenInvariant s) (h : BarrierInvariant s)
    (hs : s.step a = some s') : BarrierInvariant s' := by
  cases step_view hs with
  | enqueue t message isRemote r hcall hr => exact h.enqueue hcall hr
  | posted t outcome hcall => exact h.leave (h.returned_append (by simp))
  | postFailed t outcome result threw hcall hresult =>
    have hcontext := h.context t (by simp [hcall])
    exact h.setCall (by simp [CallState.inWait]) (by simp) (fun _ => hcontext) (by simp) h.returned
  | cleanup t outcome threw hcall =>
    have hblock : BarrierInvariant { s with block := s.block.enqueueCleanup } :=
      h.replaceBlock id rfl
    refine (hblock.leave (t := t) (hblock.returned_append ?_)).notify
    split <;> simp
  | cancel t hcall =>
    have hblock : BarrierInvariant { s with block := s.block.cancel } :=
      h.replaceBlock (fun _ => rfl) rfl
    have hleft := hblock.notify
    exact ⟨hleft.cancelled, hleft.returned_append (by simp), hleft.awake, hleft.context,
      hleft.outside⟩
  | cancelAndWait t hcall =>
    have hblock : BarrierInvariant { s with block := s.block.cancel } :=
      h.replaceBlock (fun _ => rfl) rfl
    obtain ⟨-, hcontext⟩ := (s.threads t).canCall_iff.mp hcall
    refine hblock.notify.setCall (fun _ => rfl) (by simp) (fun _ => ?_) (by simp) hblock.returned
    simpa only [notifyAll_drain] using hcontext
  | waitThrew t hcall hself => exact h.leave (h.returned_append (by simp))
  | waited t a hcall hidle =>
    -- the only place where a call comes back from the wait
    have hcancelled : s.block.active = false := by
      apply h.cancelled t
      rcases hcall with ⟨hcall, -⟩ | ⟨hcall, -⟩ <;> rw [hcall] <;> rfl
    exact h.leave fun _ _ => ⟨hcancelled, hidle⟩
  | slept t a hcall hbusy =>
    have hcancelled : s.block.active = false := by
      apply h.cancelled t
      rcases hcall with ⟨hcall, -⟩ | ⟨hcall, -⟩ <;> rw [hcall] <;> rfl
    have houtside : (s.threads t).drain = .none := by
      rcases hcall with ⟨hcall, -, hself⟩ | ⟨hcall, -⟩
      · -- the callback thread would have found itself in `callback_thread`
        rcases h.context t (by simp [hcall]) with hnone | ⟨message, hmessage⟩
        · exact hnone
        · have hthread := (htoken.callbackThread_iff t).mp (by rw [hmessage]; rfl)
          simp [SubscriptionControlBlock.waitsForItself, hthread, hbusy] at hself
      · exact h.outside t (.inr hcall)
    exact h.setCall (fun _ => hcancelled) (fun _ => hbusy) (fun _ => .inl houtside)
      (fun _ => houtside) h.returned
  | woke t hcall =>
    have hcancelled := h.cancelled t (by rw [hcall]; rfl)
    have houtside := h.outside t (.inl hcall)
    exact h.setCall (fun _ => hcancelled) (by simp) (fun _ => .inl houtside) (fun _ => houtside)
      h.returned
  | startDrain t tasks htasks hcall hdrain => exact h.setDrain hcall
  | popped t message rest hdrain hactive hpending =>
    have hcall := h.call_none (t := t) (by simp [hdrain]) (by simp [hdrain])
    have hmoved : BarrierInvariant { s with
        threads := MailboxState.setDrain s.threads t (.callback message) } := h.setDrain hcall
    refine ⟨fun u hu => hmoved.cancelled u hu, fun u hu => ?_, fun _ _ => Nat.succ_ne_zero _,
      hmoved.context, hmoved.outside⟩
    obtain ⟨hcancelled, -⟩ := h.returned u hu
    rw [hactive] at hcancelled
    cases hcancelled
  | drained t hdrain hempty =>
    have hcall := h.call_none (t := t) (by simp [hdrain]) (by simp [hdrain])
    have hblock : BarrierInvariant { s with
        block := { s.block with pending := [], scheduled := false } } := h.replaceBlock id rfl
    have hmoved : BarrierInvariant { s with
        block := { s.block with pending := [], scheduled := false }
        threads := MailboxState.setDrain s.threads t .none } := hblock.setDrain hcall
    have hleft := hmoved.notify
    exact ⟨hleft.cancelled, hleft.returned, hleft.awake, hleft.context, hleft.outside⟩
  | callbackEnd t message threw hcall hdrain => exact h.setDrain hcall
  | finish t failed hdrain =>
    have hcall := h.call_none (t := t) (by simp [hdrain]) (by simp [hdrain])
    have hmoved : BarrierInvariant { s with
        threads := MailboxState.setDrain s.threads t .popping } := h.setDrain hcall
    have hnext := hmoved.notify
    refine ⟨hnext.cancelled, fun u hu => ?_, fun u hu => ?_, hnext.context, hnext.outside⟩
    · obtain ⟨hcancelled, hidle⟩ := h.returned u hu
      refine ⟨hcancelled, ?_⟩
      rw [SubscriptionControlBlock.drainFinish_inFlight, hidle]
    · -- this section notifies, so nobody is asleep after it
      simp only [notifyAll_call] at hu
      split at hu
      case isTrue => cases hu
      case isFalse hw => exact absurd hu hw

end BarrierInvariant

theorem barrierInvariant_of_reachable [DecidableEq Tid]
    (h : (mailboxSystem Tid Msg options).Reachable s) : BarrierInvariant s := by
  refine TransitionSystem.Reachable.invariant ?_
    (fun s a s' hr hs hstep => hs.step (tokenInvariant_of_reachable hr) hstep) h
  rintro s ⟨block, hblock, rfl⟩
  exact .initial

variable [DecidableEq Tid]

def returnsOf (s : MailboxState Tid Msg) (t : Tid) : List CallReturn :=
  s.history.returns.filterMap fun r => if r.1 = t then some r.2 else none

theorem returnsOf_append {t u : Tid} {result : CallReturn}
    (hreturns : s'.history.returns = s.history.returns ++ [(u, result)]) :
    s'.returnsOf t = s.returnsOf t ++ if u = t then [result] else [] := by
  unfold returnsOf
  rw [hreturns, List.filterMap_append]
  by_cases hut : u = t <;> simp [hut]

/-- A step of another thread leaves `t` where it is, or wakes it. -/
theorem step_other {a : MailboxAction Tid Msg} {t : Tid} (hs : s.step a = some s')
    (hne : t ≠ a.actor) :
    (s'.threads t).drain = (s.threads t).drain ∧
    ((s'.threads t).call = (s.threads t).call ∨
      (s.threads t).call = .waiting ∧ (s'.threads t).call = .woken) ∧
    s'.returnsOf t = s.returnsOf t := by
  have hother {u : Tid} {result : CallReturn} (hu : t ≠ u) :
      s.returnsOf t ++ (if u = t then [result] else []) = s.returnsOf t := by
    simp [Ne.symm hu]
  have hnotified (threads : Tid → MailboxThread Msg)
      (hcall : (threads t).call = (s.threads t).call) :
      (notifyAll threads t).call = (s.threads t).call ∨
        (s.threads t).call = .waiting ∧ (notifyAll threads t).call = .woken := by
    simp only [notifyAll_call, hcall]
    by_cases hw : (s.threads t).call = .waiting
    · exact .inr ⟨hw, if_pos hw⟩
    · exact .inl (if_neg hw)
  cases step_view hs with
  | enqueue u message isRemote r hcall hr =>
    have hu : t ≠ u := hne
    cases r.mustSchedule with
    | true => simp [hu, returnsOf]
    | false => exact ⟨rfl, .inl rfl, (returnsOf_append rfl).trans (hother hu)⟩
  | posted u outcome hcall =>
    have hu : t ≠ u := hne
    exact ⟨by simp, .inl (by simp [hu]), (returnsOf_append rfl).trans (hother hu)⟩
  | postFailed u outcome result threw hcall hresult =>
    have hu : t ≠ u := hne
    exact ⟨by simp, .inl (by simp [hu]), rfl⟩
  | cleanup u outcome threw hcall =>
    have hu : t ≠ u := hne
    exact ⟨by simp, hnotified _ (by simp [hu]), (returnsOf_append rfl).trans (hother hu)⟩
  | cancel u hcall =>
    exact ⟨by simp, hnotified _ rfl, (returnsOf_append rfl).trans (hother hne)⟩
  | cancelAndWait u hcall =>
    have hu : t ≠ u := hne
    refine ⟨by simp, ?_, rfl⟩
    simpa only [setCall_call, hu, ↓reduceIte] using hnotified _ rfl
  | waitThrew u hcall hself =>
    have hu : t ≠ u := hne
    exact ⟨by simp, .inl (by simp [hu]), (returnsOf_append rfl).trans (hother hu)⟩
  | waited u a hcall hidle =>
    have hu : t ≠ u := by rcases hcall with ⟨-, rfl⟩ | ⟨-, rfl⟩ <;> exact hne
    exact ⟨by simp, .inl (by simp [hu]), (returnsOf_append rfl).trans (hother hu)⟩
  | slept u a hcall hbusy =>
    have hu : t ≠ u := by rcases hcall with ⟨-, rfl, -⟩ | ⟨-, rfl⟩ <;> exact hne
    exact ⟨by simp, .inl (by simp [hu]), rfl⟩
  | woke u hcall =>
    have hu : t ≠ u := hne
    exact ⟨by simp, .inl (by simp [hu]), rfl⟩
  | startDrain u tasks htasks hcall hdrain =>
    have hu : t ≠ u := hne
    exact ⟨by simp [hu], .inl (by simp), rfl⟩
  | popped u message rest hdrain hactive hpending =>
    have hu : t ≠ u := hne
    exact ⟨by simp [hu], .inl (by simp), rfl⟩
  | drained u hdrain hempty =>
    have hu : t ≠ u := hne
    exact ⟨by simp [hu], hnotified _ (by simp), rfl⟩
  | callbackEnd u message threw hcall hdrain =>
    have hu : t ≠ u := hne
    exact ⟨by simp [hu], .inl (by simp), rfl⟩
  | finish u failed hdrain =>
    have hu : t ≠ u := hne
    exact ⟨by simp [hu], hnotified _ (by simp), rfl⟩

inductive WaitStep (s : MailboxState Tid Msg) (t : Tid) (s' : MailboxState Tid Msg) : Prop
  | threw : (s.threads t).call = .waitEntry → s.block.waitsForItself t = true →
      s'.returnsOf t = s.returnsOf t ++ [.waitThrew selfWaitError] → WaitStep s t s'
  | waited : s.block.inFlight = 0 → s'.returnsOf t = s.returnsOf t ++ [.waited] → WaitStep s t s'
  | stays : ((s.threads t).call = .waitEntry → s.block.waitsForItself t = false) →
      s.block.inFlight ≠ 0 ∨ (s.threads t).call = .waiting →
      (s'.threads t).call.inWait = true → (s'.threads t).drain = (s.threads t).drain →
      s'.returnsOf t = s.returnsOf t → WaitStep s t s'

theorem waitStep_of_step {a : MailboxAction Tid Msg} (hs : s.step a = some s')
    (hbarrier : BarrierInvariant s) (hwait : (s.threads a.actor).call.inWait = true) :
    WaitStep s a.actor s' := by
  have hcan {u : Tid} (hu : (s.threads u).call.inWait = true) :
      ¬ (s.threads u).canCall = true := by
    intro hcall
    rw [((s.threads u).canCall_iff.mp hcall).1] at hu
    cases hu
  have hne {u : Tid} {call : CallState} (hcall : (s.threads u).call = call)
      (hu : (s.threads u).call.inWait = true) (hout : call.inWait = false) : False := by
    rw [hcall, hout] at hu
    cases hu
  have hbottom {u : Tid} (hu : (s.threads u).call.inWait = true)
      (hdrain : (s.threads u).drain ≠ .none)
      (hcallback : ∀ message, (s.threads u).drain ≠ .callback message) : False :=
    hne (hbarrier.call_none hdrain hcallback) hu rfl
  cases step_view hs with
  | enqueue u message isRemote r hcall hr => exact absurd hcall (hcan hwait)
  | posted u outcome hcall => exact (hne hcall hwait rfl).elim
  | postFailed u outcome result threw hcall hresult => exact (hne hcall hwait rfl).elim
  | cleanup u outcome threw hcall => exact (hne hcall hwait rfl).elim
  | cancel u hcall => exact absurd hcall (hcan hwait)
  | cancelAndWait u hcall => exact absurd hcall (hcan hwait)
  | waitThrew u hcall hself =>
    exact .threw hcall hself ((returnsOf_append rfl).trans (by simp [MailboxAction.actor]))
  | waited u a hcall hidle =>
    have hu : a.actor = u := by rcases hcall with ⟨-, rfl⟩ | ⟨-, rfl⟩ <;> rfl
    rw [hu]
    exact .waited hidle ((returnsOf_append rfl).trans (by simp))
  | slept u a hcall hbusy =>
    have hu : a.actor = u := by rcases hcall with ⟨-, rfl, -⟩ | ⟨-, rfl⟩ <;> rfl
    rw [hu]
    refine .stays (fun hentry => ?_) (.inl hbusy) (by simp [CallState.inWait]) (by simp) rfl
    rcases hcall with ⟨-, -, hself⟩ | ⟨hwoken, -⟩
    · exact hself
    · rw [hentry] at hwoken
      cases hwoken
  | woke u hcall =>
    refine .stays (fun hentry => ?_) (.inr hcall) (by simp [CallState.inWait, MailboxAction.actor])
      (by simp) rfl
    exact absurd (hcall.symm.trans hentry) (by simp)
  | startDrain u tasks htasks hcall hdrain => exact (hne hcall hwait rfl).elim
  | popped u message rest hdrain hactive hpending =>
    exact (hbottom hwait (by simp [MailboxAction.actor, hdrain])
      (by simp [MailboxAction.actor, hdrain])).elim
  | drained u hdrain hempty =>
    exact (hbottom hwait (by simp [MailboxAction.actor, hdrain])
      (by simp [MailboxAction.actor, hdrain])).elim
  | callbackEnd u message threw hcall hdrain => exact (hne hcall hwait rfl).elim
  | finish u failed hdrain =>
    exact (hbottom hwait (by simp [MailboxAction.actor, hdrain])
      (by simp [MailboxAction.actor, hdrain])).elim

theorem returnsOf_prefix {a : MailboxAction Tid Msg} (hs : s.step a = some s') (t : Tid) :
    s.returnsOf t <+: s'.returnsOf t := by
  have hreturns : s.history.returns <+: s'.history.returns := by
    cases step_view hs with
    | enqueue u message isRemote r hcall hr =>
      cases r.mustSchedule with
      | true => exact List.prefix_rfl
      | false => exact List.prefix_append _ _
    | posted | cleanup | cancel | waitThrew | waited => exact List.prefix_append _ _
    | _ => exact List.prefix_rfl
  obtain ⟨later, hlater⟩ := hreturns
  unfold returnsOf
  rw [← hlater, List.filterMap_append]
  exact List.prefix_append _ _

/-- The `cancel_and_wait` of thread `t` is still under way, where `inside` holds, or has
come back with `result`; `base` is what the earlier calls of `t` returned. -/
def ComesBackWith (t : Tid) (inside : MailboxThread Msg → Prop) (result : CallReturn)
    (base : List CallReturn) (s : MailboxState Tid Msg) : Prop :=
  inside (s.threads t) ∧ s.returnsOf t = base ∨ ∃ later, s.returnsOf t = base ++ result :: later

/-- A call that either stays inside or comes back with `result` at each step does so
over a run. -/
theorem comesBackWith_run {t : Tid} {inside : MailboxThread Msg → Prop} {result : CallReturn}
    {base : List CallReturn} {as : List (MailboxAction Tid Msg)}
    (hstep : ∀ s a s', (mailboxSystem Tid Msg options).Reachable s → inside (s.threads t) →
      s.step a = some s' →
      inside (s'.threads t) ∧ s'.returnsOf t = s.returnsOf t ∨
        s'.returnsOf t = s.returnsOf t ++ [result])
    (h : (mailboxSystem Tid Msg options).Reachable s) (hs : ComesBackWith t inside result base s)
    (hrun : (mailboxSystem Tid Msg options).run s as = some s') :
    ComesBackWith t inside result base s' := by
  induction as generalizing s with
  | nil =>
    cases hrun
    exact hs
  | cons a as ih =>
    obtain ⟨u, hu, hrest⟩ := Option.bind_eq_some_iff.mp hrun
    refine ih (h.step hu) ?_ hrest
    rcases hs with ⟨hinside, hbase⟩ | ⟨later, hlater⟩
    · rcases hstep s a u h hinside hu with ⟨hinside', hsame⟩ | hback
      · exact .inl ⟨hinside', hsame.trans hbase⟩
      · exact .inr ⟨[], hback.trans (by rw [hbase])⟩
    · obtain ⟨more, hmore⟩ := returnsOf_prefix hu t
      refine .inr ⟨later ++ more, ?_⟩
      rw [← hmore, hlater, List.append_assoc, List.cons_append]

/-- The callback thread stays at the entry of its wait until it throws. -/
theorem selfWait_step (h : (mailboxSystem Tid Msg options).Reachable s) {t : Tid}
    {a : MailboxAction Tid Msg}
    (hinside : (s.threads t).call = .waitEntry ∧ (s.threads t).drain.busy = true)
    (hs : s.step a = some s') :
    ((s'.threads t).call = .waitEntry ∧ (s'.threads t).drain.busy = true) ∧
        s'.returnsOf t = s.returnsOf t ∨
      s'.returnsOf t = s.returnsOf t ++ [.waitThrew selfWaitError] := by
  obtain ⟨hcall, hbusy⟩ := hinside
  have htoken := tokenInvariant_of_reachable h
  have hthread := (htoken.callbackThread_iff t).mp hbusy
  have hflight : s.block.inFlight = 1 := by
    rw [htoken.inFlight_eq, hthread]
    rfl
  by_cases hne : t = a.actor
  · subst hne
    have hself : s.block.waitsForItself a.actor = true := by
      simp [SubscriptionControlBlock.waitsForItself, hthread, hflight]
    cases waitStep_of_step hs (barrierInvariant_of_reachable h) (by rw [hcall]; rfl) with
    | threw _ _ hreturns => exact .inr hreturns
    | waited hidle => omega
    | stays hentry =>
      rw [hentry hcall] at hself
      cases hself
  · obtain ⟨hdrain, hcalls, hreturns⟩ := step_other hs hne
    refine .inl ⟨⟨?_, by rw [hdrain, hbusy]⟩, hreturns⟩
    rcases hcalls with hsame | ⟨hwaiting, -⟩
    · exact hsame.trans hcall
    · rw [hcall] at hwaiting
      cases hwaiting

/-- Any other thread stays in its wait until the mailbox is idle. -/
theorem otherWait_step (h : (mailboxSystem Tid Msg options).Reachable s) {t : Tid}
    {a : MailboxAction Tid Msg}
    (hinside : (s.threads t).call.inWait = true ∧ (s.threads t).drain = .none)
    (hs : s.step a = some s') :
    ((s'.threads t).call.inWait = true ∧ (s'.threads t).drain = .none) ∧
        s'.returnsOf t = s.returnsOf t ∨
      s'.returnsOf t = s.returnsOf t ++ [.waited] := by
  obtain ⟨hcall, hdrain⟩ := hinside
  have htoken := tokenInvariant_of_reachable h
  by_cases hne : t = a.actor
  · subst hne
    cases waitStep_of_step hs (barrierInvariant_of_reachable h) hcall with
    | threw _ hself _ =>
      -- `callback_thread` names a thread inside the callback
      simp only [SubscriptionControlBlock.waitsForItself, Bool.and_eq_true, beq_iff_eq] at hself
      have hbusy := (htoken.callbackThread_iff a.actor).mpr hself.2
      rw [hdrain] at hbusy
      cases hbusy
    | waited _ hreturns => exact .inr hreturns
    | stays _ _ hwait hsame hreturns => exact .inl ⟨⟨hwait, hsame.trans hdrain⟩, hreturns⟩
  · obtain ⟨hsame, hcalls, hreturns⟩ := step_other hs hne
    refine .inl ⟨⟨?_, hsame.trans hdrain⟩, hreturns⟩
    rcases hcalls with hsame | ⟨-, hwoken⟩
    · rw [hsame, hcall]
    · rw [hwoken]
      rfl

/-- A cancelled idle mailbox stays cancelled and idle, and starts no callback. -/
theorem quiet_step {a : MailboxAction Tid Msg} (hs : s.step a = some s')
    (hcancelled : s.block.active = false) (hidle : s.block.inFlight = 0) :
    s'.block.active = false ∧ s'.block.inFlight = 0 ∧ s'.history.started = s.history.started := by
  cases step_view hs with
  | enqueue t message isRemote r hcall hr =>
    cases hr with
    | skipped => exact ⟨hcancelled, hidle, rfl⟩
    | rejected hactive => exact absurd (hactive.symm.trans hcancelled) (by simp)
    | displaced _ _ hactive => exact absurd (hactive.symm.trans hcancelled) (by simp)
    | appended hactive => exact absurd (hactive.symm.trans hcancelled) (by simp)
  | popped t message rest hdrain hactive hpending =>
    exact absurd (hactive.symm.trans hcancelled) (by simp)
  | cancel | cancelAndWait => exact ⟨rfl, hidle, rfl⟩
  | finish t failed hdrain => exact ⟨hcancelled, by simp [hidle], rfl⟩
  | _ => exact ⟨hcancelled, hidle, rfl⟩

theorem quiet_run {as : List (MailboxAction Tid Msg)}
    (hcancelled : s.block.active = false) (hidle : s.block.inFlight = 0)
    (hrun : (mailboxSystem Tid Msg options).run s as = some s') :
    s'.block.inFlight = 0 ∧ s'.history.started = s.history.started := by
  induction as generalizing s with
  | nil =>
    cases hrun
    exact ⟨hidle, rfl⟩
  | cons a as ih =>
    obtain ⟨u, hu, hrest⟩ := Option.bind_eq_some_iff.mp hrun
    obtain ⟨hactive, hflight, hstarted⟩ := quiet_step hu hcancelled hidle
    obtain ⟨hlast, hsame⟩ := ih hactive hflight hrest
    exact ⟨hlast, hsame.trans hstarted⟩

structure CancelBarrier (options : SubscriptionOptions) (s : MailboxState Tid Msg) : Prop where
  /-- After a normal return no callback is executing and none is started again. -/
  barrier : ∀ t as s', (t, CallReturn.waited) ∈ s.history.returns →
    (mailboxSystem Tid Msg options).run s as = some s' →
    (∀ u, ¬ s'.InCallback u) ∧ s'.history.started = s.history.started
  /-- A call by the callback thread throws, and never gets past the entry of the wait. -/
  self_throws : ∀ t s₁ as s₂, s.InCallback t → s.step (.cancelAndWait t) = some s₁ →
    (mailboxSystem Tid Msg options).run s₁ as = some s₂ →
    (s₂.threads t).call = .waitEntry ∧ s₂.returnsOf t = s.returnsOf t ∧
        (∃ s₃, s₂.step (.checkWait t) = some s₃ ∧
          s₃.returnsOf t = s.returnsOf t ++ [.waitThrew selfWaitError]) ∨
      ∃ later, s₂.returnsOf t = s.returnsOf t ++ .waitThrew selfWaitError :: later
  /-- A call by another thread does not throw. -/
  others_return : ∀ t s₁ as s₂, ¬ s.InCallback t → s.step (.cancelAndWait t) = some s₁ →
    (mailboxSystem Tid Msg options).run s₁ as = some s₂ →
    (s₂.threads t).call.inWait = true ∧ s₂.returnsOf t = s.returnsOf t ∨
      ∃ later, s₂.returnsOf t = s.returnsOf t ++ .waited :: later
  /-- A sleeper has a callback in flight on another thread, whose last section notifies. -/
  no_lost_wakeup : ∀ t, (s.threads t).call = .waiting →
    s.block.inFlight ≠ 0 ∧ ∃ u, u ≠ t ∧ (s.threads u).drain.busy = true

theorem cancelAndWait_spec {t : Tid} (hs : s.step (.cancelAndWait t) = some s') :
    (s.threads t).canCall = true ∧ (s'.threads t).call = .waitEntry ∧
      (s'.threads t).drain = (s.threads t).drain ∧ s'.returnsOf t = s.returnsOf t := by
  cases step_view hs with
  | cancelAndWait t hcall => exact ⟨hcall, by simp, by simp, rfl⟩
  | waited u a hcall hidle => rcases hcall with ⟨-, ha⟩ | ⟨-, ha⟩ <;> cases ha
  | slept u a hcall hbusy => rcases hcall with ⟨-, ha, -⟩ | ⟨-, ha⟩ <;> cases ha

omit [DecidableEq Tid] in
theorem busy_of_inCallback {t : Tid} (h : s.InCallback t) : (s.threads t).drain.busy = true := by
  obtain ⟨message, hmessage⟩ := h
  rw [hmessage]
  rfl

/-- `cancel_and_wait` is a barrier and never waits for itself. -/
theorem cancel_and_wait_is_barrier (h : (mailboxSystem Tid Msg options).Reachable s) :
    CancelBarrier options s := by
  have hbarrier := barrierInvariant_of_reachable h
  refine ⟨?_, ?_, ?_, ?_⟩
  · intro t as s' hreturned hrun
    obtain ⟨hcancelled, hidle⟩ := hbarrier.returned t hreturned
    obtain ⟨hidle', hstarted⟩ := quiet_run hcancelled hidle hrun
    refine ⟨fun u hu => ?_, hstarted⟩
    have htoken := tokenInvariant_of_reachable (h.run hrun)
    have hthread := (htoken.callbackThread_iff u).mp (busy_of_inCallback hu)
    rw [htoken.inFlight_eq, hthread] at hidle'
    cases hidle'
  · intro t s₁ as s₂ hself hs hrun
    obtain ⟨-, hcall, hdrain, hreturns⟩ := cancelAndWait_spec hs
    have hbusy : (s₁.threads t).drain.busy = true := hdrain ▸ busy_of_inCallback hself
    have h₁ : (mailboxSystem Tid Msg options).Reachable s₁ :=
      h.step (a := .cancelAndWait t) hs
    have hback : ComesBackWith t (fun th => th.call = .waitEntry ∧ th.drain.busy = true)
        (.waitThrew selfWaitError) (s₁.returnsOf t) s₂ :=
      comesBackWith_run (fun _ _ _ hr hin hst => selfWait_step hr hin hst) h₁
        (.inl ⟨⟨hcall, hbusy⟩, rfl⟩) hrun
    rcases hback with ⟨⟨hentry, hbusy₂⟩, hbase⟩ | ⟨later, hlater⟩
    · left
      refine ⟨hentry, hbase.trans hreturns, ?_⟩
      -- the entry check is always enabled, and at the callback thread it throws
      have htoken := tokenInvariant_of_reachable (h₁.run hrun)
      have hthread := (htoken.callbackThread_iff t).mp hbusy₂
      have hwaits : s₂.block.waitsForItself t = true := by
        simp [SubscriptionControlBlock.waitsForItself, htoken.inFlight_eq, hthread]
      have hthrow : s₂.step (.checkWait t) = some { s₂ with
          threads := setCall s₂.threads t .none
          history := { s₂.history with
            returns := s₂.history.returns ++ [(t, .waitThrew selfWaitError)] } } := by
        simp only [step, hentry, hwaits, ↓reduceIte]
      refine ⟨_, hthrow, ?_⟩
      rw [← hreturns, ← hbase]
      exact (returnsOf_append rfl).trans (by simp)
    · exact .inr ⟨later, by rw [hlater, hreturns]⟩
  · intro t s₁ as s₂ hother hs hrun
    obtain ⟨hcan, hcall, hdrain, hreturns⟩ := cancelAndWait_spec hs
    have hnone : (s₁.threads t).drain = .none := by
      rcases ((s.threads t).canCall_iff.mp hcan).2 with hnone | hcallback
      · exact hdrain.trans hnone
      · exact absurd hcallback hother
    have h₁ : (mailboxSystem Tid Msg options).Reachable s₁ :=
      h.step (a := .cancelAndWait t) hs
    have hback : ComesBackWith t (fun th => th.call.inWait = true ∧ th.drain = .none)
        .waited (s₁.returnsOf t) s₂ :=
      comesBackWith_run (fun _ _ _ hr hin hst => otherWait_step hr hin hst) h₁
        (.inl ⟨⟨by rw [hcall]; rfl, hnone⟩, rfl⟩) hrun
    rcases hback with ⟨⟨hwait, -⟩, hbase⟩ | ⟨later, hlater⟩
    · exact .inl ⟨hwait, hbase.trans hreturns⟩
    · exact .inr ⟨later, by rw [hlater, hreturns]⟩
  · intro t hwaiting
    have hbusy := hbarrier.awake t hwaiting
    refine ⟨hbusy, ?_⟩
    have htoken := tokenInvariant_of_reachable h
    cases hthread : s.block.callbackThread with
    | none => simp [htoken.inFlight_eq, hthread] at hbusy
    | some u =>
      have hu := (htoken.callbackThread_iff u).mpr hthread
      refine ⟨u, ?_, hu⟩
      rintro rfl
      rw [hbarrier.outside u (.inl hwaiting)] at hu
      cases hu

/-- Thread 0 sleeps until the callback of thread 1, whose own wait throws, is over. -/
theorem cancel_and_wait_is_barrier_both : ∃ s : MailboxState (Fin 2) ℕ,
    s.history.returns = [(0, .enqueued { enqueued := true }), (1, .waitThrew selfWaitError),
      (0, .waited)] ∧ CancelBarrier {} s := by
  obtain ⟨s, hs, hp⟩ := (mailboxSystem (Fin 2) ℕ {}).exists_reachable_of_run
    { block := { options := {}, queueDepth_pos := by decide } }
    [.enqueue 0 7 false, .post 0 .accepted, .startDrain 1, .pop 1, .cancelAndWait 0,
      .checkWait 0, .cancelAndWait 1, .checkWait 1, .callbackEnd 1 true, .finish 1, .recheck 0]
    (fun s => s.history.returns == [(0, .enqueued { enqueued := true }),
      (1, .waitThrew selfWaitError), (0, .waited)])
    ⟨_, rfl, rfl⟩ (by decide)
  exact ⟨s, by simpa using hp, cancel_and_wait_is_barrier hs⟩

end MailboxState
end RobotMiddleware
