import RobotMiddleware.MailboxTokens
import RobotMiddleware.TopicRegistry
import RobotMiddleware.TopicStop

/-! The callbacks of a bus: which thread runs one, on which message of which block. -/
namespace RobotMiddleware

namespace MailboxState
variable {Tid Msg : Type} [DecidableEq Tid] {s s' : MailboxState Tid Msg}
  {a : MailboxAction Tid Msg}

def messageOf (s : MailboxState Tid Msg) (t : Tid) : Option Msg := (s.threads t).drain.message

inductive CallbackView (s : MailboxState Tid Msg) :
    MailboxAction Tid Msg → MailboxState Tid Msg → Prop
  | quiet (a : MailboxAction Tid Msg) (s' : MailboxState Tid Msg) :
      (∀ t, s'.messageOf t = s.messageOf t) → s'.history.started = s.history.started →
      (∀ t threw, a ≠ .callbackEnd t threw) → CallbackView s a s'
  | began (t : Tid) (message : Msg) (s' : MailboxState Tid Msg) : s.block.active = true →
      s.messageOf t = none →
      (∀ u, s'.messageOf u = if u = t then some message else s.messageOf u) →
      s'.history.started = s.history.started ++ [message] → CallbackView s (.pop t) s'
  | ended (t : Tid) (threw : Bool) (s' : MailboxState Tid Msg) :
      (∀ u, s'.messageOf u = if u = t then none else s.messageOf u) →
      s'.history.started = s.history.started → CallbackView s (.callbackEnd t threw) s'

/-- A step of `drain` that is in no callback before and after. -/
theorem messageOf_setDrain {threads : Tid → MailboxThread Msg} {t u : Tid} {drain : DrainState Msg}
    (hbefore : (threads t).drain.message = none) (hafter : drain.message = none) :
    (setDrain threads t drain u).drain.message = (threads u).drain.message := by
  rw [setDrain_drain]
  split
  case isTrue hut => rw [hafter, hut, hbefore]
  case isFalse => rfl

theorem callback_view (h : s.step a = some s') : CallbackView s a s' := by
  have hquiet (hdrain : ∀ t, (s'.threads t).drain = (s.threads t).drain)
      (hstarted : s'.history.started = s.history.started)
      (hact : ∀ t threw, a ≠ .callbackEnd t threw) : CallbackView s a s' :=
    .quiet a s' (fun t => by rw [messageOf, messageOf, hdrain]) hstarted hact
  cases step_view h with
  | enqueue t message isRemote r =>
    refine hquiet (fun u => ?_) rfl (by simp)
    split
    case isTrue => rw [setCall_drain]
    case isFalse => rfl
  | startDrain t tasks htasks hcall hdrain =>
    exact .quiet _ _ (fun u => messageOf_setDrain (by rw [hdrain]; rfl) rfl) rfl (by simp)
  | popped t message rest hdrain hactive hpending =>
    refine .began t message _ hactive (by rw [messageOf, hdrain]; rfl) (fun u => ?_) rfl
    simp only [messageOf, setDrain_drain]
    split <;> rfl
  | drained t hdrain hgone =>
    refine .quiet _ _ (fun u => ?_) rfl (by simp)
    simp only [messageOf, notifyAll_drain]
    exact messageOf_setDrain (by rw [hdrain]; rfl) rfl
  | callbackEnd t message threw hcall hdrain =>
    refine .ended t threw _ (fun u => ?_) rfl
    simp only [messageOf, setDrain_drain]
    split <;> rfl
  | finish t failed hdrain =>
    refine .quiet _ _ (fun u => ?_) rfl (by simp)
    simp only [messageOf, notifyAll_drain]
    exact messageOf_setDrain (by rw [hdrain]; rfl) rfl
  | waited t a hcall | slept t a hcall =>
    refine hquiet (fun u => by rw [setCall_drain]) rfl fun u threw => ?_
    rintro rfl
    simp at hcall
  | _ => exact hquiet (fun u => by simp only [notifyAll_drain, setCall_drain]) rfl (by simp)

/-- A cancelled mailbox stays cancelled. -/
theorem inactive_of_step (h : s.step a = some s') (hinactive : s.block.active = false) :
    s'.block.active = false := by
  cases step_view h with
  | enqueue t message isRemote r hcan hr =>
    cases hr with
    | skipped | rejected => exact hinactive
    | displaced | appended => exact hinactive
  | _ => first | exact hinactive | rfl

end MailboxState

namespace BusState
variable {Tid Ty : Type} {Val : Ty → Type}

def startedOf (s : BusState Tid Val) (block : ℕ) : List (Publication Tid Val) :=
  match s.boxes block with
  | some sub => sub.state.history.started
  | none => []

variable [DecidableEq Tid] {s s' : BusState Tid Val} {a : BusAction Tid Val} {t u : Tid}
  {block : ℕ} {sub : BusSubscription Tid Val} {state : MailboxState Tid (Publication Tid Val)}

omit [DecidableEq Tid] in
theorem startedOf_eq (h : s.boxes block = some sub) :
    s.startedOf block = sub.state.history.started := by
  rw [startedOf, h]

omit [DecidableEq Tid] in
theorem callback_eq (hdrain : (s.threads t).drain = some block) (hsub : s.boxes block = some sub) :
    s.callback t = (sub.state.messageOf t).map fun p => (block, p) := by
  rw [callback, hdrain, Option.bind_some, boxThread_eq hsub, MailboxState.messageOf]

omit [DecidableEq Tid] in
theorem drain_of_callback {p : Publication Tid Val} (h : s.callback t = some (block, p)) :
    (s.threads t).drain = some block ∧
      ∃ sub, s.boxes block = some sub ∧ (sub.state.threads t).drain = .callback p := by
  obtain ⟨other, hdrain, h⟩ := Option.bind_eq_some_iff.mp h
  obtain ⟨q, hmessage, heq⟩ := Option.map_eq_some_iff.mp h
  cases heq
  refine ⟨hdrain, ?_⟩
  cases hsub : s.boxes block with
  | none =>
    rw [boxThread, hsub] at hmessage
    cases hmessage
  | some sub =>
    rw [boxThread_eq hsub] at hmessage
    refine ⟨sub, rfl, ?_⟩
    cases hstate : (sub.state.threads t).drain with
    | callback q =>
      rw [hstate] at hmessage
      cases hmessage
      rfl
    | _ =>
      rw [hstate] at hmessage
      cases hmessage

theorem callback_setCall (call : BusCall Tid Val) : (s.setCall t call).callback u = s.callback u := by
  have hdrain : ((s.setCall t call).threads u).drain = (s.threads u).drain := by
    rw [setCall_threads]
    split
    case isTrue hut => rw [hut]
    case isFalse => rfl
  rw [callback, hdrain]
  rfl

omit [DecidableEq Tid] in
theorem boxes_setBox (other : ℕ) : (s.setBox block sub state).boxes other =
    if other = block then some { sub with state := state } else s.boxes other :=
  Function.update_apply ..

omit [DecidableEq Tid] in
theorem callback_setBox : (s.setBox block sub state).callback u =
    if (s.threads u).drain = some block then (state.messageOf u).map fun p => (block, p)
    else s.callback u := by
  have hthreads : (s.setBox block sub state).threads u = s.threads u := rfl
  have hboxes : (s.setBox block sub state).boxes block = some { sub with state := state } :=
    Function.update_self ..
  split
  case isTrue hdrain => rw [callback_eq (hthreads ▸ hdrain) hboxes]
  case isFalse hdrain =>
    rw [callback, callback, hthreads]
    cases hother : (s.threads u).drain with
    | none => rfl
    | some other =>
      have hne : other ≠ block := by
        rintro rfl
        exact hdrain hother
      have hbox : (s.setBox block sub state).boxThread other u = s.boxThread other u := by
        simp only [boxThread, boxes_setBox, if_neg hne]
      rw [Option.bind_some, Option.bind_some, hbox]

theorem callback_setDrain (drain : Option ℕ) : (s.setDrain t drain).callback u =
    if u = t then drain.bind fun block => (s.boxThread block t).drain.message.map fun p => (block, p)
    else s.callback u := by
  rw [callback, setDrain_threads]
  split
  case isTrue hut =>
    subst hut
    rfl
  case isFalse => rfl

omit [DecidableEq Tid] in
theorem startedOf_setBox (other : ℕ) : (s.setBox block sub state).startedOf other =
    if other = block then state.history.started else s.startedOf other := by
  by_cases hother : other = block
  · simp only [startedOf, boxes_setBox, if_pos hother]
  · simp only [startedOf, boxes_setBox, if_neg hother]

inductive CallbackView (s : BusState Tid Val) : BusAction Tid Val → BusState Tid Val → Prop
  | quiet (a : BusAction Tid Val) (s' : BusState Tid Val) :
      (∀ t, s'.callback t = s.callback t) → (∀ block, s'.startedOf block = s.startedOf block) →
      (∀ t threw, a ≠ .callbackEnd t threw) → CallbackView s a s'
  | began (t : Tid) (block : ℕ) (sub : BusSubscription Tid Val) (p : Publication Tid Val)
      (s' : BusState Tid Val) : s.boxes block = some sub → sub.state.block.active = true →
      s.callback t = none →
      (∀ u, s'.callback u = if u = t then some (block, p) else s.callback u) →
      (∀ other, s'.startedOf other =
        if other = block then s.startedOf block ++ [p] else s.startedOf other) →
      CallbackView s (.pop t) s'
  | ended (t : Tid) (threw : Bool) (s' : BusState Tid Val) :
      (∀ u, s'.callback u = if u = t then none else s.callback u) →
      (∀ block, s'.startedOf block = s.startedOf block) →
      CallbackView s (.callbackEnd t threw) s'

omit [DecidableEq Tid] in
/-- A mailbox step that begins and ends no callback. -/
theorem callback_of_quiet (hsub : s.boxes block = some sub)
    (hmessage : ∀ t, state.messageOf t = sub.state.messageOf t) :
    (s.setBox block sub state).callback t = s.callback t := by
  rw [callback_setBox]
  split
  case isTrue hdrain => rw [hmessage, callback_eq hdrain hsub]
  case isFalse => rfl

omit [DecidableEq Tid] in
theorem startedOf_of_quiet (hsub : s.boxes block = some sub)
    (hstarted : state.history.started = sub.state.history.started) (other : ℕ) :
    (s.setBox block sub state).startedOf other = s.startedOf other := by
  rw [startedOf_setBox]
  split
  case isTrue hother => rw [hstarted, hother, startedOf_eq hsub]
  case isFalse => rfl

/-- The thread drains the block, so its own pointer to it adds nothing. -/
theorem callback_of_drained (sub : BusSubscription Tid Val) (u : Tid) {drain : Option ℕ}
    (hdrain : (s.threads t).drain = some block)
    (hnext : (state.threads t).drain = .none ∧ drain = none ∨
      (state.threads t).drain ≠ .none ∧ drain = some block) :
    ((s.setBox block sub state).setDrain t drain).callback u =
      (s.setBox block sub state).callback u := by
  rw [callback_setDrain]
  split
  case isTrue hut =>
    subst hut
    rw [callback_setBox, if_pos hdrain, MailboxState.messageOf]
    rcases hnext with ⟨hnone, rfl⟩ | ⟨-, rfl⟩
    · rw [hnone]
      rfl
    · have hbox : (s.setBox block sub state).boxes block = some { sub with state := state } :=
        Function.update_self ..
      rw [Option.bind_some, boxThread_eq hbox]
  case isFalse => rfl

variable [DecidableEq Ty]

theorem callback_view (hfresh : s.boxes s.history.created = none) (h : s.step a = some s') :
    CallbackView s a s' := by
  -- a mailbox step that is not of the drain, with what the bus does around it
  have hmoved {act : MailboxAction Tid (Publication Tid Val)} {block : ℕ}
      {sub : BusSubscription Tid Val} {state : MailboxState Tid (Publication Tid Val)}
      (hsub : s.boxes block = some sub) (hstate : sub.state.step act = some state)
      (hact : ∀ t, act ≠ .pop t ∧ ∀ threw, act ≠ .callbackEnd t threw)
      (hcallback : ∀ t, s'.callback t = (s.setBox block sub state).callback t)
      (hboxes : s'.boxes = (s.setBox block sub state).boxes)
      (hend : ∀ t threw, a ≠ .callbackEnd t threw) : CallbackView s a s' := by
    have hstartedOf (other : ℕ) :
        s'.startedOf other = (s.setBox block sub state).startedOf other := by
      rw [startedOf, startedOf, hboxes]
    cases MailboxState.callback_view hstate with
    | quiet _ _ hmessage hstarted =>
      refine .quiet a s' (fun t => ?_) (fun other => ?_) hend
      · rw [hcallback, callback_of_quiet hsub hmessage]
      · rw [hstartedOf, startedOf_of_quiet hsub hstarted]
    | began t => exact absurd rfl (hact t).1
    | ended t threw => exact absurd rfl ((hact t).2 threw)
  have hsame (hcallback : ∀ t, s'.callback t = s.callback t) (hboxes : s'.boxes = s.boxes)
      (hend : ∀ t threw, a ≠ .callbackEnd t threw) : CallbackView s a s' :=
    .quiet a s' hcallback (fun other => by rw [startedOf, startedOf, hboxes]) hend
  cases step_view h with
  | advertised | unsubscribed | expired => exact hsame (fun _ => rfl) rfl (by simp)
  | threw t a publishes e huser hregistry =>
    refine hsame (fun _ => rfl) rfl fun u threw => ?_
    rintro rfl
    cases hregistry
  | snapshot | locked | stopping =>
    exact hsame (fun _ => callback_setCall _) rfl (by simp)
  | unlocked | stopReturned => exact hsame (fun _ => callback_setCall _) rfl (by simp)
  | subscribed t topic contract options hasCallback bus block =>
    -- the new mailbox looks like the place that it takes
    refine .quiet _ _ (fun u => ?_) (fun other => ?_) (by simp)
    · have hbox (other : ℕ) : BusState.boxThread
          { s with boxes := Function.update s.boxes s.history.created (some {
              topic := topic, contract := contract, options := options
              id := bus.nextSubscriptionId, state := { block := block } }) } other u =
          s.boxThread other u := by
        by_cases hother : other = s.history.created
        · simp only [boxThread, hother, Function.update_self, hfresh]
        · simp only [boxThread, Function.update_of_ne hother]
      exact congrArg _ (funext fun other => by rw [← hbox other]; rfl)
    · by_cases hother : other = s.history.created
      · simp only [startedOf, addReturn, hother, Function.update_self, hfresh]
      · simp only [startedOf, addReturn, Function.update_of_ne hother]
  | enqueued t p block rest result sub state call outcomes hcall hsub hstate =>
    exact hmoved hsub hstate (by simp) (fun _ => callback_setCall _) rfl (by simp)
  | posted t c block outcome sub state hcall hsub hposting hstate =>
    exact hmoved hsub hstate (by simp) (fun _ => callback_setCall _) rfl (by simp)
  | postFailed t c block outcome result sub state hcall hsub hposting hfailed hstate =>
    exact hmoved hsub hstate (by simp) (fun _ => rfl) rfl (by simp)
  | cleaned t c block outcome sub state hcall hsub hcleaning hstate =>
    exact hmoved hsub hstate (by simp) (fun _ => callback_setCall _) rfl (by simp)
  | cleanedThrew t c block outcome sub state hcall hsub hcleaning hstate =>
    exact hmoved hsub hstate (by simp) (fun _ => callback_setCall _) rfl (by simp)
  | owner t a act block sub state call hact hold hnew hstopping hsub hstate =>
    refine hmoved hsub hstate ?_ (fun _ => callback_setCall _) rfl ?_
    · cases hact <;> simp
    · rintro u threw rfl
      cases hact
  | startedDrain t block sub state hcall hdrain hsub hstate =>
    refine hmoved hsub hstate (by simp) (fun u => ?_) rfl (by simp)
    rw [callback_setDrain]
    split
    case isTrue hut =>
      subst hut
      have hbox : (s.setBox block sub state).boxes block = some { sub with state := state } :=
        Function.update_self ..
      have hidle : state.messageOf u = none := by
        cases MailboxState.step_view hstate with
        | startDrain => simp [MailboxState.messageOf, DrainState.message]
        | waited _ _ hcall | slept _ _ hcall => simp at hcall
      have hbefore : ((s.setBox block sub state).threads u).drain = none := hdrain
      rw [Option.bind_some, boxThread_eq hbox, callback, hbefore]
      exact congrArg _ hidle
    case isFalse => rfl
  | drained t a act block sub state drain hact hcall hdrain hsub hstate hnext =>
    have hcallback (u : Tid) := callback_of_drained sub u hdrain hnext
    have hstarted (other : ℕ) : ((s.setBox block sub state).setDrain t drain).startedOf other =
        if other = block then state.history.started else s.startedOf other :=
      startedOf_setBox other
    cases hact with
    | finish => exact hmoved hsub hstate (by simp) hcallback rfl (by simp)
    | callbackEnd threw =>
      cases MailboxState.callback_view hstate with
      | quiet _ _ hmessage hsame hend => exact absurd rfl (hend t threw)
      | ended _ _ _ hmessage hsame =>
        refine .ended t threw _ (fun u => ?_) fun other => ?_
        · rw [hcallback, callback_setBox, hmessage]
          by_cases hut : u = t
          · rw [if_pos hut, if_pos hut, hut, if_pos hdrain]
            rfl
          · rw [if_neg hut, if_neg hut]
            split
            case isTrue hu => rw [callback_eq hu hsub]
            case isFalse => rfl
        · rw [hstarted]
          split
          case isTrue hother => rw [hsame, hother, startedOf_eq hsub]
          case isFalse => rfl
    | pop =>
      cases MailboxState.callback_view hstate with
      | quiet _ _ hmessage hsame =>
        refine .quiet _ _ (fun u => ?_) (fun other => ?_) (by simp)
        · rw [hcallback, callback_of_quiet hsub hmessage]
        · exact startedOf_of_quiet hsub hsame other
      | began _ p _ hactive hnone hmessage hsame =>
        refine .began t block sub p _ hsub hactive ?_ (fun u => ?_) fun other => ?_
        · rw [callback_eq hdrain hsub, hnone, Option.map_none]
        · rw [hcallback, callback_setBox, hmessage]
          by_cases hut : u = t
          · rw [if_pos hut, if_pos hut, hut, if_pos hdrain]
            rfl
          · rw [if_neg hut, if_neg hut]
            split
            case isTrue hu => rw [callback_eq hu hsub]
            case isFalse => rfl
        · rw [hstarted, hsame, startedOf_eq hsub]

omit [DecidableEq Ty] in
/-- One callback of a block at a time. -/
theorem callback_unique (hregistry : RegistryInvariant s) {p q : Publication Tid Val}
    (ht : s.callback t = some (block, p)) (hu : s.callback u = some (block, q)) : t = u := by
  obtain ⟨-, sub, hsub, htdrain⟩ := drain_of_callback ht
  obtain ⟨-, sub', hsub', hudrain⟩ := drain_of_callback hu
  cases hsub.symm.trans hsub'
  have hsingle := MailboxState.single_drain_token (hregistry.reachable block sub hsub)
  exact hsingle.2.2.2.1 t u ⟨p, htdrain⟩ ⟨q, hudrain⟩

/-- A cancelled subscription stays cancelled. -/
theorem inactive_of_step (hregistry : RegistryInvariant s) (h : s.step a = some s')
    (hsub : s.boxes block = some sub) (hinactive : sub.state.block.active = false) :
    ∃ state, s'.boxes block = some { sub with state := state } ∧ state.block.active = false := by
  obtain ⟨state, hbox, hmoved⟩ := (step_flow h).box (hregistry.fresh _ le_rfl) hsub
  refine ⟨state, hbox, ?_⟩
  rcases hmoved with rfl | ⟨act, hact⟩
  · exact hinactive
  · exact MailboxState.inactive_of_step hact hinactive

end BusState
end RobotMiddleware
