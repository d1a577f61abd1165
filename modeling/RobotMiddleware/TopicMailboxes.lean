import RobotMiddleware.MailboxTokens
import RobotMiddleware.MailboxStats
import RobotMiddleware.Observation
import RobotMiddleware.TopicOrder

/-! Which mailbox a step of the bus acts on, and where every accepted message of a mailbox is:
pending, started, or on the record of what was removed without a callback. -/
namespace RobotMiddleware

/-- The push section returns before it looks at the depth, or reports one of two things. -/
theorem SubscriptionControlBlock.enqueuePush_outcome {Tid Msg : Type}
    (c : SubscriptionControlBlock Tid Msg) (message : Msg) (isRemote : Bool) :
    (!c.active || isRemote && !c.options.receiveRemote) = true ∧
        c.enqueuePush message isRemote = ⟨c, {}, false⟩ ∨
      (!c.active || isRemote && !c.options.receiveRemote) = false ∧
        ((c.enqueuePush message isRemote).outcome = { rejectedNewest := true } ∨
          ∃ dropped, (c.enqueuePush message isRemote).outcome =
            { enqueued := true, droppedOldest := dropped }) := by
  unfold enqueuePush
  cases hactive : c.active with
  | false => exact .inl ⟨rfl, rfl⟩
  | true =>
    cases hremote : isRemote && !c.options.receiveRemote with
    | true => exact .inl ⟨rfl, rfl⟩
    | false =>
      refine .inr ⟨rfl, ?_⟩
      simp only [Bool.not_true, Bool.false_eq_true, ↓reduceIte]
      split
      case isTrue =>
        split
        case h_1 => exact .inl rfl
        case h_2 => exact .inr ⟨true, rfl⟩
      case isFalse => exact .inr ⟨false, rfl⟩

namespace MailboxState
variable {Tid Msg : Type} [DecidableEq Tid] {s s' : MailboxState Tid Msg}
  {a : MailboxAction Tid Msg}

/-- The messages that a step takes out of the mailbox without starting their callbacks. -/
def removed (s : MailboxState Tid Msg) : MailboxAction Tid Msg → List Msg
  | .enqueue _ message isRemote =>
    if (s.block.enqueuePush message isRemote).outcome.droppedOldest then
      s.block.pending.head?.toList
    else []
  | .cancel _ | .cancelAndWait _ | .cleanup _ => s.block.pending
  | .pop t => if (s.block.drainPop t).2.isNone then s.block.pending else []
  | _ => []

/-- Every accepted message is at one place; `gone` were removed without a callback. -/
def Accounted (s : MailboxState Tid Msg) (gone : List Msg) : Prop :=
  (s.history.accepted : Multiset Msg) =
    (s.history.started : Multiset Msg) + (s.block.pending : Multiset Msg) + (gone : Multiset Msg)

omit [DecidableEq Tid] in
theorem Accounted.initial {options : SubscriptionOptions}
    {block : SubscriptionControlBlock Tid Msg}
    (h : SubscriptionControlBlock.create options true = .ok block) :
    Accounted { block := block } [] := by
  unfold SubscriptionControlBlock.create at h
  split at h
  case isTrue => cases h
  case isFalse =>
    cases h
    rfl

/-- A push accepts the new message, and removes the oldest one where it displaces it. -/
theorem Accounted.enqueue {t : Tid} {message : Msg} {isRemote : Bool} {gone : List Msg}
    (h : s.Accounted gone) (hs : s.step (.enqueue t message isRemote) = some s') :
    s'.Accounted (gone ++ s.removed (.enqueue t message isRemote)) := by
  have hview := s.block.enqueuePush_view message isRemote
  simp only [step, Option.ite_none_right_eq_some, Option.some.injEq] at hs
  obtain ⟨-, rfl⟩ := hs
  unfold Accounted at h
  simp only [Accounted, removed]
  generalize s.block.enqueuePush message isRemote = r at hview ⊢
  cases hview with
  | skipped => simpa using h
  | rejected => simpa using h
  | displaced oldest rest hactive hpolicy hpending hfull =>
    simp only [SubscriptionControlBlock.accept, ↓reduceIte, hpending, List.head?_cons,
      Option.toList_some, ← Multiset.coe_add, h, ← Multiset.cons_coe, ← Multiset.singleton_add]
    abel
  | appended hactive hroom =>
    simp only [SubscriptionControlBlock.accept, ↓reduceIte, ← Multiset.coe_add, h,
      Bool.false_eq_true, List.append_nil]
    abel

theorem Accounted.step {gone : List Msg} (h : s.Accounted gone) (hs : s.step a = some s') :
    s'.Accounted (gone ++ s.removed a) := by
  have hmove : (s.history.accepted : Multiset Msg) =
      s.history.started + ([] : List Msg) + (gone ++ s.block.pending : List Msg) := by
    rw [h]
    simp only [← Multiset.coe_add, Multiset.coe_nil]
    abel
  cases step_view hs with
  | enqueue t message isRemote r => exact h.enqueue hs
  | cleanup | cancel | cancelAndWait => exact hmove
  | popped t message rest hdrain hactive hpending =>
    have hpop : s.removed (.pop t) = [] := by
      simp [removed, SubscriptionControlBlock.drainPop, hactive, hpending]
    rw [hpop, List.append_nil]
    unfold Accounted at h ⊢
    rw [h, hpending]
    simp only [← Multiset.coe_add, ← Multiset.cons_coe, ← Multiset.singleton_add]
    abel
  | drained t hdrain hempty =>
    have hpop : s.removed (.pop t) = s.block.pending := by
      rcases hempty with hactive | hpending
      · simp [removed, SubscriptionControlBlock.drainPop, hactive]
      · simp [removed, hpending]
    rw [hpop]
    exact hmove
  | waited t a hcall =>
    rcases hcall with ⟨-, rfl⟩ | ⟨-, rfl⟩
    · exact (List.append_nil gone).symm ▸ h
    · exact (List.append_nil gone).symm ▸ h
  | slept t a hcall =>
    rcases hcall with ⟨-, rfl, -⟩ | ⟨-, rfl⟩
    · exact (List.append_nil gone).symm ▸ h
    · exact (List.append_nil gone).symm ▸ h
  | _ =>
    simp only [removed, List.append_nil]
    exact h

/-- What a push section leaves, with the outcome that it computed. -/
theorem enqueue_push {t : Tid} {message : Msg} {isRemote : Bool}
    (hs : s.step (.enqueue t message isRemote) = some s') :
    s'.block = (s.block.enqueuePush message isRemote).block ∧
    (s'.history.accepted = if (s.block.enqueuePush message isRemote).outcome.enqueued then
      s.history.accepted ++ [message] else s.history.accepted) ∧
    ((s.block.enqueuePush message isRemote).mustSchedule = true →
      (s'.threads t).call = .posting (s.block.enqueuePush message isRemote).outcome) := by
  simp only [step, Option.ite_none_right_eq_some, Option.some.injEq] at hs
  obtain ⟨-, rfl⟩ := hs
  refine ⟨rfl, rfl, fun hmust => ?_⟩
  simp only [hmust, ↓reduceIte, setCall_call]

/-- Only a push adds to the mailbox. -/
theorem pending_subset_of_step (hs : s.step a = some s')
    (hact : ∀ t message isRemote, a ≠ .enqueue t message isRemote) :
    s'.block.pending ⊆ s.block.pending := by
  cases step_view hs with
  | enqueue t message isRemote => exact absurd rfl (hact t message isRemote)
  | popped t message rest hdrain hactive hpending =>
    rw [hpending]
    exact List.subset_cons_self message rest
  | cleanup | cancel | cancelAndWait | drained => exact List.nil_subset _
  | _ => exact List.Subset.refl _

/-- A thread that is responsible for the mailbox stays so until its own next section. -/
theorem call_of_step {t : Tid} (hs : s.step a = some s')
    (hholds : (s.threads t).call.holdsToken = true) (hpost : ∀ result, a ≠ .post t result)
    (hcleanup : a ≠ .cleanup t) : (s'.threads t).call = (s.threads t).call := by
  have hother {u : Tid} (hcall : (s.threads u).call.holdsToken = false) : t ≠ u := by
    rintro rfl
    rw [hholds] at hcall
    cases hcall
  have hawake : (s.threads t).call ≠ .waiting := by
    intro hwaiting
    rw [hwaiting] at hholds
    cases hholds
  have hnotify : (notifyAll s.threads t).call = (s.threads t).call := by
    rw [notifyAll_call, if_neg hawake]
  cases step_view hs with
  | enqueue u message isRemote r hcan =>
    have htu : t ≠ u := hother (by rw [((s.threads u).canCall_iff.mp hcan).1]; rfl)
    split
    case isTrue => rw [setCall_call, if_neg htu]
    case isFalse => rfl
  | posted u outcome hcall =>
    have htu : t ≠ u := by
      rintro rfl
      exact hpost _ rfl
    rw [setCall_call, if_neg htu]
  | postFailed u outcome result threw hcall hfailed =>
    have htu : t ≠ u := by
      rintro rfl
      exact hpost _ rfl
    rw [setCall_call, if_neg htu]
  | cleanup u outcome threw hcall =>
    have htu : t ≠ u := by
      rintro rfl
      exact hcleanup rfl
    rw [notifyAll_call, setCall_call, if_neg htu, if_neg hawake]
  | cancel u hcan => exact hnotify
  | cancelAndWait u hcan =>
    have htu : t ≠ u := hother (by rw [((s.threads u).canCall_iff.mp hcan).1]; rfl)
    rw [setCall_call, if_neg htu]
    exact hnotify
  | waitThrew u hcall | woke u hcall =>
    rw [setCall_call, if_neg (hother (by rw [hcall]; rfl))]
  | waited u a hcall | slept u a hcall =>
    have htu : t ≠ u := hother (by rcases hcall with ⟨hcall, -⟩ | ⟨hcall, -⟩ <;> rw [hcall] <;> rfl)
    rw [setCall_call, if_neg htu]
  | startDrain | popped | callbackEnd => rw [setDrain_call]
  | drained u => rw [notifyAll_call, setDrain_call, if_neg hawake]
  | finish u => rw [notifyAll_call, setDrain_call, if_neg hawake]

end MailboxState

namespace BusState
variable {Tid Ty : Type} {Val : Ty → Type}

def boxAction (s : BusState Tid Val) :
    BusAction Tid Val → Option (ℕ × MailboxAction Tid (Publication Tid Val))
  | .enqueue t =>
    match (s.threads t).call with
    | .dispatching ⟨p, block :: _, _⟩ => some (block, .enqueue t p p.isRemote)
    | _ => none
  | .post t result =>
    match (s.threads t).call with
    | .enqueueing _ block => some (block, .post t result)
    | _ => none
  | .cleanup t =>
    match (s.threads t).call with
    | .enqueueing _ block => some (block, .cleanup t)
    | _ => none
  | .cancel t block => some (block, .cancel t)
  | .cancelAndWait t block => some (block, .cancelAndWait t)
  | .checkWait t =>
    match (s.threads t).call with
    | .waiting block => some (block, .checkWait t)
    | _ => none
  | .wake t =>
    match (s.threads t).call with
    | .waiting block => some (block, .wake t)
    | _ => none
  | .recheck t =>
    match (s.threads t).call with
    | .waiting block => some (block, .recheck t)
    | _ => none
  | .stopCancel t =>
    match (s.threads t).call with
    | .stopping (block :: _) => some (block, .cancel t)
    | _ => none
  | .startDrain t block => some (block, .startDrain t)
  | .pop t => (s.threads t).drain.map fun block => (block, .pop t)
  | .callbackEnd t threw => (s.threads t).drain.map fun block => (block, .callbackEnd t threw)
  | .finish t => (s.threads t).drain.map fun block => (block, .finish t)
  | _ => none

variable [DecidableEq Tid] [DecidableEq Ty] {s s' : BusState Tid Val} {a : BusAction Tid Val}

omit [DecidableEq Ty] in
theorem boxAction_of_waitStep {t : Tid} {act : MailboxAction Tid (Publication Tid Val)}
    (h : s.waitStep t act = some s') : ∃ block s₁, (s.threads t).call = .waiting block ∧
      s.onBox block act = some s₁ ∧ s'.boxes = s₁.boxes := by
  unfold waitStep at h
  split at h
  case h_1 block hcall =>
    obtain ⟨s₁, hbox, rfl⟩ := Option.map_eq_some_iff.mp h
    refine ⟨block, s₁, hcall, hbox, ?_⟩
    split <;> rfl
  case h_2 => cases h

/-- The steps of owners, with the mailbox that they name. -/
theorem boxAction_of_owner {t : Tid} {act : MailboxAction Tid (Publication Tid Val)}
    (hact : OwnerAction t a act) (h : s.step a = some s') : ∃ block s₁,
      s.boxAction a = some (block, act) ∧ s.onBox block act = some s₁ ∧ s'.boxes = s₁.boxes := by
  cases hact with
  | cancel block =>
    simp only [step, Option.ite_none_right_eq_some] at h
    exact ⟨block, s', rfl, h.2, rfl⟩
  | cancelAndWait block =>
    simp only [step, Option.ite_none_right_eq_some] at h
    obtain ⟨s₁, hbox, rfl⟩ := Option.map_eq_some_iff.mp h.2
    exact ⟨block, s₁, rfl, hbox, rfl⟩
  | checkWait | wake | recheck =>
    obtain ⟨block, s₁, hcall, hbox, hboxes⟩ := boxAction_of_waitStep h
    exact ⟨block, s₁, by simp only [boxAction, hcall], hbox, hboxes⟩
  | stopCancel =>
    simp only [step] at h
    split at h
    case h_1 block rest hcall =>
      obtain ⟨s₁, hbox, rfl⟩ := Option.map_eq_some_iff.mp h
      exact ⟨block, s₁, by simp only [boxAction, hcall], hbox, rfl⟩
    case h_2 => cases h

inductive BoxView (s : BusState Tid Val) (a : BusAction Tid Val) (s' : BusState Tid Val) : Prop
  | untouched : s.boxAction a = none →
      (∀ block sub, s.boxes block = some sub → s'.boxes block = some sub) → BoxView s a s'
  | moved (block : ℕ) (act : MailboxAction Tid (Publication Tid Val))
      (sub : BusSubscription Tid Val) (state : MailboxState Tid (Publication Tid Val)) :
      s.boxAction a = some (block, act) → s.boxes block = some sub →
      sub.state.step act = some state →
      s'.boxes = Function.update s.boxes block (some { sub with state := state }) →
      BoxView s a s'

theorem box_view (hfresh : s.boxes s.history.created = none) (h : s.step a = some s') :
    BoxView s a s' := by
  cases step_view h with
  | subscribed t topic contract options hasCallback bus block' =>
    refine .untouched rfl fun block sub hsub => ?_
    have hne : block ≠ s.history.created := by
      rintro rfl
      rw [hfresh] at hsub
      cases hsub
    simp only [addReturn, Function.update_of_ne hne, hsub]
  | threw t a publishes e huser hregistry =>
    refine .untouched ?_ fun block sub hsub => hsub
    cases a <;> first | rfl | cases hregistry
  | enqueued t p block rest result sub state call outcomes hcall hsub hstate =>
    exact .moved block _ sub state (by simp only [boxAction, hcall]) hsub hstate rfl
  | posted t c block outcome sub state hcall hsub hposting hstate =>
    exact .moved block _ sub state (by simp only [boxAction, hcall]) hsub hstate rfl
  | postFailed t c block outcome result sub state hcall hsub hposting hfailed hstate =>
    exact .moved block _ sub state (by simp only [boxAction, hcall]) hsub hstate rfl
  | cleaned t c block outcome sub state hcall hsub hcleaning hstate =>
    exact .moved block _ sub state (by simp only [boxAction, hcall]) hsub hstate rfl
  | cleanedThrew t c block outcome sub state hcall hsub hcleaning hstate =>
    exact .moved block _ sub state (by simp only [boxAction, hcall]) hsub hstate rfl
  | owner t a act block sub state call hact hold hnew hstopping hsub hstate =>
    obtain ⟨block', s₁, haction, hbox, hboxes⟩ := boxAction_of_owner hact h
    obtain ⟨sub', state', hsub', hstate', rfl⟩ := onBox_eq_some hbox
    exact .moved block' act sub' state' haction hsub' hstate' hboxes
  | startedDrain t block sub state hcall hdrain hsub hstate =>
    exact .moved block _ sub state rfl hsub hstate rfl
  | drained t a act block sub state drain hact hcall hdrain hsub hstate =>
    refine .moved block act sub state ?_ hsub hstate rfl
    cases hact <;> simp only [boxAction, hdrain, Option.map_some]
  | _ => exact .untouched rfl fun block sub hsub => hsub

/-- A block that exists either takes the step that the action names, or stays as it is. -/
theorem box_of_step (hfresh : s.boxes s.history.created = none) (h : s.step a = some s')
    {block : ℕ} {sub : BusSubscription Tid Val} (hsub : s.boxes block = some sub) :
    ∃ state, s'.boxes block = some { sub with state := state } ∧
      (state = sub.state ∧ (∀ act, s.boxAction a ≠ some (block, act)) ∨
        ∃ act, s.boxAction a = some (block, act) ∧ sub.state.step act = some state) := by
  cases box_view hfresh h with
  | untouched haction hboxes =>
    exact ⟨sub.state, hboxes block sub hsub, .inl ⟨rfl, by simp [haction]⟩⟩
  | moved other act sub' state haction hsub' hstate hboxes =>
    rw [hboxes]
    by_cases hblock : block = other
    · subst hblock
      cases hsub.symm.trans hsub'
      exact ⟨state, Function.update_self .., .inr ⟨act, haction, hstate⟩⟩
    · refine ⟨sub.state, by rw [Function.update_of_ne hblock, hsub], .inl ⟨rfl, fun act' => ?_⟩⟩
      rw [haction]
      rintro ⟨⟩
      exact hblock rfl

omit [DecidableEq Tid] [DecidableEq Ty] in
theorem boxAction_enqueue {block : ℕ} {t : Tid} {p : Publication Tid Val} {isRemote : Bool}
    (h : s.boxAction a = some (block, .enqueue t p isRemote)) : a = .enqueue t ∧
      p.isRemote = isRemote ∧
      ∃ rest result, (s.threads t).call = .dispatching ⟨p, block :: rest, result⟩ := by
  cases a with
  | enqueue u =>
    simp only [boxAction] at h
    split at h
    case h_1 q other rest result hcall =>
      cases h
      exact ⟨rfl, rfl, rest, result, hcall⟩
    case h_2 => cases h
  | _ =>
    simp only [boxAction] at h
    try split at h
    all_goals simp at h

omit [DecidableEq Tid] [DecidableEq Ty] in
theorem boxAction_post {block : ℕ} {t : Tid} {result : PostResult}
    (h : s.boxAction a = some (block, .post t result)) : a = .post t result ∧
      ∃ c, (s.threads t).call = .enqueueing c block := by
  cases a with
  | post u result' =>
    simp only [boxAction] at h
    split at h
    case h_1 c other hcall =>
      cases h
      exact ⟨rfl, c, hcall⟩
    case h_2 => cases h
  | _ =>
    simp only [boxAction] at h
    try split at h
    all_goals simp at h

omit [DecidableEq Tid] [DecidableEq Ty] in
theorem boxAction_cleanup {block : ℕ} {t : Tid}
    (h : s.boxAction a = some (block, .cleanup t)) : a = .cleanup t ∧
      ∃ c, (s.threads t).call = .enqueueing c block := by
  cases a with
  | cleanup u =>
    simp only [boxAction] at h
    split at h
    case h_1 c other hcall =>
      cases h
      exact ⟨rfl, c, hcall⟩
    case h_2 => cases h
  | _ =>
    simp only [boxAction] at h
    try split at h
    all_goals simp at h

end BusState
end RobotMiddleware
