import RobotMiddleware.PublishResults
import RobotMiddleware.TopicCallbacks

/-! A `publish` result tells the truth: where each message is that was reported as enqueued, and
what the flags of a report say. -/
namespace RobotMiddleware

namespace MailboxState
variable {Tid Msg : Type} [DecidableEq Tid] {s s' : MailboxState Tid Msg}

/-- Accepted messages are not forgotten. -/
theorem accepted_subset_of_step {a : MailboxAction Tid Msg} (hs : s.step a = some s') :
    s.history.accepted ⊆ s'.history.accepted := by
  cases step_view hs with
  | enqueue t message isRemote r =>
    show s.history.accepted ⊆
      if r.outcome.enqueued then s.history.accepted ++ [message] else s.history.accepted
    split
    case isTrue => exact List.subset_append_left _ _
    case isFalse => exact List.Subset.refl _
  | _ => exact List.Subset.refl _

/-- Nobody was responsible for the mailbox, so it was empty: the enqueuer that has to schedule
finds its own message alone, and has displaced nothing. -/
theorem posting_of_enqueue {t : Tid} {message : Msg} {isRemote : Bool} (htoken : TokenInvariant s)
    (hs : s.step (.enqueue t message isRemote) = some s')
    (hmust : (s.block.enqueuePush message isRemote).mustSchedule = true) :
    s'.block.pending = [message] ∧ message ∈ s'.history.accepted ∧
      (s'.threads t).call = .posting { enqueued := true } := by
  obtain ⟨hblock, haccepted, hcall⟩ := enqueue_push hs
  have hcall' := hcall hmust
  rw [hblock, haccepted, hcall']
  have hview := s.block.enqueuePush_view message isRemote
  generalize s.block.enqueuePush message isRemote = r at hview hmust
  have hempty (hidle : (!s.block.scheduled) = true) : s.block.pending = [] := by
    by_contra hne
    rw [htoken.pending_scheduled hne] at hidle
    cases hidle
  cases hview with
  | skipped | rejected => cases hmust
  | displaced oldest rest hactive hpolicy hpending hfull =>
    rw [hempty hmust] at hpending
    cases hpending
  | appended hactive hroom =>
    simp [SubscriptionControlBlock.accept, hempty hmust]

omit [DecidableEq Tid] in
/-- The sections that take messages out without starting their callbacks. -/
theorem removed_cases {a : MailboxAction Tid Msg} {message : Msg} (h : message ∈ s.removed a) :
    (∃ t pushed isRemote, a = .enqueue t pushed isRemote ∧
      (s.block.enqueuePush pushed isRemote).outcome.droppedOldest = true) ∨
    (∃ t, a = .cleanup t) ∨ (∃ t, a = .cancel t ∨ a = .cancelAndWait t) ∨
      ∃ t, a = .pop t ∧ s.block.active = false := by
  cases a with
  | enqueue t pushed isRemote =>
    refine .inl ⟨t, pushed, isRemote, rfl, ?_⟩
    by_contra hkept
    simp [removed, hkept] at h
  | cleanup t => exact .inr (.inl ⟨t, rfl⟩)
  | cancel t => exact .inr (.inr (.inl ⟨t, .inl rfl⟩))
  | cancelAndWait t => exact .inr (.inr (.inl ⟨t, .inr rfl⟩))
  | pop t =>
    refine .inr (.inr (.inr ⟨t, rfl, ?_⟩))
    -- an active mailbox is left alone only where it is empty
    by_contra hactive
    rw [Bool.not_eq_false] at hactive
    cases hpending : s.block.pending with
    | nil => simp [removed, hpending] at h
    | cons => simp [removed, SubscriptionControlBlock.drainPop, hactive, hpending] at h
  | _ => cases h

theorem inactive_of_cancel {t : Tid} {a : MailboxAction Tid Msg} (hs : s.step a = some s')
    (ha : a = .cancel t ∨ a = .cancelAndWait t) : s'.block.active = false := by
  rcases ha with rfl | rfl
  · cases step_view hs with
    | cancel => rfl
    | waited _ _ hcall | slept _ _ hcall => simp at hcall
  · cases step_view hs with
    | cancelAndWait => rfl
    | waited _ _ hcall | slept _ _ hcall => simp at hcall

omit [DecidableEq Tid] in
/-- A push that displaces a message meets a full mailbox that drops its oldest one, and whoever
drains the mailbox is on the way. -/
theorem displaced_of_push {message : Msg} {isRemote : Bool} (htoken : TokenInvariant s)
    (hdropped : (s.block.enqueuePush message isRemote).outcome.droppedOldest = true) :
    s.block.options.overflowPolicy = .dropOldest ∧
      s.block.options.queueDepth ≤ s.block.pending.length ∧
      (s.block.enqueuePush message isRemote).outcome =
        { enqueued := true, droppedOldest := true } ∧
      (s.block.enqueuePush message isRemote).mustSchedule = false := by
  have hview := s.block.enqueuePush_view message isRemote
  generalize s.block.enqueuePush message isRemote = r at hview hdropped
  cases hview with
  | skipped | rejected | appended => cases hdropped
  | displaced oldest rest hactive hpolicy hpending hfull =>
    have hscheduled := htoken.pending_scheduled (hpending ▸ List.cons_ne_nil oldest rest)
    exact ⟨hpolicy, hfull, rfl, by simp [SubscriptionControlBlock.accept, hscheduled]⟩

theorem cleaning_of_refused {t : Tid} {outcome : DeliveryOutcome}
    (hcall : (s.threads t).call = .posting outcome) (hs : s.step (.post t .refused) = some s') :
    (s'.threads t).call = .cleaning outcome false := by
  simp only [step, hcall, Option.some.injEq] at hs
  rw [← hs, setCall_call, if_pos rfl]

end MailboxState

namespace BusState
variable {Tid Ty : Type} {Val : Ty → Type} [DecidableEq Tid] {s s' : BusState Tid Val}
  {a : BusAction Tid Val} {log : DeliveryLog Tid Val}

def PostingInvariant (s : BusState Tid Val) : Prop :=
  ∀ t c block, (s.threads t).call = .enqueueing c block → ∃ sub, s.boxes block = some sub ∧
    sub.topic = c.publication.topic ∧ c.publication ∈ sub.state.history.accepted ∧
    (∀ p ∈ sub.state.block.pending, p = c.publication) ∧
    ((sub.state.threads t).call = .posting { enqueued := true } ∨
      (sub.state.threads t).call = .cleaning { enqueued := true } false)

omit [DecidableEq Tid] in
/-- A failed post is that of a push, and it did not throw. -/
theorem PostingInvariant.cleaning {t : Tid} {c : PublishCall Tid Val} {block : ℕ}
    {sub : BusSubscription Tid Val} {outcome : DeliveryOutcome} {threw : Bool}
    (h : s.PostingInvariant) (hcall : (s.threads t).call = .enqueueing c block)
    (hsub : s.boxes block = some sub)
    (hcleaning : (sub.state.threads t).call = .cleaning outcome threw) :
    outcome = { enqueued := true } ∧ threw = false := by
  obtain ⟨sub', hsub', -, -, -, hholds⟩ := h t c block hcall
  cases hsub.symm.trans hsub'
  rcases hholds with hholds | hholds
  · rw [hcleaning] at hholds
    cases hholds
  · rw [hcleaning] at hholds
    cases hholds
    exact ⟨rfl, rfl⟩

variable [DecidableEq Ty]

/-- A call that settles its post has just pushed, or has not got the result of the post. -/
theorem enqueueing_of_step {t : Tid} {c : PublishCall Tid Val} {block : ℕ}
    (h : s.step a = some s') (hcall : (s'.threads t).call = .enqueueing c block) :
    (s.threads t).call = .enqueueing c block ∧ a ≠ .cleanup t ∧ a ≠ .post t .accepted ∨
      a = .enqueue t ∧
        (s.threads t).call = .dispatching ⟨c.publication, block :: c.remaining, c.result⟩ ∧
        ∃ sub, s.boxes block = some sub ∧ (sub.state.block.enqueuePush c.publication
          c.publication.isRemote).mustSchedule = true := by
  -- a thread that gets another call, and the others, which keep theirs
  have hset {u : Tid} {call : BusCall Tid Val} {bus : BusState Tid Val}
      (hnew : ((bus.setCall u call).threads t).call = .enqueueing c block) :
      u = t ∧ call = .enqueueing c block ∨ u ≠ t ∧ (bus.threads t).call = .enqueueing c block := by
    rw [setCall_threads] at hnew
    split at hnew
    case isTrue htu => exact .inl ⟨htu.symm, hnew⟩
    case isFalse htu => exact .inr ⟨fun hut => htu hut.symm, hnew⟩
  have hother {u : Tid} {call : BusCall Tid Val} {bus : BusState Tid Val}
      (hnew : ((bus.setCall u call).threads t).call = .enqueueing c block)
      (hcall : call ≠ .enqueueing c block) (hthreads : bus.threads = s.threads) :
      u ≠ t ∧ (s.threads t).call = .enqueueing c block := by
    rcases hset hnew with ⟨-, heq⟩ | ⟨hut, hold⟩
    · exact absurd heq hcall
    · exact ⟨hut, hthreads ▸ hold⟩
  cases step_view h with
  | advertised | subscribed | unsubscribed | expired => exact .inl ⟨hcall, by simp, by simp⟩
  | threw u a publishes e huser hregistry =>
    refine .inl ⟨hcall, ?_, ?_⟩
    · rintro rfl
      cases hregistry
    · rintro rfl
      cases hregistry
  | snapshot | locked | stopping | stopReturned =>
    exact .inl ⟨(hother hcall (by simp) rfl).2, by simp, by simp⟩
  | enqueued u p block' rest result sub state call outcomes hbefore hsub hstate hnext =>
    rcases hset hcall with ⟨rfl, hnew⟩ | ⟨-, hold⟩
    · rcases hnext with ⟨hmust, rfl, -⟩ | ⟨-, rfl, -⟩
      · cases hnew
        exact .inr ⟨rfl, hbefore, sub, hsub, hmust⟩
      · cases hnew
    · exact .inl ⟨hold, by simp, by simp⟩
  | posted u c' block' outcome sub state hbefore =>
    obtain ⟨hut, hold⟩ := hother hcall (by simp) rfl
    exact .inl ⟨hold, by simp, by simpa using hut⟩
  | postFailed u c' block' outcome result sub state hbefore hsub hposting hfailed =>
    exact .inl ⟨hcall, by simp, by simp [hfailed]⟩
  | cleaned u c' block' outcome sub state hbefore =>
    obtain ⟨hut, hold⟩ := hother hcall (by simp) rfl
    exact .inl ⟨hold, by simpa using hut, by simp⟩
  | cleanedThrew u c' block' outcome sub state hbefore =>
    obtain ⟨hut, hold⟩ := hother hcall (by simp) rfl
    exact .inl ⟨hold, by simpa using hut, by simp⟩
  | unlocked u p result hbefore => exact .inl ⟨(hother hcall (by simp) rfl).2, by simp, by simp⟩
  | owner u a act block' sub state call hact hold hnew =>
    have hcall' : call ≠ .enqueueing c block := by
      rintro rfl
      cases hnew
    have hkept := (hother hcall hcall' rfl).2
    cases hact <;> exact .inl ⟨hkept, by simp, by simp⟩
  | startedDrain u block' =>
    rw [setDrain_threads] at hcall
    split at hcall
    case isTrue htu => exact .inl ⟨htu ▸ hcall, by simp, by simp⟩
    case isFalse => exact .inl ⟨hcall, by simp, by simp⟩
  | drained u a act block' sub state drain hact =>
    have hkept : (s.threads t).call = .enqueueing c block := by
      rw [setDrain_threads] at hcall
      split at hcall
      case isTrue htu => exact htu ▸ hcall
      case isFalse => exact hcall
    cases hact <;> exact .inl ⟨hkept, by simp, by simp⟩

theorem PostingInvariant.step (hregistry : RegistryInvariant s) (hdispatch : DispatchInvariant s)
    (h : s.PostingInvariant) (hok : a.postReturns = true) (hs : s.step a = some s') :
    s'.PostingInvariant := by
  intro t c block hcall
  have hfresh := hregistry.fresh _ le_rfl
  rcases enqueueing_of_step hs hcall with ⟨hbefore, hcleanup, haccepted⟩ |
    ⟨rfl, hbefore, sub, hsub, hmust⟩
  · obtain ⟨sub, hsub, htopic, hmem, hpending, hholds⟩ := h t c block hbefore
    obtain ⟨state, hbox, ⟨rfl, -⟩ | ⟨act, haction, hstate⟩⟩ := box_of_step hfresh hs hsub
    · exact ⟨_, hbox, htopic, hmem, hpending, hholds⟩
    have hnopush (u : Tid) (p : Publication Tid Val) (isRemote : Bool) :
        act ≠ .enqueue u p isRemote := by
      -- the enqueuer would have the dispatch mutex of the topic, which `t` has
      rintro rfl
      obtain ⟨-, -, rest, result, hother⟩ := boxAction_enqueue haction
      have hfanout := congrArg BusCall.fanout hbefore
      have hfanout' := congrArg BusCall.fanout hother
      obtain ⟨sub', hsub', htopic', -⟩ :=
        (hregistry.fanout u _ hfanout').2 block (List.mem_cons_self ..)
      cases hsub.symm.trans hsub'
      have htu : t = u := hdispatch.holder_unique hfanout hfanout' rfl rfl (htopic.symm.trans htopic')
      rw [← htu, hbefore] at hother
      cases hother
    refine ⟨_, hbox, htopic, MailboxState.accepted_subset_of_step hstate hmem, fun p hp =>
      hpending p (MailboxState.pending_subset_of_step hstate hnopush hp), ?_⟩
    by_cases hpost : ∃ result, act = .post t result
    · obtain ⟨result, rfl⟩ := hpost
      obtain ⟨rfl, -⟩ := boxAction_post haction
      cases result with
      | accepted => exact absurd rfl haccepted
      | threw => cases hok
      | refused =>
        rcases hholds with hposting | hcleaning
        · exact .inr (MailboxState.cleaning_of_refused hposting hstate)
        · simp [MailboxState.step, hcleaning] at hstate
    · have hholds' : (sub.state.threads t).call.holdsToken = true := by
        rcases hholds with hholds | hholds <;> rw [hholds] <;> rfl
      have hkept := MailboxState.call_of_step hstate hholds' (fun result heq => hpost ⟨result, heq⟩)
        fun heq => hcleanup (boxAction_cleanup (heq ▸ haction)).1
      exact hkept ▸ hholds
  · have haction : s.boxAction (.enqueue t) =
        some (block, .enqueue t c.publication c.publication.isRemote) := by
      simp only [boxAction, hbefore]
    obtain ⟨state, hbox, ⟨-, hnone⟩ | ⟨act, haction', hstate⟩⟩ := box_of_step hfresh hs hsub
    · exact absurd haction (hnone _)
    cases haction.symm.trans haction'
    have htoken := MailboxState.tokenInvariant_of_reachable (hregistry.reachable block sub hsub)
    obtain ⟨hpending, hmem, hposting⟩ := MailboxState.posting_of_enqueue htoken hstate hmust
    have hfanout := congrArg BusCall.fanout hbefore
    obtain ⟨sub', hsub', htopic, -⟩ :=
      (hregistry.fanout t _ hfanout).2 block (List.mem_cons_self ..)
    cases hsub.symm.trans hsub'
    refine ⟨_, hbox, htopic, hmem, fun p hp => ?_, .inl hposting⟩
    rw [hpending] at hp
    exact List.mem_singleton.mp hp

omit [DecidableEq Ty] in
/-- Only a cancellation makes a subscription inactive. -/
theorem cancelled_of_inactive {block : ℕ} {sub : BusSubscription Tid Val}
    (hregistry : RegistryInvariant s) (hsub : s.boxes block = some sub)
    (hinactive : sub.state.block.active = false) : sub.state.history.cancelled = true := by
  have horder := MailboxState.orderInvariant_of_reachable (hregistry.reachable block sub hsub)
  rw [horder.active_eq, Bool.not_eq_false'] at hinactive
  exact hinactive

inductive Reported (s : BusState Tid Val) (log : DeliveryLog Tid Val) (call block : ℕ) :
    DeliveryOutcome → Prop
  | enqueued (droppedOldest : Bool) (sub : BusSubscription Tid Val) (p : Publication Tid Val) :
      s.boxes block = some sub → p ∈ sub.state.history.accepted → p.call = call →
      Reported s log call block { enqueued := true, droppedOldest := droppedOldest }
  | rejectedNewest : Reported s log call block { rejectedNewest := true }
  | executorRejected : Reported s log call block { executorRejected := true }
  | passedOver : (call, block) ∈ log.passedOver → Reported s log call block {}

/-- What is behind the reason that the record gives: the push that displaced the message reported
so from a subscription that drops its oldest messages, a cancelled subscription is inactive, and
a call whose post failed reported so of its own message. No message is lost. -/
def Explained (s : BusState Tid Val) (block : ℕ) (p : Publication Tid Val) : Removal → Prop
  | .displaced call => ∃ sub, s.boxes block = some sub ∧
      sub.options.overflowPolicy = .dropOldest ∧
      (call, block, { enqueued := true, droppedOldest := true }) ∈ s.history.outcomes
  | .cancelled => ∃ sub, s.boxes block = some sub ∧ sub.state.block.active = false ∧
      sub.state.history.cancelled = true
  | .postFailed call => p.call = call ∧
      (call, block, { executorRejected := true }) ∈ s.history.outcomes
  | .lost => False

structure FateInvariant (s : BusState Tid Val) (log : DeliveryLog Tid Val) : Prop where
  accounted : ∀ block sub, s.boxes block = some sub →
    sub.state.Accounted ((log.removedOf block).map Prod.snd)
  fresh : ∀ block, s.boxes block = none → log.removedOf block = []
  reported : ∀ call block outcome, (call, block, outcome) ∈ s.history.outcomes →
    Reported s log call block outcome
  passedOver : ∀ call block, (call, block) ∈ log.passedOver →
    (call, block, {}) ∈ s.history.outcomes
  explained : ∀ block why p, (block, why, p) ∈ log.removed → s.Explained block p why

end BusState

namespace DeliveryLog
variable {Tid Ty : Type} {Val : Ty → Type} {s s' : BusState Tid Val}
  {a : BusAction Tid Val} {log : DeliveryLog Tid Val}

theorem removedOf_note (block : ℕ) : (log.note s a).removedOf block = log.removedOf block ++
    (s.removedBy a).filterMap fun entry => if entry.1 = block then some entry.2 else none :=
  List.filterMap_append ..

/-- An action removes from the mailbox that it acts on. -/
theorem removedOf_note_of_action {block : ℕ} {act : MailboxAction Tid (Publication Tid Val)}
    {sub : BusSubscription Tid Val} (haction : s.boxAction a = some (block, act))
    (hsub : s.boxes block = some sub) (other : ℕ) : (log.note s a).removedOf other =
      log.removedOf other ++ if block = other then
        (sub.state.removed act).map fun p => (s.removal sub a, p) else [] := by
  rw [removedOf_note]
  congr 1
  simp only [BusState.removedBy, haction, hsub, List.filterMap_map, Function.comp_def]
  split
  case isTrue => rw [← List.filterMap_eq_map, Function.comp_def]
  case isFalse => exact List.filterMap_none _

theorem removedOf_note_of_other {block : ℕ}
    (h : ∀ act, s.boxAction a = some (block, act) → s.boxes block = none) :
    (log.note s a).removedOf block = log.removedOf block := by
  rw [removedOf_note, List.append_right_eq_self]
  unfold BusState.removedBy
  split
  case h_1 other act haction =>
    by_cases hblock : other = block
    · subst hblock
      rw [h act haction]
      rfl
    · cases s.boxes other <;> simp [hblock]
  case h_2 => rfl

theorem exists_of_removedBy {block : ℕ} {why : Removal} {p : Publication Tid Val}
    (h : (block, why, p) ∈ s.removedBy a) : ∃ act sub, s.boxAction a = some (block, act) ∧
      s.boxes block = some sub ∧ p ∈ sub.state.removed act ∧ why = s.removal sub a := by
  unfold BusState.removedBy at h
  split at h
  case h_1 other act haction =>
    split at h
    case h_1 sub hsub =>
      obtain ⟨q, hq, heq⟩ := List.mem_map.mp h
      cases heq
      exact ⟨act, sub, haction, hsub, hq, rfl⟩
    case h_2 => cases h
  case h_2 => cases h

end DeliveryLog

namespace BusState
variable {Tid Ty : Type} {Val : Ty → Type} [DecidableEq Tid] [DecidableEq Ty]
  {s s' : BusState Tid Val} {a : BusAction Tid Val} {log : DeliveryLog Tid Val}

/-- A reason goes on to hold. -/
theorem Explained.of_step {block : ℕ} {p : Publication Tid Val} {why : Removal}
    (hregistry : RegistryInvariant s) (h : s.Explained block p why) (hs : s.step a = some s')
    (houtcomes : s.history.outcomes ⊆ s'.history.outcomes) : s'.Explained block p why := by
  cases why with
  | displaced call =>
    obtain ⟨sub, hsub, hpolicy, hreport⟩ := h
    obtain ⟨state, hbox, -⟩ := box_of_step (hregistry.fresh _ le_rfl) hs hsub
    exact ⟨_, hbox, hpolicy, houtcomes hreport⟩
  | cancelled =>
    obtain ⟨sub, hsub, hinactive, -⟩ := h
    obtain ⟨state, hbox, hinactive'⟩ := inactive_of_step hregistry hs hsub hinactive
    exact ⟨_, hbox, hinactive', cancelled_of_inactive (hregistry.step (step_flow hs)) hbox hinactive'⟩
  | postFailed call => exact ⟨h.1, houtcomes h.2⟩
  | lost => exact h

omit [DecidableEq Tid] [DecidableEq Ty] in
/-- The calls of the bus that cancel a mailbox. -/
theorem removal_of_cancel {block : ℕ} {t : Tid} {sub : BusSubscription Tid Val}
    {act : MailboxAction Tid (Publication Tid Val)} (haction : s.boxAction a = some (block, act))
    (hact : act = .cancel t ∨ act = .cancelAndWait t) : s.removal sub a = .cancelled := by
  cases a with
  | cancel | cancelAndWait | stopCancel => rfl
  | _ =>
    simp only [boxAction] at haction
    try split at haction
    all_goals
      rcases hact with rfl | rfl
      all_goals simp at haction

omit [DecidableEq Tid] [DecidableEq Ty] in
theorem boxAction_pop {block : ℕ} {t : Tid} (h : s.boxAction a = some (block, .pop t)) :
    a = .pop t := by
  cases a with
  | pop u =>
    obtain ⟨other, -, heq⟩ := Option.map_eq_some_iff.mp h
    cases heq
    rfl
  | _ =>
    simp only [boxAction] at h
    try split at h
    all_goals simp at h

/-- Beside pushes and failed posts only cancelled mailboxes lose messages. -/
theorem explained_of_beside {block : ℕ} {why : Removal} {p : Publication Tid Val}
    (hregistry : RegistryInvariant s) (hs : s.step a = some s') (henqueue : ∀ t, a ≠ .enqueue t)
    (hcleanup : ∀ t, a ≠ .cleanup t) (hmem : (block, why, p) ∈ s.removedBy a) :
    s'.Explained block p why := by
  obtain ⟨act, sub, haction, hsub, hp, rfl⟩ := DeliveryLog.exists_of_removedBy hmem
  have hfresh := hregistry.fresh _ le_rfl
  have hcancelled {sub' : BusSubscription Tid Val} (hbox : s'.boxes block = some sub')
      (hinactive : sub'.state.block.active = false) : s'.Explained block p .cancelled :=
    ⟨sub', hbox, hinactive, cancelled_of_inactive (hregistry.step (step_flow hs)) hbox hinactive⟩
  rcases MailboxState.removed_cases hp with ⟨t, pushed, isRemote, rfl, -⟩ | ⟨t, rfl⟩ |
    ⟨t, hact⟩ | ⟨t, rfl, hinactive⟩
  · exact absurd (boxAction_enqueue haction).1 (henqueue t)
  · exact absurd (boxAction_cleanup haction).1 (hcleanup t)
  · have hwhy : s.removal sub a = .cancelled := removal_of_cancel haction hact
    obtain ⟨state, hbox, ⟨-, hnone⟩ | ⟨act', haction', hstate⟩⟩ := box_of_step hfresh hs hsub
    · exact absurd haction (hnone act)
    · cases haction.symm.trans haction'
      rw [hwhy]
      exact hcancelled hbox (MailboxState.inactive_of_cancel hstate hact)
  · obtain rfl := boxAction_pop haction
    have hwhy : s.removal sub (.pop t) = .cancelled := if_neg (Bool.eq_false_iff.mp hinactive)
    obtain ⟨state, hbox, hinactive'⟩ := inactive_of_step hregistry hs hsub hinactive
    rw [hwhy]
    exact hcancelled hbox hinactive'

namespace FateInvariant

omit [DecidableEq Tid] [DecidableEq Ty] in
theorem initial : FateInvariant ({} : BusState Tid Val) {} := by
  refine ⟨?_, fun _ _ => rfl, ?_, ?_, ?_⟩
  · rintro block sub ⟨⟩
  · rintro call block outcome ⟨⟩
  · rintro call block ⟨⟩
  · rintro block why p ⟨⟩

/-- What a step has to show of the reports that it adds. -/
theorem extend (hregistry : RegistryInvariant s) (h : FateInvariant s log)
    (hs : s.step a = some s') (new : List (ℕ × ℕ × DeliveryOutcome))
    (houtcomes : s'.history.outcomes = s.history.outcomes ++ new)
    (hnew : ∀ call block outcome, (call, block, outcome) ∈ new →
      Reported s' (log.note s a) call block outcome)
    (hkept : log.passedOver ⊆ (log.note s a).passedOver)
    (hpassed : ∀ call block, (call, block) ∈ (log.note s a).passedOver →
      (call, block) ∈ log.passedOver ∨ (call, block, {}) ∈ new)
    (hexplained : ∀ block why p, (block, why, p) ∈ s.removedBy a → s'.Explained block p why) :
    FateInvariant s' (log.note s a) := by
  have hfresh := hregistry.fresh _ le_rfl
  refine ⟨fun block sub hsub => ?_, fun block hnone => ?_, fun call block outcome hmem => ?_,
    fun call block hmem => ?_, fun block why p hmem => ?_⟩
  · cases hold : s.boxes block with
    | none =>
      -- a new mailbox, from which nothing has been removed
      obtain ⟨-, -, block', hcreate, hinit⟩ := (step_flow hs).newBox hold hsub
      rw [DeliveryLog.removedOf_note_of_other fun _ _ => hold, h.fresh block hold, hinit]
      exact MailboxState.Accounted.initial hcreate
    | some old =>
      obtain ⟨state, hbox, ⟨rfl, hnone⟩ | ⟨act, haction, hstate⟩⟩ := box_of_step hfresh hs hold
      · rw [hsub] at hbox
        cases hbox
        rw [DeliveryLog.removedOf_note_of_other fun act hact => absurd hact (hnone act)]
        exact h.accounted block old hold
      · rw [hsub] at hbox
        cases hbox
        rw [DeliveryLog.removedOf_note_of_action haction hold, if_pos rfl, List.map_append,
          List.map_map]
        simpa [Function.comp_def] using (h.accounted block old hold).step hstate
  · have hold : s.boxes block = none := by
      by_contra hsome
      obtain ⟨old, hold⟩ := Option.ne_none_iff_exists'.mp hsome
      obtain ⟨state, hbox, -⟩ := box_of_step hfresh hs hold
      rw [hnone] at hbox
      cases hbox
    rw [DeliveryLog.removedOf_note_of_other fun _ _ => hold]
    exact h.fresh block hold
  · rw [houtcomes] at hmem
    rcases List.mem_append.mp hmem with hmem | hmem
    · cases h.reported call block outcome hmem with
      | enqueued droppedOldest sub p hsub hp hcall =>
        obtain ⟨state, hbox, ⟨rfl, -⟩ | ⟨act, haction, hstate⟩⟩ := box_of_step hfresh hs hsub
        · exact .enqueued droppedOldest _ p hbox hp hcall
        · exact .enqueued droppedOldest _ p hbox
            (MailboxState.accepted_subset_of_step hstate hp) hcall
      | rejectedNewest => exact .rejectedNewest
      | executorRejected => exact .executorRejected
      | passedOver hpassed => exact .passedOver (hkept hpassed)
    · exact hnew call block outcome hmem
  · rw [houtcomes]
    rcases hpassed call block hmem with hmem | hmem
    · exact List.mem_append_left _ (h.passedOver call block hmem)
    · exact List.mem_append_right _ hmem
  · rcases List.mem_append.mp hmem with hmem | hmem
    · exact (h.explained block why p hmem).of_step hregistry hs
        (houtcomes ▸ List.subset_append_left _ _)
    · exact hexplained block why p hmem

/-- A step that reports nothing. -/
theorem quiet (hregistry : RegistryInvariant s) (h : FateInvariant s log)
    (hs : s.step a = some s') (houtcomes : s'.history.outcomes = s.history.outcomes)
    (hpassed : (log.note s a).passedOver = log.passedOver) (henqueue : ∀ t, a ≠ .enqueue t)
    (hcleanup : ∀ t, a ≠ .cleanup t) : FateInvariant s' (log.note s a) := by
  refine h.extend hregistry hs [] (by simpa using houtcomes) (by simp)
    (hpassed ▸ List.Subset.refl _) (fun call block hmem => ?_) fun block why p hmem =>
      explained_of_beside hregistry hs henqueue hcleanup hmem
  rw [hpassed] at hmem
  exact .inl hmem

/-- The push section, where it reports at once and where it goes on to the post. -/
theorem enqueued (hregistry : RegistryInvariant s) (h : FateInvariant s log) {t : Tid}
    {p : Publication Tid Val} {block : ℕ} {rest : List ℕ} {result : PublishResult}
    {sub : BusSubscription Tid Val} {state : MailboxState Tid (Publication Tid Val)}
    (hs : s.step (.enqueue t) = some s')
    (hcall : (s.threads t).call = .dispatching ⟨p, block :: rest, result⟩)
    (hsub : s.boxes block = some sub)
    (hstate : sub.state.step (.enqueue t p p.isRemote) = some state)
    (hbox : s'.boxes block = some { sub with state := state })
    (houtcomes : s'.history.outcomes = s.history.outcomes ++
      if (sub.state.block.enqueuePush p p.isRemote).mustSchedule then []
      else [(p.call, block, (sub.state.block.enqueuePush p p.isRemote).outcome)]) :
    FateInvariant s' (log.note s (.enqueue t)) := by
  -- what the push displaced is explained by its own report
  have hexplained (number : ℕ) (why : Removal) (q : Publication Tid Val)
      (hmem : (number, why, q) ∈ s.removedBy (.enqueue t)) : s'.Explained number q why := by
    obtain ⟨act, sub', haction, hsub', hq, rfl⟩ := DeliveryLog.exists_of_removedBy hmem
    simp only [boxAction, hcall, Option.some.injEq, Prod.mk.injEq] at haction
    obtain ⟨rfl, rfl⟩ := haction
    cases hsub.symm.trans hsub'
    have hdropped : (sub.state.block.enqueuePush p p.isRemote).outcome.droppedOldest = true := by
      rcases MailboxState.removed_cases hq with ⟨_, _, _, heq, hdropped⟩ | ⟨_, heq⟩ |
        ⟨_, heq | heq⟩ | ⟨_, heq, -⟩
      · cases heq
        exact hdropped
      all_goals cases heq
    have hreachable := hregistry.reachable block sub hsub
    obtain ⟨hpolicy, hfull, houtcome, hmust⟩ := MailboxState.displaced_of_push
      (MailboxState.tokenInvariant_of_reachable hreachable) hdropped
    rw [(MailboxState.orderInvariant_of_reachable hreachable).options_eq] at hpolicy hfull
    have hwhy : s.removal sub (.enqueue t) = .displaced p.call := by
      simp only [removal, hcall]
      exact if_pos ⟨hpolicy, hfull⟩
    rw [hwhy]
    refine ⟨_, hbox, hpolicy, ?_⟩
    rw [houtcomes, hmust, houtcome]
    exact List.mem_append_right _ (List.mem_singleton_self _)
  obtain ⟨-, haccepted, -⟩ := MailboxState.enqueue_push hstate
  have hnote : (log.note s (.enqueue t)).passedOver =
      if !sub.state.block.active || p.isRemote && !sub.state.block.options.receiveRemote then
        log.passedOver ++ [(p.call, block)]
      else log.passedOver := by
    simp only [DeliveryLog.note, DeliveryLog.notePassedOver, hcall, hsub]
  rcases sub.state.block.enqueuePush_outcome p p.isRemote with ⟨hskip, hpush⟩ | ⟨hskip, houtcome⟩
  · rw [hskip, if_pos rfl] at hnote
    rw [hpush] at houtcomes
    refine h.extend hregistry hs [(p.call, block, {})] houtcomes (fun call number outcome hmem => ?_)
      (hnote ▸ List.subset_append_left _ _) (fun call number hmem => ?_)
      hexplained
    · cases List.mem_singleton.mp hmem
      exact .passedOver (hnote ▸ List.mem_append_right _ (List.mem_singleton_self _))
    · rw [hnote] at hmem
      rcases List.mem_append.mp hmem with hmem | hmem
      · exact .inl hmem
      · cases List.mem_singleton.mp hmem
        exact .inr (List.mem_singleton_self _)
  · rw [hskip, if_neg Bool.false_ne_true] at hnote
    refine h.extend hregistry hs _ houtcomes (fun call number outcome hmem => ?_)
      (hnote ▸ List.Subset.refl _) (fun call number hmem => .inl (hnote ▸ hmem))
      hexplained
    split at hmem
    case isTrue => cases hmem
    case isFalse =>
      cases List.mem_singleton.mp hmem
      rcases houtcome with houtcome | ⟨dropped, houtcome⟩
      · rw [houtcome]
        exact .rejectedNewest
      · rw [houtcome] at haccepted ⊢
        rw [if_pos rfl] at haccepted
        refine .enqueued dropped _ p hbox ?_ rfl
        rw [haccepted]
        exact List.mem_append_right _ (List.mem_singleton_self p)

theorem step (hregistry : RegistryInvariant s) (hposting : s.PostingInvariant)
    (hok : a.postReturns = true) (h : FateInvariant s log) (hs : s.step a = some s') :
    FateInvariant s' (log.note s a) := by
  have hself {block : ℕ} {sub : BusSubscription Tid Val}
      {state : MailboxState Tid (Publication Tid Val)} :
      (s.setBox block sub state).boxes block = some { sub with state := state } :=
    Function.update_self ..
  cases step_view hs with
  | threw t a publishes e huser hregisters =>
    have hpassed : (log.note s a).passedOver = log.passedOver := by
      cases a <;> first | rfl | cases hregisters
    refine h.quiet hregistry hs rfl hpassed (fun t => ?_) fun t => ?_
    · rintro rfl
      cases hregisters
    · rintro rfl
      cases hregisters
  | enqueued t p block rest result sub state call outcomes hcall hsub hstate hnext =>
    refine h.enqueued hregistry hs hcall hsub hstate hself ?_
    rcases hnext with ⟨hmust, -, rfl⟩ | ⟨hmust, -, rfl⟩
    · rw [hmust]
      exact (List.append_nil _).symm
    · rw [hmust]
      rfl
  | posted t c block outcome sub state hcall hsub hcalling hstate =>
    obtain ⟨sub', hsub', -, hmem, -, hholds⟩ := hposting t c block hcall
    cases hsub.symm.trans hsub'
    have houtcome : outcome = { enqueued := true } := by
      rcases hholds with hholds | hholds
      · rw [hcalling] at hholds
        cases hholds
        rfl
      · rw [hcalling] at hholds
        cases hholds
    subst houtcome
    refine h.extend hregistry hs [(c.publication.call, block, { enqueued := true })] rfl
      (fun call number outcome hmem' => ?_) (List.Subset.refl _) (fun call number hmem' => .inl hmem')
      fun number why q hmem' => explained_of_beside hregistry hs (by simp) (by simp) hmem'
    cases List.mem_singleton.mp hmem'
    exact .enqueued false _ c.publication hself
      (MailboxState.accepted_subset_of_step hstate hmem) rfl
  | cleaned t c block outcome sub state hcall hsub hcalling hstate =>
    obtain ⟨sub', hsub', -, -, hpending, -⟩ := hposting t c block hcall
    cases hsub.symm.trans hsub'
    obtain ⟨rfl, -⟩ := hposting.cleaning hcall hsub hcalling
    refine h.extend hregistry hs [(c.publication.call, block, { executorRejected := true })] rfl
      (fun call number outcome hmem => ?_) (List.Subset.refl _) (fun call number hmem => .inl hmem)
      fun number why q hmem => ?_
    · cases List.mem_singleton.mp hmem
      exact .executorRejected
    · -- the mailbox has only the message of the call whose post failed
      obtain ⟨act, sub', haction, hsub', hq, rfl⟩ := DeliveryLog.exists_of_removedBy hmem
      simp only [boxAction, hcall, Option.some.injEq, Prod.mk.injEq] at haction
      obtain ⟨rfl, rfl⟩ := haction
      cases hsub.symm.trans hsub'
      have hwhy : s.removal sub (.cleanup t) = .postFailed c.publication.call := by
        simp only [removal, hcall]
      rw [hwhy]
      exact ⟨congrArg Publication.call (hpending q hq),
        List.mem_append_right _ (List.mem_singleton_self _)⟩
  | cleanedThrew t c block outcome sub state hcall hsub hcalling hstate =>
    -- no post throws
    cases (hposting.cleaning hcall hsub hcalling).2
  | owner t a act block sub state call hact =>
    have hpassed : (log.note s a).passedOver = log.passedOver := by cases hact <;> rfl
    refine h.quiet hregistry hs rfl hpassed (fun t => ?_) fun t => ?_
    · rintro rfl
      cases hact
    · rintro rfl
      cases hact
  | drained t a act block sub state drain hact =>
    have hpassed : (log.note s a).passedOver = log.passedOver := by cases hact <;> rfl
    refine h.quiet hregistry hs rfl hpassed (fun t => ?_) fun t => ?_
    · rintro rfl
      cases hact
    · rintro rfl
      cases hact
  | _ => exact h.quiet hregistry hs rfl rfl (by simp) (by simp)

end FateInvariant

end BusState

inductive DeliveryClass
  | enqueued
  | rejectedNewest
  | executorRejected
  | passedOver
  deriving DecidableEq

inductive Fate
  | pending
  | started
  | removed (why : Removal)
  deriving DecidableEq

namespace DeliveryLog
variable {Tid Ty : Type} {Val : Ty → Type}

/-- The class of a block for a call: a flag of its outcome, or the record of what was passed
over. -/
def InClass (log : DeliveryLog Tid Val) (call : ℕ) (entry : ℕ × DeliveryOutcome) :
    DeliveryClass → Prop
  | .enqueued => entry.2.enqueued = true
  | .rejectedNewest => entry.2.rejectedNewest = true
  | .executorRejected => entry.2.executorRejected = true
  | .passedOver => (call, entry.1) ∈ log.passedOver

def HasFate (log : DeliveryLog Tid Val) (s : BusState Tid Val) (block : ℕ)
    (p : Publication Tid Val) : Fate → Prop
  | .pending => ∃ sub, s.boxes block = some sub ∧ p ∈ sub.state.block.pending
  | .started => p ∈ s.startedOf block
  | .removed why => (block, why, p) ∈ log.removed

/-- A result counts the matched blocks by what their enqueues reported. -/
structure TruthfulResult (log : DeliveryLog Tid Val) (s : BusState Tid Val) (call : ℕ)
    (result : PublishResult) : Prop where
  nodup : (log.matched call).Nodup
  /-- Each matched block has reported once. -/
  reported : (s.outcomesOf call).map Prod.fst = log.matched call
  one_class : ∀ entry ∈ s.outcomesOf call, ∃! kind, log.InClass call entry kind
  matchedSubscribers : result.matchedSubscribers = (log.matched call).length
  enqueued : result.enqueued = (s.outcomesOf call).countP fun entry => entry.2.enqueued
  rejectedNewest :
    result.rejectedNewest = (s.outcomesOf call).countP fun entry => entry.2.rejectedNewest
  executorRejected :
    result.executorRejected = (s.outcomesOf call).countP fun entry => entry.2.executorRejected
  total : result.matchedSubscribers = result.enqueued + result.rejectedNewest +
    result.executorRejected + (log.matched call).countP fun block => (call, block) ∈ log.passedOver
  droppedOldest :
    result.droppedOldest = (s.outcomesOf call).countP fun entry => entry.2.droppedOldest
  droppedOldest_enqueued : ∀ entry ∈ s.outcomesOf call, entry.2.droppedOldest = true →
    entry.2.enqueued = true

/-- What callers were told, and what a failed post removes. -/
structure Truthful (log : DeliveryLog Tid Val) (s : BusState Tid Val) : Prop where
  results : ∀ call result, (call, result) ∈ log.results → log.TruthfulResult s call result
  /-- A message reported as enqueued is at one place, and no failed post has removed it. -/
  fate : ∀ call block outcome, (block, outcome) ∈ s.outcomesOf call → outcome.enqueued = true →
    ∃ p ∈ s.history.dispatched, p.call = call ∧ ∃ fate, log.HasFate s block p fate ∧
      (∀ other, log.HasFate s block p other → other = fate) ∧
      ∀ number, fate ≠ .removed (.postFailed number)
  /-- A failed post removes no message of another call. -/
  postFailed : ∀ block call p, (block, .postFailed call, p) ∈ log.removed → p.call = call
  /-- Nothing else takes a message out of a mailbox. -/
  removed : ∀ block why p, (block, why, p) ∈ log.removed → s.Explained block p why

end DeliveryLog

namespace BusState
variable {Tid Ty : Type} {Val : Ty → Type} [DecidableEq Tid] [DecidableEq Ty]

structure DeliveryInvariant (x : BusState Tid Val × DeliveryLog Tid Val) : Prop where
  registry : RegistryInvariant x.1
  dispatch : DispatchInvariant x.1
  tally : TallyInvariant x.1 x.2.matched x.2.results
  posting : x.1.PostingInvariant
  fates : FateInvariant x.1 x.2

theorem deliveryInvariant_of_reachable {x : BusState Tid Val × DeliveryLog Tid Val}
    (h : (deliverySystem Tid Val).ReachableVia (fun _ a => a.postReturns = true) x) :
    DeliveryInvariant x := by
  refine h.invariant ?_ fun y a z hr hy hok hstep => ?_
  · rintro ⟨s, log⟩ ⟨hinit, hlog⟩
    cases hinit
    cases hlog
    exact ⟨.initial, .initial, .initial, by rintro t c block ⟨⟩, .initial⟩
  · obtain ⟨hs, hlog⟩ := TransitionSystem.recorded_step_iff.mp hstep
    have hflow := step_flow hs
    refine ⟨hy.registry.step hflow, hy.dispatch.step hy.registry hflow, ?_,
      hy.posting.step hy.registry hy.dispatch hok hs, ?_⟩
    · rw [hlog]
      exact hy.tally.step hy.registry hy.dispatch hs
    · rw [hlog]
      exact hy.fates.step hy.registry hy.posting hok hs

omit [DecidableEq Ty] in
/-- A block reports once to a call. -/
theorem DeliveryInvariant.outcome_unique {x : BusState Tid Val × DeliveryLog Tid Val}
    (h : DeliveryInvariant x) {call block : ℕ} {outcome other : DeliveryOutcome}
    (hmem : (call, block, outcome) ∈ x.1.history.outcomes)
    (hother : (call, block, other) ∈ x.1.history.outcomes) : outcome = other := by
  have hentry := List.inj_on_of_nodup_map (h.tally.reported_nodup call) (mem_outcomesOf.mpr hmem)
    (mem_outcomesOf.mpr hother) rfl
  exact congrArg Prod.snd hentry

omit [DecidableEq Ty] in
theorem DeliveryInvariant.one_class {x : BusState Tid Val × DeliveryLog Tid Val}
    (h : DeliveryInvariant x) {call : ℕ} {entry : ℕ × DeliveryOutcome}
    (hmem : entry ∈ x.1.outcomesOf call) : ∃! kind, x.2.InClass call entry kind := by
  obtain ⟨block, outcome⟩ := entry
  have hreport := mem_outcomesOf.mp hmem
  -- a block that was passed over has reported no flag
  have hpassed (hpassed : (call, block) ∈ x.2.passedOver) : outcome = {} :=
    h.outcome_unique hreport (h.fates.passedOver call block hpassed)
  cases h.fates.reported call block outcome hreport with
  | enqueued droppedOldest sub p hsub hp hcall =>
    refine ⟨.enqueued, rfl, fun kind hkind => ?_⟩
    cases kind with
    | enqueued => rfl
    | rejectedNewest | executorRejected => cases hkind
    | passedOver => cases hpassed hkind
  | rejectedNewest =>
    refine ⟨.rejectedNewest, rfl, fun kind hkind => ?_⟩
    cases kind with
    | rejectedNewest => rfl
    | enqueued | executorRejected => cases hkind
    | passedOver => cases hpassed hkind
  | executorRejected =>
    refine ⟨.executorRejected, rfl, fun kind hkind => ?_⟩
    cases kind with
    | executorRejected => rfl
    | enqueued | rejectedNewest => cases hkind
    | passedOver => cases hpassed hkind
  | passedOver hmem' =>
    refine ⟨.passedOver, hmem', fun kind hkind => ?_⟩
    cases kind with
    | passedOver => rfl
    | enqueued | rejectedNewest | executorRejected => cases hkind

omit [DecidableEq Tid] [DecidableEq Ty] in
/-- Entries in exactly one class each are counted class by class. -/
theorem length_eq_countP_classes {log : DeliveryLog Tid Val} {call : ℕ}
    {outcomes : List (ℕ × DeliveryOutcome)}
    (h : ∀ entry ∈ outcomes, ∃! kind, log.InClass call entry kind) :
    outcomes.length = (outcomes.countP fun entry => entry.2.enqueued) +
      (outcomes.countP fun entry => entry.2.rejectedNewest) +
      (outcomes.countP fun entry => entry.2.executorRejected) +
      outcomes.countP fun entry => (call, entry.1) ∈ log.passedOver := by
  induction outcomes with
  | nil => rfl
  | cons entry outcomes ih =>
    have hrest := ih fun other hother => h other (List.mem_cons_of_mem _ hother)
    obtain ⟨kind, hkind, hunique⟩ := h entry (List.mem_cons_self ..)
    have hothers (other : DeliveryClass) (hne : other ≠ kind) : ¬ log.InClass call entry other :=
      fun hother => hne (hunique other hother)
    have henqueued := hothers .enqueued
    have hrejected := hothers .rejectedNewest
    have hexecutor := hothers .executorRejected
    have hpassed := hothers .passedOver
    simp only [List.length_cons, List.countP_cons, decide_eq_true_eq]
    cases kind <;> simp_all [DeliveryLog.InClass] <;> omega

omit [DecidableEq Ty] in
/-- A message is at one place, and a failed post has not removed it from a block that did not
report so. -/
theorem DeliveryInvariant.exists_fate {x : BusState Tid Val × DeliveryLog Tid Val}
    (h : DeliveryInvariant x) {block : ℕ} {outcome : DeliveryOutcome} {p : Publication Tid Val}
    {sub : BusSubscription Tid Val} (hsub : x.1.boxes block = some sub)
    (hp : p ∈ sub.state.history.accepted)
    (hreport : (p.call, block, outcome) ∈ x.1.history.outcomes) (henqueued : outcome.enqueued = true) :
    ∃ fate, x.2.HasFate x.1 block p fate ∧
      (∀ other, x.2.HasFate x.1 block p other → other = fate) ∧
      ∀ number, fate ≠ .removed (.postFailed number) := by
  have hsublist := h.dispatch.accepted block sub hsub
  have hnodup : sub.state.history.accepted.Nodup :=
    (h.dispatch.distinct.of_map).sublist (hsublist.trans List.filter_sublist)
  have hperm : sub.state.history.accepted.Perm (sub.state.history.started ++
      (sub.state.block.pending ++ (x.2.removedOf block).map Prod.snd)) := by
    have haccounted := h.fates.accounted block sub hsub
    rw [MailboxState.Accounted, Multiset.coe_add, Multiset.coe_add, Multiset.coe_eq_coe,
      List.append_assoc] at haccounted
    exact haccounted
  obtain ⟨-, hrest, hstarted⟩ := List.nodup_append.mp (hperm.nodup_iff.mp hnodup)
  obtain ⟨-, hgone, hpending⟩ := List.nodup_append.mp hrest
  have hremoved {why : Removal} :
      (block, why, p) ∈ x.2.removed ↔ (why, p) ∈ x.2.removedOf block := by
    simp only [DeliveryLog.removedOf, List.mem_filterMap, Option.ite_none_right_eq_some,
      Option.some.injEq]
    constructor
    · intro hmem
      exact ⟨_, hmem, rfl, rfl⟩
    · rintro ⟨⟨number, entry⟩, hmem, rfl, rfl⟩
      exact hmem
  have hbegun : x.2.HasFate x.1 block p .started ↔ p ∈ sub.state.history.started := by
    rw [DeliveryLog.HasFate, startedOf_eq hsub]
  have hpendingOf {sub' : BusSubscription Tid Val} (hsub' : x.1.boxes block = some sub')
      (hmem : p ∈ sub'.state.block.pending) : p ∈ sub.state.block.pending := by
    cases hsub.symm.trans hsub'
    exact hmem
  rcases List.mem_append.mp (hperm.subset hp) with hmem | hmem
  · refine ⟨.started, hbegun.mpr hmem, fun other hother => ?_, fun number => by simp⟩
    cases other with
    | started => rfl
    | pending =>
      obtain ⟨sub', hsub', hother⟩ := hother
      exact absurd rfl (hstarted p hmem p (List.mem_append_left _ (hpendingOf hsub' hother)))
    | removed why =>
      have hother' : p ∈ (x.2.removedOf block).map Prod.snd :=
        List.mem_map_of_mem (hremoved.mp hother)
      exact absurd rfl (hstarted p hmem p (List.mem_append_right _ hother'))
  rcases List.mem_append.mp hmem with hmem' | hmem'
  · refine ⟨.pending, ⟨sub, hsub, hmem'⟩, fun other hother => ?_, fun number => by simp⟩
    cases other with
    | pending => rfl
    | started => exact absurd rfl (hstarted p (hbegun.mp hother) p hmem)
    | removed why =>
      exact absurd rfl (hpending p hmem' p (List.mem_map_of_mem (hremoved.mp hother)))
  · obtain ⟨⟨why, q⟩, hentry, rfl⟩ := List.mem_map.mp hmem'
    refine ⟨.removed why, hremoved.mpr hentry, fun other hother => ?_, fun number heq => ?_⟩
    · cases other with
      | pending =>
        obtain ⟨sub', hsub', hother⟩ := hother
        exact absurd rfl (hpending q (hpendingOf hsub' hother) q hmem')
      | started => exact absurd rfl (hstarted q (hbegun.mp hother) q hmem)
      | removed why' =>
        have heq := List.inj_on_of_nodup_map hgone (hremoved.mp hother) hentry rfl
        exact congrArg Fate.removed (congrArg Prod.fst heq)
    · -- the call of the failed post was told so
      cases heq
      obtain ⟨rfl, hfailed⟩ := h.fates.explained block _ q (hremoved.mpr hentry)
      rw [h.outcome_unique hreport hfailed] at henqueued
      cases henqueued

end BusState

/-- What `publish` reports is true of every matched subscription, for every interleaving in which
no post throws. -/
theorem publish_results_truthful {Tid Ty : Type} {Val : Ty → Type} [DecidableEq Tid]
    [DecidableEq Ty] {s : BusState Tid Val} {log : DeliveryLog Tid Val}
    (h : (deliverySystem Tid Val).ReachableVia (fun _ a => a.postReturns = true) (s, log)) :
    log.Truthful s := by
  have hinv := BusState.deliveryInvariant_of_reachable h
  refine ⟨fun call result hmem => ?_, fun call block outcome hmem henqueued => ?_,
    fun block call p hmem => (hinv.fates.explained block _ p hmem).1, hinv.fates.explained⟩
  · obtain ⟨-, hmatched, hresult, -⟩ := hinv.tally.results call result hmem
    have hclass (entry : ℕ × DeliveryOutcome) (hentry : entry ∈ s.outcomesOf call) :=
      hinv.one_class hentry
    have hlength : (log.matched call).length = (s.outcomesOf call).length := by
      rw [hmatched, List.length_map]
    have hsum := BusState.length_eq_countP_classes hclass
    have henqueued : result.enqueued = (s.outcomesOf call).countP fun entry => entry.2.enqueued := by
      rw [hresult]
      exact PublishResult.tally_field rfl fun _ _ => rfl
    have hrejected : result.rejectedNewest =
        (s.outcomesOf call).countP fun entry => entry.2.rejectedNewest := by
      rw [hresult]
      exact PublishResult.tally_field rfl fun _ _ => rfl
    have hexecutor : result.executorRejected =
        (s.outcomesOf call).countP fun entry => entry.2.executorRejected := by
      rw [hresult]
      exact PublishResult.tally_field rfl fun _ _ => rfl
    have hdropped : result.droppedOldest =
        (s.outcomesOf call).countP fun entry => entry.2.droppedOldest := by
      rw [hresult]
      exact PublishResult.tally_field rfl fun _ _ => rfl
    have hcount : result.matchedSubscribers = (log.matched call).length := by
      rw [hresult]
      exact PublishResult.tally_matchedSubscribers
    refine ⟨hmatched ▸ hinv.tally.reported_nodup call, hmatched.symm, hclass, hcount, henqueued,
      hrejected, hexecutor, ?_, hdropped, fun entry hentry hflag => ?_⟩
    · rw [hcount, hlength, henqueued, hrejected, hexecutor, hmatched, List.countP_map]
      exact hsum
    · obtain ⟨block, outcome⟩ := entry
      cases hinv.fates.reported call block outcome (BusState.mem_outcomesOf.mp hentry) with
      | enqueued => rfl
      | rejectedNewest | executorRejected | passedOver => cases hflag
  · have hreport := BusState.mem_outcomesOf.mp hmem
    cases hinv.fates.reported call block outcome hreport with
    | rejectedNewest | executorRejected | passedOver => cases henqueued
    | enqueued droppedOldest sub p hsub hp hcall =>
      have hsublist := hinv.dispatch.accepted block sub hsub
      have hdispatched : p ∈ s.history.dispatched := List.mem_of_mem_filter (hsublist.subset hp)
      subst hcall
      exact ⟨p, hdispatched, rfl, hinv.exists_fate hsub hp hreport henqueued⟩

/-- A remote message that one mailbox filters and the executor refuses for another, and a local
one that displaces it in the third, whose subscription is cancelled then. -/
theorem publish_results_truthful_refused : ∃ (s : BusState (Fin 2) fun _ : Fin 1 => ℕ)
    (log : DeliveryLog (Fin 2) fun _ : Fin 1 => ℕ),
    log.results = [(0, ⟨3, 1, 0, 0, 1⟩), (1, ⟨3, 3, 1, 0, 0⟩)] ∧
    log.passedOver = [(0, 2)] ∧
    (log.removed.map fun entry => (entry.1, entry.2.1, entry.2.2.call)) =
      [(1, .postFailed 0, 0), (0, .displaced 1, 0), (0, .cancelled, 1)] ∧
    log.Truthful s := by
  obtain ⟨⟨s, log⟩, hs, hp⟩ := (deliverySystem (Fin 2) fun _ : Fin 1 => ℕ).exists_reachableVia_of_run
    (fun _ a => a.postReturns = true) ({}, {})
    [.subscribe 0 [1] ⟨7, 9, 0⟩ { queueDepth := 1 } true,
      .subscribe 0 [1] ⟨7, 9, 0⟩ { queueDepth := 1, overflowPolicy := .rejectNewest } true,
      .subscribe 0 [1] ⟨7, 9, 0⟩ { receiveRemote := false } true,
      .publish 0 [1] 7 9 ⟨0, 40⟩ true [0, 1, 2], .publish 1 [1] 7 9 ⟨0, 41⟩ false [2, 1, 0],
      .lockDispatch 0, .enqueue 0, .post 0 .accepted, .enqueue 0, .post 0 .refused, .cleanup 0,
      .enqueue 0, .unlockDispatch 0,
      .lockDispatch 1, .enqueue 1, .post 1 .accepted, .enqueue 1, .post 1 .accepted, .enqueue 1,
      .unlockDispatch 1, .cancel 0 0]
    (fun x => x.2.results == [(0, ⟨3, 1, 0, 0, 1⟩), (1, ⟨3, 3, 1, 0, 0⟩)] &&
      (x.2.passedOver == [(0, 2)] &&
      (x.2.removed.map fun entry => (entry.1, entry.2.1, entry.2.2.call)) ==
        [(1, .postFailed 0, 0), (0, .displaced 1, 0), (0, .cancelled, 1)]))
    ⟨rfl, rfl⟩ (by decide)
  simp only [Bool.and_eq_true, beq_iff_eq] at hp
  exact ⟨s, log, hp.1, hp.2.1, hp.2.2, publish_results_truthful hs⟩

end RobotMiddleware
