import RobotMiddleware.TopicRegistry

/-! A stopped bus stays stopped and rejects every call, and what drains, threads and control
blocks have to do with each other. -/
namespace RobotMiddleware
namespace BusState
variable {Tid Ty : Type} {Val : Ty → Type} [DecidableEq Tid] [DecidableEq Ty]
  {s s' : BusState Tid Val} {a : BusAction Tid Val}

theorem accepting_of_step (h : s.step a = some s') (hstopped : s.bus.accepting = false) :
    s'.bus.accepting = false := by
  have hopen {P : Prop} (haccepting : s.bus.accepting = true) : P := by
    rw [hstopped] at haccepting
    cases haccepting
  cases step_view h with
  | advertised t topic contract bus huser haccepting => exact hopen haccepting
  | subscribed t topic contract options hasCallback bus block huser haccepting =>
    exact hopen haccepting
  | snapshot t p record order huser haccepting => exact hopen haccepting
  | unsubscribed => exact (TopicBus.unsubscribe_accepting _).trans hstopped
  | stopping => exact TopicBus.stop_accepting _
  | _ => exact hstopped

/-- A call that begins on a stopped bus throws. -/
theorem registryCall_of_stopped (h : s.step a = some s') (hstopped : s.bus.accepting = false)
    (hcall : a.registryCall = true) :
    ∃ t e, a.actor = some t ∧ s'.history.returns = s.history.returns ++ [(t, .error e)] := by
  have hopen {P : Prop} (haccepting : s.bus.accepting = true) : P := by
    rw [hstopped] at haccepting
    cases haccepting
  cases step_view h with
  | advertised t topic contract bus huser haccepting => exact hopen haccepting
  | subscribed t topic contract options hasCallback bus block huser haccepting =>
    exact hopen haccepting
  | snapshot t p record order huser haccepting => exact hopen haccepting
  | threw t a publishes e huser hregistry hactor => exact ⟨t, e, hactor, rfl⟩
  | owner t a act block sub state call hact => cases hact <;> cases hcall
  | drained t a act block sub state drain hact => cases hact <;> cases hcall
  | _ => cases hcall

/-- A thread gets into `stop` by calling it, which stops the bus. -/
theorem stopping_of_step (h : s.step a = some s') {t : Tid} {rest : List ℕ}
    (hcall : (s'.threads t).call = .stopping rest) :
    (∃ before, (s.threads t).call = .stopping before) ∨
      (∃ order, a = .stop t order) ∧ s'.bus.accepting = false := by
  have hset {s : BusState Tid Val} {u : Tid} {call : BusCall Tid Val}
      (hcall : ((s.setCall u call).threads t).call = .stopping rest)
      (hcall' : ∀ rest, call ≠ .stopping rest) : (s.threads t).call = .stopping rest := by
    rw [setCall_threads] at hcall
    split at hcall
    case isTrue => exact absurd hcall (hcall' rest)
    case isFalse => exact hcall
  cases step_view h with
  | advertised | subscribed | threw | postFailed | unsubscribed | expired =>
    exact .inl ⟨rest, hcall⟩
  | snapshot | locked | posted | cleaned | cleanedThrew | unlocked | stopReturned =>
    exact .inl ⟨rest, hset hcall (by simp)⟩
  | enqueued u p block rest' result sub state call outcomes hbefore hsub hstate hnext =>
    refine .inl ⟨rest, hset hcall fun rest hstop => ?_⟩
    rcases hnext with ⟨-, rfl, -⟩ | ⟨-, rfl, -⟩ <;> cases hstop
  | owner u a act block sub state call hact hold hnew hstopping hsub hstate =>
    rw [setCall_threads] at hcall
    split at hcall
    case isTrue hut => exact .inl ⟨_, hut ▸ hstopping rest hcall⟩
    case isFalse => exact .inl ⟨rest, hcall⟩
  | stopping u order huser =>
    rw [setCall_threads] at hcall
    split at hcall
    case isTrue hut =>
      subst hut
      exact .inr ⟨⟨order, rfl⟩, TopicBus.stop_accepting _⟩
    case isFalse => exact .inl ⟨rest, hcall⟩
  | startedDrain u block sub state =>
    rw [setDrain_threads] at hcall
    split at hcall
    case isTrue hut => exact .inl ⟨rest, hut ▸ hcall⟩
    case isFalse => exact .inl ⟨rest, hcall⟩
  | drained u a act block sub state drain =>
    rw [setDrain_threads] at hcall
    split at hcall
    case isTrue hut => exact .inl ⟨rest, hut ▸ hcall⟩
    case isFalse => exact .inl ⟨rest, hcall⟩

/-- A thread drains what it has started to drain. -/
theorem drain_of_step (h : s.step a = some s') {t : Tid} {block : ℕ}
    (hdrain : (s'.threads t).drain = some block) :
    (s.threads t).drain = some block ∨ a = .startDrain t block := by
  have hset {s : BusState Tid Val} {u : Tid} {call : BusCall Tid Val}
      (hdrain : ((s.setCall u call).threads t).drain = some block) :
      (s.threads t).drain = some block := by
    rw [setCall_threads] at hdrain
    split at hdrain
    case isTrue hut => exact hut ▸ hdrain
    case isFalse => exact hdrain
  cases step_view h with
  | advertised | subscribed | threw | postFailed | unsubscribed | expired => exact .inl hdrain
  | snapshot | locked | enqueued | posted | cleaned | cleanedThrew | unlocked | owner | stopping |
    stopReturned => exact .inl (hset hdrain)
  | startedDrain u other sub state =>
    rw [setDrain_threads] at hdrain
    split at hdrain
    case isTrue hut =>
      cases hdrain
      exact .inr (by rw [hut])
    case isFalse => exact .inl hdrain
  | drained u a act other sub state drain hact hcall hbefore hsub hstate hnext =>
    rw [setDrain_threads] at hdrain
    split at hdrain
    case isTrue hut =>
      rcases hnext with ⟨-, rfl⟩ | ⟨-, rfl⟩
      · cases hdrain
      · exact .inl (by rw [hut, hbefore]; exact hdrain)
    case isFalse => exact .inl hdrain

omit [DecidableEq Tid] [DecidableEq Ty] in
/-- What is in the place of a box after one of them has moved. -/
theorem setBox_cases {block other : ℕ} {sub sub' : BusSubscription Tid Val}
    {state : MailboxState Tid (Publication Tid Val)}
    (h : (s.setBox block sub state).boxes other = some sub') :
    other = block ∧ sub' = { sub with state := state } ∨
      other ≠ block ∧ s.boxes other = some sub' := by
  by_cases hother : other = block
  · simp only [setBox, hother, Function.update_self, Option.some.injEq] at h
    exact .inl ⟨hother, h.symm⟩
  · simp only [setBox, ne_eq, hother, not_false_eq_true, Function.update_of_ne] at h
    exact .inr ⟨hother, h⟩

/-- Only the pop of a thread that drains the block starts a callback of it. -/
theorem started_of_step (h : s.step a = some s') {block : ℕ} {sub' : BusSubscription Tid Val}
    (hsub' : s'.boxes block = some sub') :
    (∃ sub, s.boxes block = some sub ∧ sub'.state.history.started = sub.state.history.started) ∨
      s.bus.accepting = true ∨ ∃ t, (s.threads t).drain = some block := by
  have hmoved {other : ℕ} {sub : BusSubscription Tid Val}
      {state : MailboxState Tid (Publication Tid Val)}
      {act : MailboxAction Tid (Publication Tid Val)} (hact : ∀ t, act ≠ .pop t)
      (hsub : s.boxes other = some sub) (hstate : sub.state.step act = some state)
      (hbox : (s.setBox other sub state).boxes block = some sub') :
      ∃ sub, s.boxes block = some sub ∧
        sub'.state.history.started = sub.state.history.started := by
    rcases setBox_cases hbox with ⟨rfl, rfl⟩ | ⟨-, hold⟩
    · rcases MailboxState.started_of_step hstate with hsame | ⟨t, hpop⟩
      · exact ⟨sub, hsub, hsame⟩
      · exact absurd hpop (hact t)
    · exact ⟨sub', hold, rfl⟩
  cases step_view h with
  | subscribed t topic contract options hasCallback bus block' huser haccepting =>
    exact .inr (.inl haccepting)
  | advertised | snapshot | threw | locked | unlocked | unsubscribed | expired | stopping |
    stopReturned => exact .inl ⟨sub', hsub', rfl⟩
  | enqueued t p other rest result sub state call outcomes hcall hsub hstate =>
    exact .inl (hmoved (by simp) hsub hstate hsub')
  | posted t c other outcome sub state hcall hsub hposting hstate =>
    exact .inl (hmoved (by simp) hsub hstate hsub')
  | postFailed t c other outcome result sub state hcall hsub hposting hfailed hstate =>
    exact .inl (hmoved (by simp) hsub hstate hsub')
  | cleaned t c other outcome sub state hcall hsub hcleaning hstate =>
    exact .inl (hmoved (by simp) hsub hstate hsub')
  | cleanedThrew t c other outcome sub state hcall hsub hcleaning hstate =>
    exact .inl (hmoved (by simp) hsub hstate hsub')
  | owner t a act other sub state call hact hold hnew hstopping hsub hstate =>
    exact .inl (hmoved (by cases hact <;> simp) hsub hstate hsub')
  | startedDrain t other sub state hcall hdrain hsub hstate =>
    exact .inl (hmoved (by simp) hsub hstate hsub')
  | drained t a act other sub state drain hact hcall hdrain hsub hstate =>
    rcases setBox_cases hsub' with ⟨rfl, -⟩ | ⟨-, hold⟩
    · exact .inr (.inr ⟨t, hdrain⟩)
    · exact .inl ⟨sub', hold, rfl⟩

/-- A thread inside the `drain` of a mailbox has it at the bottom of its stack. -/
def DrainsOwn (s : BusState Tid Val) : Prop :=
  ∀ block sub t, s.boxes block = some sub → (sub.state.threads t).drain ≠ .none →
    (s.threads t).drain = some block

theorem DrainsOwn.step (hown : DrainsOwn s) (h : s.step a = some s') : DrainsOwn s' := by
  have hset {s : BusState Tid Val} {t u : Tid} {call : BusCall Tid Val} :
      ((s.setCall u call).threads t).drain = (s.threads t).drain := by
    rw [setCall_threads]
    split
    case isTrue hut => rw [hut]
    case isFalse => rfl
  -- a mailbox step outside `drain`
  have hmoved {other block : ℕ} {sub sub' : BusSubscription Tid Val} {t : Tid}
      {state : MailboxState Tid (Publication Tid Val)}
      {act : MailboxAction Tid (Publication Tid Val)}
      (hact : act ≠ .startDrain t ∧ act ≠ .pop t ∧ (∀ threw, act ≠ .callbackEnd t threw) ∧
        act ≠ .finish t)
      (hsub : s.boxes other = some sub) (hstate : sub.state.step act = some state)
      (hbox : (s.setBox other sub state).boxes block = some sub')
      (hdrain : (sub'.state.threads t).drain ≠ .none) : (s.threads t).drain = some block := by
    rcases setBox_cases hbox with ⟨rfl, rfl⟩ | ⟨-, hold⟩
    · apply hown block sub t hsub
      obtain ⟨hstart, hpop, hend, hfinish⟩ := hact
      rcases MailboxState.drain_of_step hstate t with hsame | hbad | hbad | ⟨threw, hbad⟩ | hbad
      · exact hsame ▸ hdrain
      · exact absurd hbad hstart
      · exact absurd hbad hpop
      · exact absurd hbad (hend threw)
      · exact absurd hbad hfinish
    · exact hown block sub' t hold hdrain
  intro block sub' t hsub' hdrain
  cases step_view h with
  | advertised | threw | unsubscribed | expired => exact hown block sub' t hsub' hdrain
  | subscribed u topic contract options hasCallback bus block' =>
    by_cases hblock : block = s.history.created
    · subst hblock
      simp only [addReturn, Function.update_self, Option.some.injEq] at hsub'
      subst hsub'
      exact absurd rfl hdrain
    · simp only [addReturn, ne_eq, hblock, not_false_eq_true, Function.update_of_ne] at hsub'
      exact hown block sub' t hsub' hdrain
  | snapshot | locked | unlocked | stopping | stopReturned =>
    exact hset.trans (hown block sub' t hsub' hdrain)
  | enqueued u p other rest result sub state call outcomes hcall hsub hstate =>
    exact hset.trans (hmoved (by simp) hsub hstate hsub' hdrain)
  | posted u c other outcome sub state hcall hsub hposting hstate =>
    exact hset.trans (hmoved (by simp) hsub hstate hsub' hdrain)
  | postFailed u c other outcome result sub state hcall hsub hposting hfailed hstate =>
    exact hmoved (by simp) hsub hstate hsub' hdrain
  | cleaned u c other outcome sub state hcall hsub hcleaning hstate =>
    exact hset.trans (hmoved (by simp) hsub hstate hsub' hdrain)
  | cleanedThrew u c other outcome sub state hcall hsub hcleaning hstate =>
    exact hset.trans (hmoved (by simp) hsub hstate hsub' hdrain)
  | owner u a act other sub state call hact hold hnew hstopping hsub hstate =>
    exact hset.trans (hmoved (by cases hact <;> simp) hsub hstate hsub' hdrain)
  | startedDrain u other sub state hcall hbefore hsub hstate =>
    rw [setDrain_threads]
    split
    case isTrue hut =>
      subst hut
      rcases setBox_cases hsub' with ⟨rfl, -⟩ | ⟨-, hold⟩
      · rfl
      · rw [hown block sub' t hold hdrain] at hbefore
        cases hbefore
    case isFalse hut => exact hmoved (by simp [Ne.symm hut]) hsub hstate hsub' hdrain
  | drained u a act other sub state drain hact hcall hbefore hsub hstate hnext =>
    rw [setDrain_threads]
    split
    case isTrue hut =>
      subst hut
      rcases setBox_cases hsub' with ⟨rfl, rfl⟩ | ⟨hne, hold⟩
      · rcases hnext with ⟨hnone, -⟩ | ⟨-, hsome⟩
        · exact absurd hnone hdrain
        · exact hsome
      · have hblock := (hown block sub' t hold hdrain).symm.trans hbefore
        exact absurd (Option.some.inj hblock) hne
    case isFalse hut =>
      exact hmoved (by cases hact <;> simp [Ne.symm hut]) hsub hstate hsub' hdrain

theorem drainsOwn_of_reachable (h : (busSystem Tid Val).Reachable s) : DrainsOwn s := by
  refine TransitionSystem.Reachable.invariant ?_ (fun s a s' _ hs hstep => hs.step hstep) h
  rintro s rfl block sub t ⟨⟩

end BusState
end RobotMiddleware
