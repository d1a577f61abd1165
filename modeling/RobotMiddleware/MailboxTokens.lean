import RobotMiddleware.MailboxSteps

/-! The drain token. `scheduled` says that somebody is responsible for the mailbox:
an enqueuer that has not settled its post, a posted task, or a running `drain`. -/
namespace RobotMiddleware

/-- A place where the responsibility for a mailbox can be. -/
inductive DrainToken (Tid : Type)
  | enqueuer (t : Tid)
  | failedPost (t : Tid)
  | task (i : ℕ)
  | drain (t : Tid)
  deriving DecidableEq

/-- The callback is running, or has ended and `drain` has not recorded it yet. -/
def DrainState.busy {Msg : Type} : DrainState Msg → Bool
  | .callback _ | .finishing _ => true
  | _ => false

def CallState.holdsToken : CallState → Bool
  | .posting _ | .cleaning _ _ => true
  | _ => false

theorem CallState.ne_posting {call : CallState} (h : call.holdsToken = false)
    (outcome : DeliveryOutcome) : call ≠ .posting outcome := by
  rintro rfl
  cases h

theorem CallState.ne_cleaning {call : CallState} (h : call.holdsToken = false)
    (outcome : DeliveryOutcome) (threw : Bool) : call ≠ .cleaning outcome threw := by
  rintro rfl
  cases h

namespace MailboxState
variable {Tid Msg : Type}

/-- An `enqueuer` is between its push section and the result of its post, a
`failedPost` between a failed post and its cleanup section, a `task` is posted and not
started, and a `drain` is in its loop. -/
def Holds (s : MailboxState Tid Msg) : DrainToken Tid → Prop
  | .enqueuer t => ∃ outcome, (s.threads t).call = .posting outcome
  | .failedPost t => ∃ outcome threw, (s.threads t).call = .cleaning outcome threw
  | .task i => i < s.tasks
  | .drain t => (s.threads t).drain ≠ .none

def InCallback (s : MailboxState Tid Msg) (t : Tid) : Prop :=
  ∃ message, (s.threads t).drain = .callback message

/-- `scheduled` is exactly the presence of a token, the only token there is. -/
structure TokenInvariant (s : MailboxState Tid Msg) : Prop where
  holder : ∃ token : Option (DrainToken Tid), s.block.scheduled = token.isSome ∧
    ∀ k, s.Holds k ↔ token = some k
  pending_scheduled : s.block.pending ≠ [] → s.block.scheduled = true
  inFlight_eq : s.block.inFlight = s.block.callbackThread.toList.length
  callbackThread_iff : ∀ t, (s.threads t).drain.busy = true ↔ s.block.callbackThread = some t

variable {s s' : MailboxState Tid Msg}

/-! A token's holder is told from its own thread, or from the number of tasks. -/

theorem holds_notifyAll {threads : Tid → MailboxThread Msg} {k : DrainToken Tid}
    (hthreads : s.threads = notifyAll threads) :
    s.Holds k ↔ ({ s with threads := threads } : MailboxState Tid Msg).Holds k := by
  cases k with
  | enqueuer u => by_cases hw : (threads u).call = .waiting <;> simp [Holds, hthreads, hw]
  | failedPost u => by_cases hw : (threads u).call = .waiting <;> simp [Holds, hthreads, hw]
  | task i => rfl
  | drain u => simp [Holds, hthreads]

theorem holds_setCall [DecidableEq Tid] {t : Tid} {call : CallState} {k : DrainToken Tid}
    (hthreads : s'.threads = setCall s.threads t call) (htasks : s'.tasks = s.tasks)
    (henqueuer : k ≠ .enqueuer t) (hfailed : k ≠ .failedPost t) : s'.Holds k ↔ s.Holds k := by
  cases k with
  | enqueuer u =>
    have hut : u ≠ t := fun e => henqueuer (e ▸ rfl)
    simp [Holds, hthreads, hut]
  | failedPost u =>
    have hut : u ≠ t := fun e => hfailed (e ▸ rfl)
    simp [Holds, hthreads, hut]
  | task i => rw [Holds, Holds, htasks]
  | drain u => simp [Holds, hthreads]

theorem holds_setDrain [DecidableEq Tid] {t : Tid} {drain : DrainState Msg} {k : DrainToken Tid}
    (hthreads : s'.threads = setDrain s.threads t drain) (htasks : s'.tasks = s.tasks)
    (hdrain : k ≠ .drain t) : s'.Holds k ↔ s.Holds k := by
  cases k with
  | enqueuer u => simp [Holds, hthreads]
  | failedPost u => simp [Holds, hthreads]
  | task i => rw [Holds, Holds, htasks]
  | drain u =>
    have hut : u ≠ t := fun e => hdrain (e ▸ rfl)
    simp [Holds, hthreads, hut]

/-- `drain` goes on in its loop. -/
theorem holds_setDrain_of_ne [DecidableEq Tid] {t : Tid} {drain : DrainState Msg}
    {k : DrainToken Tid} (hthreads : s'.threads = setDrain s.threads t drain)
    (htasks : s'.tasks = s.tasks) (hold : (s.threads t).drain ≠ .none) (hnew : drain ≠ .none) :
    s'.Holds k ↔ s.Holds k := by
  by_cases hk : k = .drain t
  · subst hk
    simp [Holds, hthreads, hold, hnew]
  · exact holds_setDrain hthreads htasks hk

namespace TokenInvariant

theorem initial (block : SubscriptionControlBlock Tid Msg) (options : SubscriptionOptions)
    (h : SubscriptionControlBlock.create options true = .ok block) :
    TokenInvariant { block := block } := by
  unfold SubscriptionControlBlock.create at h
  split at h
  case isTrue => cases h
  case isFalse hdepth =>
    cases h
    refine ⟨⟨none, rfl, ?_⟩, fun h => absurd rfl h, rfl, fun t => ?_⟩
    · rintro (t | t | i | t) <;> simp [Holds]
    · simp [DrainState.busy]

/-- The holder of a token is the holder of the token. -/
theorem holds_unique (h : TokenInvariant s) {k k' : DrainToken Tid} (hk : s.Holds k)
    (hk' : s.Holds k') : k = k' := by
  obtain ⟨token, -, htoken⟩ := h.holder
  exact Option.some.inj (((htoken k).mp hk).symm.trans ((htoken k').mp hk'))

theorem scheduled_of_holds (h : TokenInvariant s) {k : DrainToken Tid} (hk : s.Holds k) :
    s.block.scheduled = true := by
  obtain ⟨token, hscheduled, htoken⟩ := h.holder
  rw [hscheduled, (htoken k).mp hk, Option.isSome_some]

theorem not_holds (h : TokenInvariant s) (hs : s.block.scheduled = false) (k : DrainToken Tid) :
    ¬ s.Holds k := fun hk => by
  rw [h.scheduled_of_holds hk] at hs
  cases hs

/-- The token moves from `k` to `k'` when nobody else takes or loses one. -/
theorem moved {k : DrainToken Tid} (h : TokenInvariant s) (hk : s.Holds k) (k' : DrainToken Tid)
    (hother : ∀ j, j ≠ k → j ≠ k' → (s'.Holds j ↔ s.Holds j))
    (hgone : k ≠ k' → ¬ s'.Holds k) (hnew : s'.Holds k')
    (hscheduled : s'.block.scheduled = true) :
    ∃ token : Option (DrainToken Tid), s'.block.scheduled = token.isSome ∧
      ∀ j, s'.Holds j ↔ token = some j := by
  refine ⟨some k', hscheduled, fun j => ?_⟩
  simp only [Option.some.injEq]
  constructor
  · intro hj
    by_contra hne
    by_cases hjk : j = k
    · subst hjk; exact hgone (Ne.symm hne) hj
    · exact hjk (h.holds_unique ((hother j hjk (Ne.symm hne)).mp hj) hk)
  · rintro rfl
    exact hnew

/-- The token `k` is given back. -/
theorem dropped {k : DrainToken Tid} (h : TokenInvariant s) (hk : s.Holds k)
    (hother : ∀ j, j ≠ k → (s'.Holds j ↔ s.Holds j)) (hgone : ¬ s'.Holds k)
    (hscheduled : s'.block.scheduled = false) :
    ∃ token : Option (DrainToken Tid), s'.block.scheduled = token.isSome ∧
      ∀ j, s'.Holds j ↔ token = some j := by
  refine ⟨none, hscheduled, fun j => ?_⟩
  simp only [reduceCtorEq, iff_false]
  intro hj
  by_cases hjk : j = k
  · subst hjk; exact hgone hj
  · exact hjk (h.holds_unique ((hother j hjk).mp hj) hk)

/-- The token `k` appears where there was none. -/
theorem created {k : DrainToken Tid} (h : TokenInvariant s) (hs : s.block.scheduled = false)
    (hother : ∀ j, j ≠ k → (s'.Holds j ↔ s.Holds j)) (hnew : s'.Holds k)
    (hscheduled : s'.block.scheduled = true) :
    ∃ token : Option (DrainToken Tid), s'.block.scheduled = token.isSome ∧
      ∀ j, s'.Holds j ↔ token = some j := by
  refine ⟨some k, hscheduled, fun j => ?_⟩
  simp only [Option.some.injEq]
  constructor
  · intro hj
    by_contra hne
    exact h.not_holds hs j ((hother j (Ne.symm hne)).mp hj)
  · rintro rfl
    exact hnew

/-- Nobody takes or loses a token. -/
theorem kept (h : TokenInvariant s) (hsame : ∀ j, s'.Holds j ↔ s.Holds j)
    (hscheduled : s'.block.scheduled = s.block.scheduled) :
    ∃ token : Option (DrainToken Tid), s'.block.scheduled = token.isSome ∧
      ∀ j, s'.Holds j ↔ token = some j := by
  obtain ⟨token, htoken, hholds⟩ := h.holder
  exact ⟨token, hscheduled.trans htoken, fun j => (hsame j).trans (hholds j)⟩

/-- While the token is elsewhere no drain task is posted. -/
theorem tasks_eq_zero (h : TokenInvariant s) {k : DrainToken Tid} (hk : s.Holds k)
    (hne : k ≠ .task 0) : s.tasks = 0 := by
  by_contra hpos
  exact hne (h.holds_unique hk (Nat.pos_of_ne_zero hpos))

/-- Only the thread inside `drain` can be the callback thread. -/
theorem callbackThread_eq_none {t : Tid} (h : TokenInvariant s) (hk : s.Holds (.drain t))
    (hidle : ¬ (s.threads t).drain.busy = true) : s.block.callbackThread = none := by
  rw [Option.eq_none_iff_forall_ne_some]
  intro u hu
  have hbusy := (h.callbackThread_iff u).mpr hu
  have hu' : s.Holds (.drain u) := fun e => by simp [e, DrainState.busy] at hbusy
  have hut : t = u := DrainToken.drain.inj (h.holds_unique hk hu')
  exact hidle (hut ▸ hbusy)

/-- `notify_all` moves sleepers only, and `cancel` leaves `scheduled` to the token holder. -/
theorem cancel (h : TokenInvariant s) (history : MailboxHistory Tid Msg) :
    TokenInvariant { s with
      block := s.block.cancel, threads := notifyAll s.threads, history := history } := by
  refine ⟨h.kept (fun _ => holds_notifyAll rfl) rfl, fun hne => absurd rfl hne, h.inFlight_eq, ?_⟩
  intro u
  simpa only [notifyAll_drain, SubscriptionControlBlock.cancel_callbackThread]
    using h.callbackThread_iff u

variable [DecidableEq Tid]

/-- The push section takes the token exactly when there was none. -/
theorem enqueue {t : Tid} {message : Msg} {isRemote : Bool}
    {r : SubscriptionControlBlock.PushResult Tid Msg} {history : MailboxHistory Tid Msg}
    (h : TokenInvariant s) (hcall : (s.threads t).canCall = true)
    (hr : s.block.PushView message isRemote r) :
    TokenInvariant { s with
      block := r.block
      threads := if r.mustSchedule then setCall s.threads t (.posting r.outcome) else s.threads
      history := history } := by
  have haccept (c : SubscriptionControlBlock Tid Msg) (outcome : DeliveryOutcome)
      (hscheduled : c.scheduled = s.block.scheduled) (hflight : c.inFlight = s.block.inFlight)
      (hthread : c.callbackThread = s.block.callbackThread) :
      TokenInvariant { s with
        block := (c.accept outcome message).block
        threads := if (c.accept outcome message).mustSchedule then
          setCall s.threads t (.posting (c.accept outcome message).outcome) else s.threads
        history := history } := by
    have hnone := ((s.threads t).canCall_iff.mp hcall).1
    cases hs : s.block.scheduled with
    | true =>
      simp only [SubscriptionControlBlock.accept, hscheduled, hs, Bool.not_true,
        Bool.false_eq_true, ↓reduceIte]
      refine ⟨h.kept (fun j => by cases j <;> rfl) hs.symm, fun _ => rfl, ?_, ?_⟩
      · simpa only [hflight, hthread] using h.inFlight_eq
      · simpa only [hthread] using h.callbackThread_iff
    | false =>
      simp only [SubscriptionControlBlock.accept, hscheduled, hs, Bool.not_false, ↓reduceIte]
      refine ⟨h.created (k := .enqueuer t) hs ?_ ?_ rfl, fun _ => rfl, ?_, fun u => ?_⟩
      · intro j hne
        by_cases hj : j = .failedPost t
        · subst hj
          simp [Holds, hnone]
        · exact holds_setCall rfl rfl hne hj
      · simp [Holds]
      · simpa only [hflight, hthread] using h.inFlight_eq
      · simpa only [setCall_drain, hthread] using h.callbackThread_iff u
  cases hr with
  | skipped => exact ⟨h.kept (fun j => by cases j <;> rfl) rfl, h.pending_scheduled,
      h.inFlight_eq, h.callbackThread_iff⟩
  | rejected => exact ⟨h.kept (fun j => by cases j <;> rfl) rfl, h.pending_scheduled,
      h.inFlight_eq, h.callbackThread_iff⟩
  | displaced oldest rest => exact haccept _ _ rfl rfl rfl
  | appended => exact haccept _ _ rfl rfl rfl

/-- Calls that neither carry nor take a token leave the invariant alone. -/
theorem setCall {t : Tid} {call : CallState} {history : MailboxHistory Tid Msg}
    (h : TokenInvariant s)
    (hold : (s.threads t).call.holdsToken = false) (hnew : call.holdsToken = false) :
    TokenInvariant { s with threads := setCall s.threads t call, history := history } := by
  refine ⟨h.kept (fun j => ?_) rfl, h.pending_scheduled, h.inFlight_eq, fun u => ?_⟩
  · by_cases henqueuer : j = .enqueuer t
    · subst henqueuer
      simp [Holds, CallState.ne_posting hold, CallState.ne_posting hnew]
    · by_cases hfailed : j = .failedPost t
      · subst hfailed
        simp [Holds, CallState.ne_cleaning hold, CallState.ne_cleaning hnew]
      · exact holds_setCall rfl rfl henqueuer hfailed
  · simpa only [setCall_drain] using h.callbackThread_iff u

/-- `drain` moves between two places outside the callback, or within it. -/
theorem callbackThread_setDrain (h : TokenInvariant s) {t : Tid} {drain : DrainState Msg}
    (hbusy : drain.busy = (s.threads t).drain.busy) (u : Tid) :
    (MailboxState.setDrain s.threads t drain u).drain.busy = true ↔
      s.block.callbackThread = some u := by
  rw [setDrain_drain]
  split
  case isTrue hut =>
    subst hut
    rw [hbusy]
    exact h.callbackThread_iff u
  case isFalse => exact h.callbackThread_iff u

theorem step {a : MailboxAction Tid Msg} (h : TokenInvariant s) (hs : s.step a = some s') :
    TokenInvariant s' := by
  cases step_view hs with
  | enqueue t message isRemote r hcall hr => exact h.enqueue hcall hr
  | posted t outcome hcall =>
    -- the token goes from the enqueuer to the one posted task
    have hk : s.Holds (.enqueuer t) := ⟨outcome, hcall⟩
    have htasks := h.tasks_eq_zero hk (by simp)
    refine ⟨h.moved hk (.task 0) ?_ ?_ ?_ (h.scheduled_of_holds hk),
      h.pending_scheduled, h.inFlight_eq, fun u => ?_⟩
    · rintro (u | u | i | u) hne hne'
      · have hut : u ≠ t := fun e => hne (e ▸ rfl)
        simp [Holds, hut]
      · by_cases hut : u = t
        · subst hut; simp [Holds, hcall]
        · simp [Holds, hut]
      · have hi : i ≠ 0 := fun e => hne' (e ▸ rfl)
        simp [Holds, htasks, hi]
      · simp [Holds]
    · simp [Holds]
    · simp [Holds]
    · simpa only [setCall_drain] using h.callbackThread_iff u
  | postFailed t outcome result threw hcall hresult =>
    have hk : s.Holds (.enqueuer t) := ⟨outcome, hcall⟩
    refine ⟨h.moved hk (.failedPost t) ?_ ?_ ?_ (h.scheduled_of_holds hk),
      h.pending_scheduled, h.inFlight_eq, fun u => ?_⟩
    · intro j hne hne'
      exact holds_setCall rfl rfl hne hne'
    · simp [Holds]
    · simp [Holds]
    · simpa only [setCall_drain] using h.callbackThread_iff u
  | cleanup t outcome threw hcall =>
    have hk : s.Holds (.failedPost t) := ⟨outcome, threw, hcall⟩
    refine ⟨h.dropped hk ?_ ?_ rfl, fun hne => absurd rfl hne, h.inFlight_eq, fun u => ?_⟩
    · intro j hne
      by_cases hj : j = .enqueuer t
      · subst hj
        simp [Holds, hcall]
      · exact (holds_notifyAll rfl).trans (holds_setCall rfl rfl hj hne)
    · simp [Holds]
    · simpa only [notifyAll_drain, setCall_drain,
        SubscriptionControlBlock.enqueueCleanup_callbackThread] using h.callbackThread_iff u
  | cancel t hcall => exact h.cancel _
  | cancelAndWait t hcall =>
    have hnone := ((s.threads t).canCall_iff.mp hcall).1
    exact (h.cancel s.history).setCall (t := t) (by simp [hnone, CallState.holdsToken]) rfl
  | waitThrew t hcall hself => exact h.setCall (by simp [hcall, CallState.holdsToken]) rfl
  | waited t a hcall hidle =>
    refine h.setCall ?_ rfl
    rcases hcall with ⟨hcall, -⟩ | ⟨hcall, -⟩ <;> simp [hcall, CallState.holdsToken]
  | slept t a hcall hbusy =>
    refine h.setCall ?_ rfl
    rcases hcall with ⟨hcall, -⟩ | ⟨hcall, -⟩ <;> simp [hcall, CallState.holdsToken]
  | woke t hcall => exact h.setCall (by simp [hcall, CallState.holdsToken]) rfl
  | startDrain t tasks htasks hcall hdrain =>
    have hk : s.Holds (.task 0) := by simp [Holds, htasks]
    have hlast : tasks = 0 := by
      by_contra hpos
      have hsecond : s.Holds (.task 1) := by simp only [Holds]; omega
      exact absurd (h.holds_unique hk hsecond) (by simp)
    subst hlast
    refine ⟨h.moved hk (.drain t) ?_ ?_ ?_ (h.scheduled_of_holds hk),
      h.pending_scheduled, h.inFlight_eq, fun u => ?_⟩
    · rintro (u | u | i | u) hne hne'
      · simp [Holds]
      · simp [Holds]
      · have hi : i ≠ 0 := fun e => hne (e ▸ rfl)
        simp [Holds, htasks, hi]
      · have hut : u ≠ t := fun e => hne' (e ▸ rfl)
        simp [Holds, hut]
    · simp [Holds]
    · simp [Holds]
    · exact h.callbackThread_setDrain (by rw [hdrain]; rfl) u
  | popped t message rest hdrain hactive hpending =>
    have hk : s.Holds (.drain t) := by simp [Holds, hdrain]
    have hscheduled := h.scheduled_of_holds hk
    have hidle := h.callbackThread_eq_none hk (by simp [hdrain, DrainState.busy])
    refine ⟨h.kept (fun j => ?_) rfl, fun _ => hscheduled, ?_, fun u => ?_⟩
    · exact holds_setDrain_of_ne rfl rfl (by simp [hdrain]) (by simp)
    · simp [h.inFlight_eq, hidle]
    · by_cases hut : u = t
      · subst hut; simp [DrainState.busy]
      · have hbusy := h.callbackThread_iff u
        rw [hidle] at hbusy
        simpa [hut, Ne.symm hut] using hbusy
  | drained t hdrain hempty =>
    have hk : s.Holds (.drain t) := by simp [Holds, hdrain]
    refine ⟨h.dropped hk ?_ ?_ rfl, fun hne => absurd rfl hne, h.inFlight_eq, fun u => ?_⟩
    · intro j hne
      exact (holds_notifyAll rfl).trans (holds_setDrain rfl rfl hne)
    · simp [Holds]
    · rw [notifyAll_drain]
      exact h.callbackThread_setDrain (by rw [hdrain]; rfl) u
  | callbackEnd t message threw hcall hdrain =>
    refine ⟨h.kept (fun j => ?_) rfl, h.pending_scheduled, h.inFlight_eq, fun u => ?_⟩
    · exact holds_setDrain_of_ne rfl rfl (by simp [hdrain]) (by simp)
    · exact h.callbackThread_setDrain (by rw [hdrain]; rfl) u
  | finish t failed hdrain =>
    have hthread := (h.callbackThread_iff t).mp (by simp [hdrain, DrainState.busy])
    refine ⟨h.kept (fun j => ?_) rfl, h.pending_scheduled, ?_, fun u => ?_⟩
    · exact (holds_notifyAll rfl).trans
        (holds_setDrain_of_ne rfl rfl (by simp [hdrain]) (by simp))
    · simp [h.inFlight_eq, hthread]
    · by_cases hut : u = t
      · subst hut; simp [DrainState.busy]
      · have hbusy := h.callbackThread_iff u
        rw [hthread] at hbusy
        simpa [hut, Ne.symm hut] using hbusy

end TokenInvariant

theorem tokenInvariant_of_reachable [DecidableEq Tid] {options : SubscriptionOptions}
    (h : (mailboxSystem Tid Msg options).Reachable s) : TokenInvariant s := by
  refine TransitionSystem.Reachable.invariant ?_ (fun s a s' _ hs hstep => hs.step hstep) h
  rintro s ⟨block, hblock, rfl⟩
  exact .initial block options hblock

/-- One drain at a time and no stranded message. The holder of the token is the only
one that will drain the mailbox, or discard it after a failed post, and there is one
exactly while `scheduled` is set. -/
theorem single_drain_token [DecidableEq Tid] {options : SubscriptionOptions}
    (h : (mailboxSystem Tid Msg options).Reachable s) :
    (s.block.scheduled = true ↔ ∃ k, s.Holds k) ∧
    (∀ k k', s.Holds k → s.Holds k' → k = k') ∧
    s.block.inFlight ≤ 1 ∧ (∀ t u, s.InCallback t → s.InCallback u → t = u) ∧
    (s.block.pending ≠ [] → s.block.scheduled = true ∧ ∃ k, s.Holds k) := by
  have hinv := tokenInvariant_of_reachable h
  have hiff : s.block.scheduled = true ↔ ∃ k, s.Holds k := by
    obtain ⟨token, hscheduled, htoken⟩ := hinv.holder
    rw [hscheduled, Option.isSome_iff_exists]
    exact exists_congr fun k => (htoken k).symm
  refine ⟨hiff, fun k k' => hinv.holds_unique, ?_, ?_, fun hne => ?_⟩
  · rw [hinv.inFlight_eq]
    cases s.block.callbackThread <;> simp
  · rintro t u ⟨m, ht⟩ ⟨m', hu⟩
    have hkt : s.Holds (.drain t) := by simp [Holds, ht]
    have hku : s.Holds (.drain u) := by simp [Holds, hu]
    exact DrainToken.drain.inj (hinv.holds_unique hkt hku)
  · have hscheduled := hinv.pending_scheduled hne
    exact ⟨hscheduled, hiff.mp hscheduled⟩

/-- A message in the callback of thread 1 while thread 0 has the next one accepted. -/
theorem single_drain_token_busy : ∃ s : MailboxState (Fin 2) ℕ,
    s.block.pending = [8] ∧ s.InCallback 1 ∧ s.block.inFlight ≤ 1 ∧
    ∀ k k', s.Holds k → s.Holds k' → k = k' := by
  obtain ⟨s, hs, hp⟩ := (mailboxSystem (Fin 2) ℕ {}).exists_reachable_of_run
    { block := { options := {}, queueDepth_pos := by decide } }
    [.enqueue 0 7 false, .post 0 .accepted, .startDrain 1, .pop 1, .enqueue 0 8 false]
    (fun s => s.block.pending == [8] && (s.threads 1).drain == .callback 7)
    ⟨_, rfl, rfl⟩ (by decide)
  simp only [Bool.and_eq_true, beq_iff_eq] at hp
  have h := single_drain_token hs
  exact ⟨s, hp.1, ⟨7, hp.2⟩, h.2.2.1, h.2.1⟩

/-- `scheduled` outlives the result of a failed post: until the cleanup section runs no
enqueuer is waiting for a post, no task is posted and no `drain` is running. -/
theorem failed_post_keeps_scheduled :
    ¬ ∀ s : MailboxState (Fin 1) ℕ, (mailboxSystem (Fin 1) ℕ {}).Reachable s →
      (s.block.scheduled = true ↔ ∃ k, s.Holds k ∧ ∀ t, k ≠ .failedPost t) := by
  intro hall
  obtain ⟨s, hs, hp⟩ := (mailboxSystem (Fin 1) ℕ {}).exists_reachable_of_run
    { block := { options := {}, queueDepth_pos := by decide } }
    [.enqueue 0 7 false, .post 0 .refused]
    (fun s => s.block.scheduled && (s.threads 0).call == .cleaning { enqueued := true } false)
    ⟨_, rfl, rfl⟩ (by decide)
  simp only [Bool.and_eq_true, beq_iff_eq] at hp
  obtain ⟨k, hk, hlisted⟩ := (hall s hs).mp hp.1
  have hfailed : s.Holds (.failedPost 0) := ⟨_, _, hp.2⟩
  exact hlisted 0 ((tokenInvariant_of_reachable hs).holds_unique hk hfailed)

end MailboxState
end RobotMiddleware
