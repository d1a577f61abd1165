import RobotMiddleware.MailboxSteps

/-! What a mailbox keeps of the order of its pushes, and when it rejects or drops. -/
namespace RobotMiddleware
namespace MailboxState
variable {Tid Msg : Type} {options : SubscriptionOptions} {s s' : MailboxState Tid Msg}

/-- `gone` are the accepted messages that have left `pending`: started, dropped or
discarded. -/
structure OrderInvariant (options : SubscriptionOptions) (s : MailboxState Tid Msg) : Prop where
  options_eq : s.block.options = options
  pending_le : s.block.pending.length ≤ options.queueDepth
  split : ∃ gone, s.history.accepted = gone ++ s.block.pending ∧ s.history.started.Sublist gone
  active_eq : s.block.active = !s.history.cancelled
  cleaning_failed : ∀ t outcome threw, (s.threads t).call = .cleaning outcome threw →
    s.history.postFailed = true
  exact : options.overflowPolicy = .rejectNewest → s.history.cancelled = false →
    s.history.postFailed = false → s.history.accepted = s.history.started ++ s.block.pending

namespace OrderInvariant

theorem initial {block : SubscriptionControlBlock Tid Msg}
    (h : SubscriptionControlBlock.create options true = .ok block) :
    OrderInvariant options { block := block } := by
  unfold SubscriptionControlBlock.create at h
  split at h
  case isTrue => cases h
  case isFalse hdepth =>
    cases h
    exact ⟨rfl, Nat.zero_le _, ⟨[], rfl, .slnil⟩, rfl, by simp, by simp⟩

/-- Emptying the mailbox turns every pending message into a gone one. -/
theorem emptied (h : OrderInvariant options s) :
    ∃ gone, s.history.accepted = gone ++ [] ∧ s.history.started.Sublist gone := by
  obtain ⟨gone, haccepted, hstarted⟩ := h.split
  exact ⟨s.history.accepted, (List.append_nil _).symm,
    haccepted ▸ hstarted.trans (List.sublist_append_left gone _)⟩

theorem started_sublist (h : OrderInvariant options s) :
    s.history.started.Sublist s.history.accepted := by
  obtain ⟨gone, haccepted, hstarted⟩ := h.split
  rw [haccepted]
  exact hstarted.trans (List.sublist_append_left gone _)

/-- Steps that touch neither the mailbox nor its record. -/
theorem threads (h : OrderInvariant options s) {threads : Tid → MailboxThread Msg} {tasks : ℕ}
    {returns : List (Tid × CallReturn)}
    (hthreads : ∀ t outcome threw, (threads t).call = .cleaning outcome threw →
      (s.threads t).call = .cleaning outcome threw) :
    OrderInvariant options { s with
      tasks := tasks, threads := threads, history := { s.history with returns := returns } } := by
  refine ⟨h.options_eq, h.pending_le, h.split, h.active_eq, ?_, h.exact⟩
  intro t outcome threw ht
  exact h.cleaning_failed t outcome threw (hthreads t outcome threw ht)

theorem enqueue {message : Msg} {isRemote : Bool}
    {r : SubscriptionControlBlock.PushResult Tid Msg} {threads : Tid → MailboxThread Msg}
    {returns : List (Tid × CallReturn)} (h : OrderInvariant options s)
    (hr : s.block.PushView message isRemote r)
    (hthreads : ∀ t outcome threw, (threads t).call = .cleaning outcome threw →
      (s.threads t).call = .cleaning outcome threw) :
    OrderInvariant options { s with
      block := r.block
      threads := threads
      history := { s.history with
        accepted := if r.outcome.enqueued then s.history.accepted ++ [message]
          else s.history.accepted
        returns := returns } } := by
  have hclean (t outcome threw) (ht : (threads t).call = .cleaning outcome threw) :=
    h.cleaning_failed t outcome threw (hthreads t outcome threw ht)
  obtain ⟨gone, haccepted, hstarted⟩ := h.split
  cases hr with
  | skipped => exact ⟨h.options_eq, h.pending_le, h.split, h.active_eq, hclean, h.exact⟩
  | rejected => exact ⟨h.options_eq, h.pending_le, h.split, h.active_eq, hclean, h.exact⟩
  | displaced oldest rest hactive hpolicy hpending hfull =>
    -- the oldest message is gone, and one place is free for the new one
    have hlength : (rest ++ [message]).length ≤ options.queueDepth := by
      have hle := h.pending_le
      simp only [hpending, List.length_cons, List.length_append, List.length_nil] at hle ⊢
      omega
    refine ⟨h.options_eq, hlength, ⟨gone ++ [oldest], ?_, ?_⟩, h.active_eq, hclean, ?_⟩
    · simp [SubscriptionControlBlock.accept, haccepted, hpending]
    · exact hstarted.trans (List.sublist_append_left _ _)
    · intro hreject
      rw [← h.options_eq, hpolicy] at hreject
      cases hreject
  | appended hactive hroom =>
    refine ⟨h.options_eq, ?_, ⟨gone, ?_, hstarted⟩, h.active_eq, hclean, ?_⟩
    · rw [h.options_eq] at hroom
      simpa [SubscriptionControlBlock.accept] using hroom
    · simp [SubscriptionControlBlock.accept, haccepted]
    · intro hreject hcancelled hfailed
      have hexact := h.exact hreject hcancelled hfailed
      simp [SubscriptionControlBlock.accept, hexact]

variable [DecidableEq Tid]

theorem step {a : MailboxAction Tid Msg} (h : OrderInvariant options s)
    (hs : s.step a = some s') : OrderInvariant options s' := by
  have hset {threads : Tid → MailboxThread Msg} {t u : Tid} {call : CallState} {outcome threw}
      (hcall : ∀ outcome threw, call ≠ .cleaning outcome threw)
      (hu : (setCall threads t call u).call = .cleaning outcome threw) :
      (threads u).call = .cleaning outcome threw := by
    rw [setCall_call] at hu
    split at hu
    case isTrue => exact absurd hu (hcall outcome threw)
    case isFalse => exact hu
  have hnotify {threads : Tid → MailboxThread Msg} {u : Tid} {outcome threw}
      (hu : (notifyAll threads u).call = .cleaning outcome threw) :
      (threads u).call = .cleaning outcome threw := by
    rw [notifyAll_call] at hu
    split at hu
    case isTrue => cases hu
    case isFalse => exact hu
  cases step_view hs with
  | enqueue t message isRemote r hcall hr =>
    refine h.enqueue hr (fun u outcome threw hu => ?_)
    split at hu
    case isTrue => exact hset (by simp) hu
    case isFalse => exact hu
  | posted t outcome hcall => exact h.threads fun _ _ _ hu => hset (by simp) hu
  | postFailed t outcome result threw hcall hresult =>
    exact ⟨h.options_eq, h.pending_le, h.split, h.active_eq, fun _ _ _ _ => rfl, by simp⟩
  | cleanup t outcome threw hcall =>
    -- a post has failed, so the exact law does not apply any more
    have hfailed := h.cleaning_failed t outcome threw hcall
    refine ⟨h.options_eq, Nat.zero_le _, h.emptied, h.active_eq, fun _ _ _ _ => hfailed, ?_⟩
    intro _ _ hclean
    rw [hfailed] at hclean
    cases hclean
  | cancel t hcall =>
    exact ⟨h.options_eq, Nat.zero_le _, h.emptied, rfl,
      fun u _ _ hu => h.cleaning_failed u _ _ (hnotify hu), by simp⟩
  | cancelAndWait t hcall =>
    exact ⟨h.options_eq, Nat.zero_le _, h.emptied, rfl,
      fun u _ _ hu => h.cleaning_failed u _ _ (hnotify (hset (by simp) hu)), by simp⟩
  | waitThrew t hcall hself => exact h.threads fun _ _ _ hu => hset (by simp) hu
  | waited t a hcall hidle => exact h.threads fun _ _ _ hu => hset (by simp) hu
  | slept t a hcall hbusy => exact h.threads fun _ _ _ hu => hset (by simp) hu
  | woke t hcall => exact h.threads fun _ _ _ hu => hset (by simp) hu
  | startDrain t tasks htasks hcall hdrain => exact h.threads fun _ _ _ hu => by simpa using hu
  | popped t message rest hdrain hactive hpending =>
    obtain ⟨gone, haccepted, hstarted⟩ := h.split
    refine ⟨h.options_eq, ?_, ⟨gone ++ [message], ?_, hstarted.append (.refl _)⟩, h.active_eq,
      fun u _ _ hu => h.cleaning_failed u _ _ (by simpa using hu), ?_⟩
    · have hle := h.pending_le
      rw [hpending, List.length_cons] at hle
      exact Nat.le_of_succ_le hle
    · simp [haccepted, hpending]
    · intro hreject hcancelled hfailed
      have hexact := h.exact hreject hcancelled hfailed
      simp [hexact, hpending]
  | drained t hdrain hempty =>
    refine ⟨h.options_eq, Nat.zero_le _, h.emptied, h.active_eq,
      fun u _ _ hu => h.cleaning_failed u _ _ (by simpa using hnotify hu), ?_⟩
    intro hreject hcancelled hfailed
    have hexact := h.exact hreject hcancelled hfailed
    -- without a cancellation `drain` stops on an empty mailbox only
    rcases hempty with hinactive | hpending
    · rw [h.active_eq, hcancelled] at hinactive
      cases hinactive
    · simpa only [hpending] using hexact
  | callbackEnd t message threw hcall hdrain =>
    exact h.threads fun _ _ _ hu => by simpa using hu
  | finish t failed hdrain =>
    exact ⟨h.options_eq, h.pending_le, h.split, h.active_eq,
      fun u _ _ hu => h.cleaning_failed u _ _ (by simpa using hnotify hu), h.exact⟩

end OrderInvariant

structure OrderAndOverflow [DecidableEq Tid] (options : SubscriptionOptions)
    (s : MailboxState Tid Msg) : Prop where
  /-- The started messages are a subsequence of the accepted ones, each started once. -/
  started_once : ∃ f : Fin s.history.started.length ↪o Fin s.history.accepted.length,
    ∀ i, s.history.started.get i = s.history.accepted.get (f i)
  started_before_pending :
    (s.history.started ++ s.block.pending).Sublist s.history.accepted
  pending_le : s.block.pending.length ≤ options.queueDepth
  pending_suffix : s.block.pending <:+ s.history.accepted
  reject_exact : options.overflowPolicy = .rejectNewest → s.history.cancelled = false →
    s.history.postFailed = false → s.history.started ++ s.block.pending = s.history.accepted
  rejected_full : ∀ a s', s.step a = some s' →
    s'.block.rejectedNewest ≠ s.block.rejectedNewest →
    options.overflowPolicy = .rejectNewest ∧ s.block.pending.length = options.queueDepth
  drop_accepts : options.overflowPolicy = .dropOldest → s.block.active = true →
    ∀ t message isRemote s', (isRemote = true → options.receiveRemote = true) →
    s.step (.enqueue t message isRemote) = some s' →
    s'.history.accepted = s.history.accepted ++ [message]
  accepted_last : ∀ a s', s.step a = some s' → s'.history.accepted ≠ s.history.accepted →
    ∃ message, s'.history.accepted = s.history.accepted ++ [message] ∧
      s'.block.pending.getLast? = some message
  /-- The dropped message was the oldest pending one, and `queueDepth` newer messages
  have been accepted after it, the arriving one included. -/
  dropped_after : ∀ a s', s.step a = some s' →
    s'.block.droppedOldest ≠ s.block.droppedOldest →
    ∃ older oldest newer, s.block.pending.head? = some oldest ∧
      s'.history.accepted = older ++ oldest :: newer ∧ newer.length = options.queueDepth ∧
      s'.block.pending = newer

variable [DecidableEq Tid]

theorem orderInvariant_of_reachable (h : (mailboxSystem Tid Msg options).Reachable s) :
    OrderInvariant options s := by
  refine TransitionSystem.Reachable.invariant ?_ (fun s a s' _ hs hstep => hs.step hstep) h
  rintro s ⟨block, hblock, rfl⟩
  exact .initial hblock

/-- Only a push section can reject or drop for overflow, or accept. -/
theorem push_of_step {a : MailboxAction Tid Msg} (hs : s.step a = some s')
    (hchange : s'.block.rejectedNewest ≠ s.block.rejectedNewest ∨
      s'.block.droppedOldest ≠ s.block.droppedOldest ∨
      s'.history.accepted ≠ s.history.accepted) :
    ∃ t message isRemote, a = .enqueue t message isRemote := by
  cases step_view hs with
  | enqueue t message isRemote r hcall hr => exact ⟨t, message, isRemote, rfl⟩
  | waited t a hcall hidle => simp at hchange
  | slept t a hcall hbusy => simp at hchange
  | cleanup => simp [SubscriptionControlBlock.enqueueCleanup] at hchange
  | cancel => simp [SubscriptionControlBlock.cancel] at hchange
  | cancelAndWait => simp [SubscriptionControlBlock.cancel] at hchange
  | finish => simp [SubscriptionControlBlock.drainFinish] at hchange
  | _ => simp at hchange

theorem accepted_of_step {a : MailboxAction Tid Msg} (hs : s.step a = some s')
    (ha : ∀ t message isRemote, a ≠ .enqueue t message isRemote) :
    s'.history.accepted = s.history.accepted := by
  by_contra hne
  obtain ⟨t, message, isRemote, henqueue⟩ := push_of_step hs (.inr (.inr hne))
  exact ha t message isRemote henqueue

/-- What one push adds to the mailbox and to the record of accepted messages. -/
theorem enqueue_spec {t : Tid} {message : Msg} {isRemote : Bool}
    (hs : s.step (.enqueue t message isRemote) = some s') :
    ∃ r, s.block.PushView message isRemote r ∧ s'.block = r.block ∧
      s'.history.accepted = if r.outcome.enqueued then s.history.accepted ++ [message]
        else s.history.accepted := by
  cases step_view hs with
  | enqueue t message isRemote r hcall hr => exact ⟨r, hr, rfl, rfl⟩
  | waited u a hcall hidle => rcases hcall with ⟨-, ha⟩ | ⟨-, ha⟩ <;> cases ha
  | slept u a hcall hbusy => rcases hcall with ⟨-, ha, -⟩ | ⟨-, ha⟩ <;> cases ha

/-- Mailbox order and overflow policy, for every interleaving. -/
theorem mailbox_order_and_overflow (h : (mailboxSystem Tid Msg options).Reachable s) :
    OrderAndOverflow options s := by
  have hinv := orderInvariant_of_reachable h
  obtain ⟨gone, haccepted, hstarted⟩ := hinv.split
  have hsublist : (s.history.started ++ s.block.pending).Sublist s.history.accepted :=
    haccepted ▸ hstarted.append (.refl _)
  refine ⟨?_, hsublist, hinv.pending_le, ⟨gone, haccepted.symm⟩,
    fun hp hc hf => (hinv.exact hp hc hf).symm, ?_, ?_, ?_, ?_⟩
  · exact List.sublist_iff_exists_fin_orderEmbedding_get_eq.mp
      ((List.sublist_append_left _ _).trans hsublist)
  · intro a s' hs hne
    obtain ⟨t, message, isRemote, rfl⟩ := push_of_step hs (.inl hne)
    obtain ⟨r, hr, hblock, -⟩ := enqueue_spec hs
    rw [hblock] at hne
    cases hr with
    | skipped => exact absurd rfl hne
    | rejected hactive hpolicy hfull =>
      rw [hinv.options_eq] at hpolicy hfull
      exact ⟨hpolicy, le_antisymm hinv.pending_le hfull⟩
    | displaced => exact absurd rfl hne
    | appended => exact absurd rfl hne
  · -- with `dropOldest` the push is neither skipped nor rejected
    intro hpolicy hactive t message isRemote s' hremote hs
    obtain ⟨r, hr, -, hhistory⟩ := enqueue_spec hs
    rw [hhistory]
    cases hr with
    | skipped hskip =>
      rcases hskip with hinactive | ⟨hisRemote, hlocal⟩
      · rw [hactive] at hinactive
        cases hinactive
      · rw [hinv.options_eq, hremote hisRemote] at hlocal
        cases hlocal
    | rejected _ hreject =>
      rw [hinv.options_eq, hpolicy] at hreject
      cases hreject
    | displaced => rfl
    | appended => rfl
  · intro a s' hs hne
    obtain ⟨t, message, isRemote, rfl⟩ := push_of_step hs (.inr (.inr hne))
    obtain ⟨r, hr, hblock, hhistory⟩ := enqueue_spec hs
    rw [hhistory] at hne
    rw [hhistory, hblock]
    refine ⟨message, ?_⟩
    cases hr with
    | skipped => exact absurd rfl hne
    | rejected => exact absurd rfl hne
    | displaced => exact ⟨rfl, by simp [SubscriptionControlBlock.accept]⟩
    | appended => exact ⟨rfl, by simp [SubscriptionControlBlock.accept]⟩
  · intro a s' hs hne
    obtain ⟨t, message, isRemote, rfl⟩ := push_of_step hs (.inr (.inl hne))
    obtain ⟨r, hr, hblock, hhistory⟩ := enqueue_spec hs
    rw [hblock] at hne
    rw [hblock, hhistory]
    cases hr with
    | skipped => exact absurd rfl hne
    | rejected => exact absurd rfl hne
    | appended => exact absurd rfl hne
    | displaced oldest rest hactive hpolicy hpending hfull =>
      refine ⟨gone, oldest, rest ++ [message], by rw [hpending, List.head?_cons], ?_, ?_, rfl⟩
      · simp [SubscriptionControlBlock.accept, haccepted, hpending]
      · have hle := hinv.pending_le
        rw [hinv.options_eq] at hfull
        rw [hpending, List.length_cons] at hle hfull
        rw [List.length_append, List.length_singleton]
        omega

/-- A mailbox of depth 1 drops the message that waits behind a running callback. -/
theorem mailbox_order_and_overflow_displaced : ∃ s : MailboxState (Fin 2) ℕ,
    s.history.started = [7] ∧ s.block.pending = [9] ∧ s.history.accepted = [7, 8, 9] ∧
    OrderAndOverflow { queueDepth := 1 } s := by
  obtain ⟨s, hs, hp⟩ := (mailboxSystem (Fin 2) ℕ { queueDepth := 1 }).exists_reachable_of_run
    { block := { options := { queueDepth := 1 }, queueDepth_pos := by decide } }
    [.enqueue 0 7 false, .post 0 .accepted, .startDrain 1, .pop 1, .enqueue 0 8 false,
      .enqueue 0 9 false]
    (fun s => s.history.started == [7] && s.block.pending == [9] &&
      s.history.accepted == [7, 8, 9])
    ⟨_, rfl, rfl⟩ (by decide)
  simp only [Bool.and_eq_true, beq_iff_eq] at hp
  exact ⟨s, hp.1.1, hp.1.2, hp.2, mailbox_order_and_overflow hs⟩

end MailboxState
end RobotMiddleware
