import RobotMiddleware.MailboxTokens
import RobotMiddleware.MailboxOrder

/-! Where the messages of one subscription went, as its statistics count them. -/
namespace RobotMiddleware
namespace MailboxState
variable {Tid Msg : Type} {options : SubscriptionOptions} {s s' : MailboxState Tid Msg}

/-- Every accepted message is at one place. A cancelled mailbox stays empty, and only
a cancellation discards without counting. -/
structure StatsInvariant (s : MailboxState Tid Msg) : Prop where
  balance : s.block.enqueued = s.block.delivered + s.block.inFlight + s.block.pending.length +
    s.block.droppedOldest + s.block.executorRejected + s.history.cancelDiscarded
  empty : s.block.active = false → s.block.pending = []
  discarded : s.block.active = true → s.history.cancelDiscarded = 0
  errors : s.block.callbackErrors ≤ s.block.delivered
  dropped : s.block.options.overflowPolicy = .rejectNewest → s.block.droppedOldest = 0
  rejected : s.block.options.overflowPolicy = .dropOldest → s.block.rejectedNewest = 0

namespace StatsInvariant

theorem initial {block : SubscriptionControlBlock Tid Msg}
    (h : SubscriptionControlBlock.create options true = .ok block) :
    StatsInvariant { block := block } := by
  unfold SubscriptionControlBlock.create at h
  split at h
  case isTrue => cases h
  case isFalse hdepth =>
    cases h
    exact ⟨rfl, fun _ => rfl, fun _ => rfl, le_rfl, fun _ => rfl, fun _ => rfl⟩

theorem enqueue {message : Msg} {isRemote : Bool}
    {r : SubscriptionControlBlock.PushResult Tid Msg} {threads : Tid → MailboxThread Msg}
    {history : MailboxHistory Tid Msg} (h : StatsInvariant s)
    (hr : s.block.PushView message isRemote r)
    (hdiscarded : history.cancelDiscarded = s.history.cancelDiscarded) :
    StatsInvariant { s with block := r.block, threads := threads, history := history } := by
  have hbalance := h.balance
  cases hr with
  | skipped =>
    exact ⟨hdiscarded ▸ hbalance, h.empty, hdiscarded ▸ h.discarded, h.errors, h.dropped,
      h.rejected⟩
  | rejected hactive hpolicy hfull =>
    refine ⟨hdiscarded ▸ hbalance, h.empty, hdiscarded ▸ h.discarded, h.errors, h.dropped, ?_⟩
    intro hdrop
    rw [hpolicy] at hdrop
    cases hdrop
  | displaced oldest rest hactive hpolicy hpending hfull =>
    -- one message leaves as dropped, the new one takes its place
    refine ⟨?_, fun hcancelled => ?_, hdiscarded ▸ h.discarded, h.errors, fun hreject => ?_,
      h.rejected⟩
    · rw [hpending, List.length_cons] at hbalance
      simp only [SubscriptionControlBlock.accept, List.length_append, List.length_singleton,
        hdiscarded]
      omega
    · exact absurd (hactive.symm.trans hcancelled) (by simp)
    · exact absurd (hpolicy.symm.trans hreject) (by simp)
  | appended hactive hroom =>
    refine ⟨?_, fun hcancelled => ?_, hdiscarded ▸ h.discarded, h.errors, h.dropped, h.rejected⟩
    · simp only [SubscriptionControlBlock.accept, List.length_append, List.length_singleton,
        hdiscarded]
      omega
    · exact absurd (hactive.symm.trans hcancelled) (by simp)

/-- The mailbox is emptied into the count of discarded messages. -/
theorem cancel (h : StatsInvariant s) {threads : Tid → MailboxThread Msg}
    {history : MailboxHistory Tid Msg}
    (hdiscarded : history.cancelDiscarded =
      s.history.cancelDiscarded + s.block.pending.length) :
    StatsInvariant { s with block := s.block.cancel, threads := threads, history := history } := by
  have hbalance := h.balance
  refine ⟨?_, fun _ => rfl, fun hactive => ?_, h.errors, h.dropped, h.rejected⟩
  · simp only [SubscriptionControlBlock.cancel, List.length_nil, hdiscarded]
    omega
  · exact absurd hactive (by simp [SubscriptionControlBlock.cancel])

theorem step [DecidableEq Tid] {a : MailboxAction Tid Msg} (htoken : TokenInvariant s)
    (h : StatsInvariant s) (hs : s.step a = some s') : StatsInvariant s' := by
  have hbalance := h.balance
  cases step_view hs with
  | enqueue t message isRemote r hcall hr => exact h.enqueue hr rfl
  | cleanup t outcome threw hcall =>
    -- what a failed post leaves behind is counted as rejected by the executor
    refine ⟨?_, fun _ => rfl, h.discarded, h.errors, h.dropped, h.rejected⟩
    simp only [SubscriptionControlBlock.enqueueCleanup, List.length_nil]
    omega
  | cancel t hcall => exact h.cancel rfl
  | cancelAndWait t hcall => exact h.cancel rfl
  | popped t message rest hdrain hactive hpending =>
    refine ⟨?_, fun hcancelled => ?_, h.discarded, h.errors, h.dropped, h.rejected⟩
    · rw [hpending, List.length_cons] at hbalance
      show s.block.enqueued = s.block.delivered + (s.block.inFlight + 1) + rest.length +
        s.block.droppedOldest + s.block.executorRejected + s.history.cancelDiscarded
      omega
    · exact absurd (hactive.symm.trans hcancelled) (by simp)
  | drained t hdrain hempty =>
    -- an active mailbox is left only when it is empty, a cancelled one is empty
    have hpending : s.block.pending = [] := hempty.elim h.empty id
    refine ⟨?_, fun _ => rfl, fun hactive => ?_, h.errors, h.dropped, h.rejected⟩
    · simpa only [hpending, List.length_nil, add_zero] using hbalance
    · simpa only [hpending, List.length_nil, add_zero] using h.discarded hactive
  | finish t failed hdrain =>
    have hthread := (htoken.callbackThread_iff t).mp (by rw [hdrain]; rfl)
    have hflight : s.block.inFlight = 1 := by
      rw [htoken.inFlight_eq, hthread]
      rfl
    refine ⟨?_, h.empty, h.discarded, ?_, h.dropped, h.rejected⟩
    · simp only [SubscriptionControlBlock.drainFinish]
      omega
    · have herrors := h.errors
      simp only [SubscriptionControlBlock.drainFinish]
      split <;> omega
  | _ => exact ⟨hbalance, h.empty, h.discarded, h.errors, h.dropped, h.rejected⟩

end StatsInvariant

/-- The laws of one snapshot; `discarded` is the number of messages that cancellations
have discarded. -/
structure StatsLaws (options : SubscriptionOptions) (stats : SubscriptionStats)
    (discarded : ℕ) : Prop where
  active_balance : stats.active = true → stats.enqueued =
    stats.delivered + stats.inFlight + stats.pending + stats.droppedOldest +
      stats.executorRejected
  cancelled_empty : stats.active = false → stats.pending = 0
  cancelled_balance : stats.active = false → stats.enqueued =
    stats.delivered + stats.inFlight + stats.droppedOldest + stats.executorRejected + discarded
  errors_le : stats.callbackErrors ≤ stats.delivered
  dropped_zero : options.overflowPolicy = .rejectNewest → stats.droppedOldest = 0
  rejected_zero : options.overflowPolicy = .dropOldest → stats.rejectedNewest = 0

variable [DecidableEq Tid]

theorem statsInvariant_of_reachable (h : (mailboxSystem Tid Msg options).Reachable s) :
    StatsInvariant s := by
  refine TransitionSystem.Reachable.invariant ?_
    (fun s a s' hr hs hstep => hs.step (tokenInvariant_of_reachable hr) hstep) h
  rintro s ⟨block, hblock, rfl⟩
  exact .initial hblock

/-- Conservation of messages in every snapshot. -/
theorem stats_conservation (h : (mailboxSystem Tid Msg options).Reachable s) :
    StatsLaws options s.block.stats s.history.cancelDiscarded := by
  have hinv := statsInvariant_of_reachable h
  have hoptions := (orderInvariant_of_reachable h).options_eq
  have hbalance := hinv.balance
  refine ⟨fun hactive => ?_, fun hcancelled => ?_, fun hcancelled => ?_, hinv.errors, ?_, ?_⟩
  · have hnone := hinv.discarded hactive
    simp only [SubscriptionControlBlock.stats]
    omega
  · simp only [SubscriptionControlBlock.stats, hinv.empty hcancelled, List.length_nil]
  · have hempty := hinv.empty hcancelled
    rw [hempty, List.length_nil] at hbalance
    simp only [SubscriptionControlBlock.stats]
    omega
  · intro hreject
    exact hinv.dropped (hoptions ▸ hreject)
  · intro hdrop
    exact hinv.rejected (hoptions ▸ hdrop)

/-- A message delivered, one whose callback runs, one dropped and one discarded by the
cancellation. -/
theorem stats_conservation_cancelled : ∃ s : MailboxState (Fin 2) ℕ,
    s.block.stats = ⟨4, 1, 1, 0, 0, 1, 0, 1, false⟩ ∧ s.history.cancelDiscarded = 1 ∧
    StatsLaws { queueDepth := 1 } s.block.stats s.history.cancelDiscarded := by
  obtain ⟨s, hs, hp⟩ := (mailboxSystem (Fin 2) ℕ { queueDepth := 1 }).exists_reachable_of_run
    { block := { options := { queueDepth := 1 }, queueDepth_pos := by decide } }
    [.enqueue 0 6 false, .post 0 .accepted, .startDrain 1, .pop 1, .enqueue 0 7 false,
      .callbackEnd 1 true, .finish 1, .pop 1, .enqueue 0 8 false, .enqueue 0 9 false, .cancel 0]
    (fun s => s.block.stats == ⟨4, 1, 1, 0, 0, 1, 0, 1, false⟩ && s.history.cancelDiscarded == 1)
    ⟨_, rfl, rfl⟩ (by decide)
  simp only [Bool.and_eq_true, beq_iff_eq] at hp
  exact ⟨s, hp.1, hp.2, stats_conservation hs⟩

end MailboxState
end RobotMiddleware
