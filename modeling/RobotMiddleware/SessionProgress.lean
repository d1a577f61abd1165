import RobotMiddleware.SessionAccounting

/-! Every call of `start` and `stop` of a `TcpSessionManager` can return, from every reachable state.
A call in a handler waits for nothing. The holder of `lifecycle_mutex` joins with `running` cleared,
so that the accept thread and the workers come to an end, and with them the calls that their
handlers have made. -/
namespace RobotMiddleware

/-- Steps that a worker needs at most once `running` is cleared and nothing is received. -/
def SessionPhase.rank : SessionPhase → ℕ
  | .checking => 0
  | .idle _ => 1
  | .sending _ => 2
  | .heartbeat _ => 3
  | .receiving | .handling _ => 4
  | .classifying _ _ => 5

def SessionWorker.rank : SessionWorker → ℕ
  | .none | .left => 0
  | .clearing => 1
  | .countingDisconnected => 2
  | .countingActive => 3
  | .exchanging => 4
  | .closing => 5
  | .caught _ => 6
  | .looping _ phase => 7 + phase.rank
  | .entering => 8

/-- The same for the accept thread, with the number of sessions in the list; a scan that ends in
another round of the loop is followed by the last one. -/
def AcceptLoop.rank (sessions : ℕ) : AcceptLoop → ℕ
  | .none | .left => 0
  | .joining true finished => 1 + finished.length
  | .scanning true rest finished => 2 + 2 * rest.length + finished.length
  | .checking => 3 + 2 * sessions
  | .joining false finished => 4 + finished.length + 2 * sessions
  | .scanning false rest finished => 5 + 2 * rest.length + finished.length + 2 * sessions
  | .rejecting | .caught => 4 + 2 * sessions
  | .erasing _ => 5 + 2 * sessions
  | .countingDisconnected _ => 6 + 2 * sessions
  | .uncounting _ => 7 + 2 * sessions
  | .deactivating _ => 8 + 2 * sessions
  | .accepting => 6 + 4 * sessions
  | .starting _ => 9 + 4 * sessions
  | .countingActive _ => 10 + 4 * sessions
  | .countingAccepted _ => 11 + 4 * sessions
  | .pushing _ => 16 + 4 * sessions
  | .preparing _ => 17 + 4 * sessions
  | .creating => 18 + 4 * sessions
  | .testing => 19 + 4 * sessions

def LifecycleCall.isEnding : LifecycleCall → Bool
  | .joining _ _ | .setRunning | .creating | .restoring | .unlocking _ => true
  | _ => false

def LifecycleCall.rank : LifecycleCall → ℕ
  | .joining _ snapshot => 4 + snapshot.length
  | .setRunning => 3
  | .creating | .restoring => 2
  | .unlocking _ => 1
  | _ => 0

theorem LifecycleCall.holds_of_isEnding {call : LifecycleCall} (h : call.isEnding = true) :
    call.holds = true := by
  cases call <;> first | rfl | cases h

namespace SessionManager
variable {m : SessionManager} {session : ℕ}

/-- A worker that runs while the loops are to end gets nearer to its end. -/
theorem exists_sessionStep (hstopped : m.running = false)
    (hover : (m.records session).worker.isOver = false) :
    ∃ action m', m.sessionStep session (m.records session).worker action = some m' ∧
      (m'.records session).worker.rank < (m.records session).worker.rank := by
  have hself (m : SessionManager) (worker : SessionWorker) :
      ((m.setWorker session worker).records session).worker = worker := by simp
  cases hworker : (m.records session).worker with
  | none | left =>
    rw [hworker] at hover
    cases hover
  | entering =>
    refine ⟨.enter 0, _, rfl, ?_⟩
    rw [hself]
    exact Nat.lt_succ_self 7
  | caught orderly =>
    refine ⟨.next, _, rfl, ?_⟩
    rw [hself]
    exact Nat.lt_succ_self 5
  | closing | countingActive | countingDisconnected | clearing =>
    refine ⟨.next, _, rfl, ?_⟩
    rw [hself]
    decide
  | exchanging =>
    refine ⟨.next, _, rfl, ?_⟩
    rw [records_setRecord, Function.update_self]
    show (if (m.records session).active then SessionWorker.countingActive else .clearing).rank < 4
    split <;> decide
  | looping locals phase =>
    cases phase with
    | checking =>
      refine ⟨.next, _, rfl, ?_⟩
      rw [hself, hstopped]
      exact Nat.lt_of_sub_eq_succ rfl
    | receiving =>
      refine ⟨.receive none 0, _, rfl, ?_⟩
      rw [hself]
      exact Nat.lt_succ_self 10
    | classifying frame now =>
      cases hframe : sessionFrame frame with
      | ok kind =>
        cases kind with
        | heartbeat =>
          refine ⟨.next, _, by simp only [sessionStep, loopStep, hframe]; rfl, ?_⟩
          rw [hself]
          exact Nat.lt_of_sub_eq_succ rfl
        | handle =>
          refine ⟨.next, _, by simp only [sessionStep, loopStep, hframe]; rfl, ?_⟩
          rw [hself]
          exact Nat.lt_succ_self 11
      | error error =>
        refine ⟨.next, _, by simp only [sessionStep, loopStep, hframe]; rfl, ?_⟩
        rw [hself]
        exact Nat.lt_of_sub_eq_succ rfl
    | handling now =>
      refine ⟨.handled false, _, rfl, ?_⟩
      rw [hself]
      exact Nat.lt_succ_self 10
    | heartbeat now =>
      refine ⟨.next, _, rfl, ?_⟩
      rw [hself]
      split
      · exact Nat.lt_succ_self 9
      · exact Nat.lt_of_sub_eq_succ rfl
    | sending now =>
      refine ⟨.next, _, rfl, ?_⟩
      rw [hself]
      exact Nat.lt_succ_self 8
    | idle now =>
      by_cases hidle : m.options.idleTimeout.nanoseconds ≤ now - locals.lastReceive
      · refine ⟨.next, _, by simp only [sessionStep, loopStep, if_pos hidle]; rfl, ?_⟩
        rw [hself]
        exact Nat.lt_of_sub_eq_succ rfl
      · refine ⟨.next, _, by simp only [sessionStep, loopStep, if_neg hidle]; rfl, ?_⟩
        rw [hself]
        exact Nat.lt_succ_self 7

/-- The accept thread gets nearer to its end, if the worker that the reaper joins has ended. -/
theorem exists_acceptStep {loop : AcceptLoop} (hloop : m.acceptThread = loop)
    (hstopped : m.running = false) (hover : loop.isOver = false)
    (hjoin : ∀ last session finished, loop = .joining last (session :: finished) →
      (m.records session).joinable = true → (m.records session).worker = .left) :
    ∃ action m', m.acceptStep loop action = some m' ∧
      m'.acceptThread.rank m'.sessions.length < loop.rank m.sessions.length := by
  cases loop with
  | none | left => cases hover
  | checking =>
    refine ⟨.next, _, rfl, ?_⟩
    rw [hstopped]
    show 2 + 2 * m.sessions.length + 0 < 3 + 2 * m.sessions.length
    omega
  | accepting =>
    -- no connection comes in
    refine ⟨.connection false, _, rfl, ?_⟩
    show 5 + 2 * m.sessions.length + 0 + 2 * m.sessions.length < 6 + 4 * m.sessions.length
    omega
  | testing =>
    refine ⟨.next, _, rfl, ?_⟩
    show (if m.options.maxClients ≤ m.active then AcceptLoop.rejecting else .creating).rank
      m.sessions.length < 19 + 4 * m.sessions.length
    split
    · show 4 + 2 * m.sessions.length < 19 + 4 * m.sessions.length
      omega
    · exact Nat.add_lt_add_right (by decide) _
  | creating | preparing | countingAccepted | countingActive | deactivating | uncounting
  | countingDisconnected | caught | rejecting =>
    refine ⟨.next, _, rfl, ?_⟩
    exact Nat.add_lt_add_right (by decide) _
  | pushing session =>
    refine ⟨.next, _, rfl, ?_⟩
    show 11 + 4 * (m.sessions ++ [session]).length < 16 + 4 * m.sessions.length
    rw [List.length_append, List.length_singleton]
    omega
  | starting session =>
    refine ⟨.next, _, rfl, ?_⟩
    show 5 + 2 * m.sessions.length + 0 + 2 * m.sessions.length < 9 + 4 * m.sessions.length
    omega
  | erasing session =>
    refine ⟨.next, _, rfl, ?_⟩
    have hlength := List.length_filter_le (· ≠ session) m.sessions
    show 4 + 2 * (m.sessions.filter (· ≠ session)).length < 5 + 2 * m.sessions.length
    omega
  | scanning last rest finished =>
    cases rest with
    | nil =>
      refine ⟨.next, _, rfl, ?_⟩
      cases last with
      | true =>
        show 1 + finished.length < 2 + 2 * 0 + finished.length
        omega
      | false =>
        show 4 + finished.length + 2 * m.sessions.length <
          5 + 2 * 0 + finished.length + 2 * m.sessions.length
        omega
    | cons session rest =>
      have hlength := List.length_erase_le (a := session) (l := m.sessions)
      by_cases hactive : (m.records session).active = true
      · refine ⟨.next, _, if_pos hactive, ?_⟩
        cases last with
        | true =>
          show 2 + 2 * rest.length + finished.length < 2 + 2 * (rest.length + 1) + finished.length
          omega
        | false =>
          show 5 + 2 * rest.length + finished.length + 2 * m.sessions.length <
            5 + 2 * (rest.length + 1) + finished.length + 2 * m.sessions.length
          omega
      · refine ⟨.next, _, if_neg hactive, ?_⟩
        cases last with
        | true =>
          show 2 + 2 * rest.length + (finished ++ [session]).length <
            2 + 2 * (rest.length + 1) + finished.length
          rw [List.length_append, List.length_singleton]
          omega
        | false =>
          show 5 + 2 * rest.length + (finished ++ [session]).length +
              2 * (m.sessions.erase session).length <
            5 + 2 * (rest.length + 1) + finished.length + 2 * m.sessions.length
          rw [List.length_append, List.length_singleton]
          omega
  | joining last finished =>
    cases finished with
    | nil =>
      refine ⟨.next, _, rfl, ?_⟩
      cases last with
      | true => exact Nat.one_pos
      | false =>
        show 3 + 2 * m.sessions.length < 4 + 0 + 2 * m.sessions.length
        omega
    | cons session finished =>
      have hlt : (AcceptLoop.joining last finished).rank m.sessions.length <
          (AcceptLoop.joining last (session :: finished)).rank m.sessions.length := by
        cases last with
        | true => exact Nat.lt_succ_self _
        | false =>
          show 4 + finished.length + 2 * m.sessions.length <
            4 + (finished.length + 1) + 2 * m.sessions.length
          omega
      by_cases hjoinable : (m.records session).joinable = true
      · exact ⟨.next, _, (if_pos hjoinable).trans (if_pos (hjoin last session finished rfl
          hjoinable)), hlt⟩
      · exact ⟨.next, _, if_neg hjoinable, hlt⟩

end SessionManager

def ManagerThread.isWorker {Tid : Type} : ManagerThread Tid → Bool
  | .worker _ => true
  | _ => false

theorem SessionWorker.eq_left {worker : SessionWorker} (hover : worker.isOver = true)
    (hstarted : worker ≠ .none) : worker = .left := by
  cases worker <;> first | rfl | exact absurd rfl hstarted | cases hover

theorem AcceptLoop.eq_left {loop : AcceptLoop} (hover : loop.isOver = true)
    (hstarted : loop ≠ .none) : loop = .left := by
  cases loop <;> first | rfl | exact absurd rfl hstarted | cases hover

namespace ManagerRun
variable {Tid : Type} [DecidableEq Tid] {s s' s'' : ManagerRun Tid} {t : ManagerThread Tid}
  {options : TcpSessionManagerOptions}

structure BesideCalls (s s' : ManagerRun Tid) : Prop where
  stopped : s.manager.running = false → s'.manager.running = false
  acceptJoinable : s'.manager.acceptJoinable = s.manager.acceptJoinable
  calls : ∀ t, t.isWorker = false → s'.calls t = s.calls t

structure WorkersOnly (s s' : ManagerRun Tid) : Prop extends BesideCalls s s' where
  acceptThread : s'.manager.acceptThread = s.manager.acceptThread
  sessions : s'.manager.sessions = s.manager.sessions

omit [DecidableEq Tid] in
theorem BesideCalls.trans (h : s.BesideCalls s') (h' : s'.BesideCalls s'') : s.BesideCalls s'' :=
  ⟨h'.stopped ∘ h.stopped, h'.acceptJoinable.trans h.acceptJoinable,
    fun t ht => (h'.calls t ht).trans (h.calls t ht)⟩

omit [DecidableEq Tid] in
theorem WorkersOnly.refl (s : ManagerRun Tid) : s.WorkersOnly s :=
  ⟨⟨id, rfl, fun _ _ => rfl⟩, rfl, rfl⟩

omit [DecidableEq Tid] in
theorem WorkersOnly.trans (h : s.WorkersOnly s') (h' : s'.WorkersOnly s'') : s.WorkersOnly s'' :=
  ⟨h.toBesideCalls.trans h'.toBesideCalls, h'.acceptThread.trans h.acceptThread,
    h'.sessions.trans h.sessions⟩

theorem leads_of_step {action : ManagerAction Tid} (hs : s.step action = some s') :
    (managerSystem Tid options).Leads s s' := .head (M := managerSystem Tid options) hs (.refl s')

/-- A call goes on, unless it takes the mutex. -/
theorem exists_proceed {m : SessionManager} {call : LifecycleCall}
    (hstep : s.manager.lifecycleStep (s.manager.isInHandler t) (s.calls t) false = some (m, call))
    (hpass : (s.calls t).holds = true ∨ call.holds = false) :
    ∃ s', s.step (.proceed t false) = some s' ∧ s'.manager = m ∧
      s'.calls = Function.update s.calls t call := by
  have hmutex : ∃ mutex, ScopedLock.pass s.lifecycleMutex t (s.calls t).holds call.holds =
      some mutex := by
    cases hheld : (s.calls t).holds with
    | true => cases call.holds <;> exact ⟨_, rfl⟩
    | false =>
      rw [hheld] at hpass
      rw [hpass.resolve_left nofun]
      exact ⟨_, rfl⟩
  obtain ⟨mutex, hmutex⟩ := hmutex
  refine ⟨{ manager := m, lifecycleMutex := mutex, calls := Function.update s.calls t call },
    ?_, rfl, rfl⟩
  show (s.manager.lifecycleStep _ _ false).bind _ = _
  rw [hstep, Option.bind_some]
  show (ScopedLock.pass s.lifecycleMutex t (s.calls t).holds call.holds).map _ = _
  rw [hmutex]
  rfl

/-- A call in a handler waits for nothing: `start` throws and `stop` clears `running`. -/
theorem ManagerInvariant.exists_handler_step {i : ℕ} (h : s.ManagerInvariant)
    (hbusy : s.calls (.worker i) ≠ .none) :
    ∃ s' call, s.step (.proceed (.worker i) false) = some s' ∧
      s'.calls = Function.update s.calls (.worker i) call ∧ s.WorkersOnly s' ∧
      (call = .none ∨ s.calls (.worker i) = .entering false ∧ call = .requesting) := by
  obtain ⟨hcode, hrequest⟩ := h.handler i hbusy
  have hflag := SessionManager.isInHandler_of_isInUserCode hcode
  have hframe (running : Bool) {s' : ManagerRun Tid} {call : LifecycleCall}
      (hmanager : s'.manager = { s.manager with running := running })
      (hrunning : s.manager.running = false → running = false)
      (hcalls : s'.calls = Function.update s.calls (.worker i) call) : s.WorkersOnly s' := by
    refine ⟨⟨?_, ?_, fun t ht => ?_⟩, ?_, ?_⟩
    · rw [hmanager]
      exact hrunning
    · rw [hmanager]
    · rw [hcalls, Function.update_of_ne]
      rintro rfl
      cases ht
    · rw [hmanager]
    · rw [hmanager]
  cases hcall : s.calls (.worker i) with
  | none => exact absurd hcall hbusy
  | entering start =>
    have hnext : s.manager.lifecycleStep (s.manager.isInHandler (.worker i : ManagerThread Tid))
        (s.calls (.worker i)) false = some (s.manager, if start then .none else .requesting) := by
      rw [hcall, hflag]
      rfl
    obtain ⟨s', hstep, hmanager, hcalls⟩ := exists_proceed hnext (.inr (by cases start <;> rfl))
    refine ⟨s', _, hstep, hcalls, hframe s.manager.running hmanager id hcalls, ?_⟩
    cases start with
    | true => exact .inl rfl
    | false => exact .inr ⟨rfl, rfl⟩
  | requesting =>
    have hnext : s.manager.lifecycleStep (s.manager.isInHandler (.worker i : ManagerThread Tid))
        (s.calls (.worker i)) false = some ({ s.manager with running := false }, .none) := by
      rw [hcall]
      rfl
    obtain ⟨s', hstep, hmanager, hcalls⟩ := exists_proceed hnext (.inr rfl)
    exact ⟨s', _, hstep, hcalls, hframe false hmanager (fun _ => rfl) hcalls, .inl rfl⟩
  | _ =>
    rw [hcall] at hrequest
    cases hrequest

/-- A call in a handler returns. -/
theorem exists_handler_return (h : (managerSystem Tid options).Reachable s) (i : ℕ) :
    ∃ s', (managerSystem Tid options).Leads s s' ∧ s.WorkersOnly s' ∧
      s'.calls (.worker i) = .none := by
  by_cases hnone : s.calls (.worker i) = .none
  · exact ⟨s, .refl s, .refl s, hnone⟩
  · obtain ⟨s₁, call, hstep, hcalls, hframe, hcall⟩ :=
      (managerInvariant_of_reachable h).exists_handler_step hnone
    have hcall₁ : s₁.calls (.worker i) = call := by rw [hcalls, Function.update_self]
    rcases hcall with rfl | ⟨-, rfl⟩
    · exact ⟨s₁, leads_of_step hstep, hframe, hcall₁⟩
    · have h₁ := h.leads (leads_of_step hstep)
      obtain ⟨s₂, call₂, hstep₂, hcalls₂, hframe₂, hcall₂⟩ :=
        (managerInvariant_of_reachable h₁).exists_handler_step (i := i) (by rw [hcall₁]; nofun)
      have hnone₂ : call₂ = .none := hcall₂.resolve_right fun hentering =>
        absurd (hcall₁.symm.trans hentering.1) nofun
      exact ⟨s₂, (leads_of_step hstep).trans (leads_of_step hstep₂), hframe.trans hframe₂,
        by rw [hcalls₂, Function.update_self, hnone₂]⟩

/-- A worker comes to its end once `running` is cleared. -/
theorem exists_worker_over (h : (managerSystem Tid options).Reachable s)
    (hstopped : s.manager.running = false) (i : ℕ) :
    ∃ s', (managerSystem Tid options).Leads s s' ∧ s.WorkersOnly s' ∧
      (s'.manager.records i).worker.isOver = true := by
  obtain ⟨s₁, hleads₁, hframe₁, hnone₁⟩ := exists_handler_return h i
  have hprogress (s₂ : ManagerRun Tid) (h₂ : s.WorkersOnly s₂ ∧ s₂.calls (.worker i) = .none)
      (hover : ¬ (s₂.manager.records i).worker.isOver = true) :
      ∃ action s₃, (managerSystem Tid options).step s₂ action = some s₃ ∧
        (s.WorkersOnly s₃ ∧ s₃.calls (.worker i) = .none) ∧
        (s₃.manager.records i).worker.rank < (s₂.manager.records i).worker.rank := by
    obtain ⟨hframe, hnone⟩ := h₂
    obtain ⟨action, m, hstep, hlt⟩ := SessionManager.exists_sessionStep (hframe.stopped hstopped)
      (Bool.eq_false_of_not_eq_true hover)
    have hworker := (SessionManager.sessionStep_view hstep).frame
    have hstep' : s₂.step (.session i action) = some { s₂ with manager := m } := by
      show (if s₂.calls (.worker i) = .none then _ else none) = _
      rw [if_pos hnone, hstep]
      rfl
    exact ⟨.session i action, _, hstep', ⟨hframe.trans ⟨⟨fun hfalse => hworker.running.trans hfalse,
      hworker.acceptJoinable, fun _ _ => rfl⟩, hworker.acceptThread, hworker.sessions⟩, hnone⟩, hlt⟩
  obtain ⟨s', hleads, ⟨hframe, -⟩, hover⟩ :=
    TransitionSystem.exists_leads_of_progress
      (fun s : ManagerRun Tid => (s.manager.records i).worker.rank) hprogress ⟨hframe₁, hnone₁⟩
  exact ⟨s', hleads₁.trans hleads, hframe, hover⟩

/-- The worker that the reaper joins, if it joins one, comes to its end. -/
theorem exists_reapable (h : (managerSystem Tid options).Reachable s)
    (hstopped : s.manager.running = false) :
    ∃ s', (managerSystem Tid options).Leads s s' ∧ s.WorkersOnly s' ∧
      ∀ last session finished, s'.manager.acceptThread = .joining last (session :: finished) →
        (s'.manager.records session).joinable = true →
          (s'.manager.records session).worker = .left := by
  by_cases hjoining : ∃ last session finished,
      s.manager.acceptThread = .joining last (session :: finished)
  · obtain ⟨last, session, finished, hloop⟩ := hjoining
    obtain ⟨s', hleads, hframe, hover⟩ := exists_worker_over h hstopped session
    have hthreads := (managerInvariant_of_reachable (h.leads hleads)).threads
    refine ⟨s', hleads, hframe, fun last' session' finished' hloop' hjoinable => ?_⟩
    cases hloop.symm.trans (hframe.acceptThread.symm.trans hloop')
    exact SessionWorker.eq_left hover (hthreads.started _ hjoinable)
  · exact ⟨s, .refl s, .refl s, fun last session finished hloop =>
      absurd ⟨last, session, finished, hloop⟩ hjoining⟩

/-- The accept thread comes to its end once `running` is cleared. -/
theorem exists_accept_over (h : (managerSystem Tid options).Reachable s)
    (hstopped : s.manager.running = false) :
    ∃ s', (managerSystem Tid options).Leads s s' ∧ s.BesideCalls s' ∧
      s'.manager.acceptThread.isOver = true := by
  have hprogress (s₁ : ManagerRun Tid)
      (h₁ : (managerSystem Tid options).Reachable s₁ ∧ s.BesideCalls s₁)
      (hover : ¬ s₁.manager.acceptThread.isOver = true) :
      ∃ s₃, (managerSystem Tid options).Leads s₁ s₃ ∧
        ((managerSystem Tid options).Reachable s₃ ∧ s.BesideCalls s₃) ∧
        s₃.manager.acceptThread.rank s₃.manager.sessions.length <
          s₁.manager.acceptThread.rank s₁.manager.sessions.length := by
    obtain ⟨hreachable₁, hframe₁⟩ := h₁
    have hstopped₁ := hframe₁.stopped hstopped
    obtain ⟨s₂, hleads₂, hframe₂, hjoin⟩ := exists_reapable hreachable₁ hstopped₁
    obtain ⟨action, m, hstep, hlt⟩ := SessionManager.exists_acceptStep hframe₂.acceptThread
      (hframe₂.stopped hstopped₁) (Bool.eq_false_of_not_eq_true hover)
      fun last session finished hloop => hjoin last session finished
        (hframe₂.acceptThread.trans hloop)
    rw [hframe₂.sessions] at hlt
    rw [← hframe₂.acceptThread] at hstep
    have hstep' : s₂.step (.accept action) = some { s₂ with manager := m } := by
      show (s₂.manager.acceptStep _ action).map _ = _
      rw [hstep]
      rfl
    obtain ⟨hrunning, hjoinable⟩ := (SessionManager.acceptStep_view rfl hstep).frame
    have hleads := hleads₂.trans (leads_of_step hstep')
    exact ⟨_, hleads, ⟨hreachable₁.leads hleads, hframe₁.trans (hframe₂.toBesideCalls.trans
      ⟨fun hfalse => hrunning.trans hfalse, hjoinable, fun _ _ => rfl⟩)⟩, hlt⟩
  obtain ⟨s', hleads, ⟨-, hframe⟩, hover⟩ := TransitionSystem.exists_leads_of_leads
    (fun s : ManagerRun Tid => s.manager.acceptThread.rank s.manager.sessions.length) hprogress
    ⟨h, id, rfl, fun _ _ => rfl⟩
  exact ⟨s', hleads, hframe, hover⟩

/-- A thread that may be joined has been started. -/
theorem acceptThread_of_joinable (h : (managerSystem Tid options).Reachable s)
    (hjoinable : s.manager.acceptJoinable = true) : s.manager.acceptThread ≠ .none := by
  refine manager_of_reachable (p := fun m => m.acceptJoinable = true → m.acceptThread ≠ .none)
    nofun ?_ h hjoinable
  intro m m' snapshots hthreads hm hview hjoinable
  cases hview with
  | accept hview =>
    cases hview with
    | moved stats loop hkeeps => exact hkeeps.started
    | _ => nofun
  | session session hview =>
    rw [hview.frame.acceptThread]
    exact hm (hview.frame.acceptJoinable ▸ hjoinable)
  | lifecycle hview =>
    cases hview with
    | joinedAccept hleft => cases hjoinable
    | restarted hjoined => nofun
    | _ => exact hm hjoinable
  | stats stats => exact hm hjoinable

structure CallMoves (t : ManagerThread Tid) (s s' : ManagerRun Tid) (call : LifecycleCall) :
    Prop where
  call : s'.calls t = call
  others : ∀ u ≠ t, u.isWorker = false → s'.calls u = s.calls u

omit [DecidableEq Tid] in
theorem CallMoves.trans {call call' : LifecycleCall} (h : CallMoves t s s' call)
    (h' : CallMoves t s' s'' call') : CallMoves t s s'' call' :=
  ⟨h'.call, fun u hut hu => (h'.others u hut hu).trans (h.others u hut hu)⟩

omit [DecidableEq Tid] in
theorem BesideCalls.moves (h : s.BesideCalls s') (ht : t.isWorker = false) :
    CallMoves t s s' (s.calls t) := ⟨h.calls t ht, fun u _ hu => h.calls u hu⟩

omit [DecidableEq Tid] in
theorem ManagerInvariant.isWorker_eq_false (h : s.ManagerInvariant)
    (hholds : (s.calls t).holds = true) : t.isWorker = false := by
  cases t with
  | worker i => exact absurd rfl (h.not_worker hholds i)
  | _ => rfl

variable (options) in
/-- A call goes on with one step. -/
theorem exists_callMoves {m : SessionManager} {call : LifecycleCall}
    (hstep : s.manager.lifecycleStep (s.manager.isInHandler t) (s.calls t) false = some (m, call))
    (hpass : (s.calls t).holds = true ∨ call.holds = false) :
    ∃ s', (managerSystem Tid options).Leads s s' ∧ CallMoves t s s' call := by
  obtain ⟨s', hproceed, -, hcalls⟩ := exists_proceed hstep hpass
  refine ⟨s', leads_of_step hproceed, ?_, fun u hut _ => ?_⟩
  · rw [hcalls, Function.update_self]
  · rw [hcalls, Function.update_of_ne hut]

/-- A call that joins its snapshot gets nearer to its end. -/
theorem exists_ending_step (h : (managerSystem Tid options).Reachable s)
    (hending : (s.calls t).isEnding = true) :
    ∃ s' call, (managerSystem Tid options).Leads s s' ∧ CallMoves t s s' call ∧
      (call = .none ∨ call.isEnding = true) ∧ call.rank < (s.calls t).rank := by
  have hinv := managerInvariant_of_reachable h
  have hholds := LifecycleCall.holds_of_isEnding hending
  -- where the step does not depend on another thread
  have hgo {m : SessionManager} {call : LifecycleCall}
      (hstep : s.manager.lifecycleStep (s.manager.isInHandler t) (s.calls t) false =
        some (m, call)) (hcall : call = .none ∨ call.isEnding = true)
      (hlt : call.rank < (s.calls t).rank) :
      ∃ s' call, (managerSystem Tid options).Leads s s' ∧ CallMoves t s s' call ∧
        (call = .none ∨ call.isEnding = true) ∧ call.rank < (s.calls t).rank := by
    obtain ⟨s', hleads, hmoves⟩ := exists_callMoves options hstep (.inl hholds)
    exact ⟨s', call, hleads, hmoves, hcall, hlt⟩
  have hat := hinv.calls t
  cases hcall : s.calls t with
  | setRunning | creating | restoring =>
    rw [hcall] at hgo
    exact hgo rfl (.inr rfl) (by decide)
  | unlocking start =>
    rw [hcall] at hgo
    exact hgo rfl (.inl rfl) Nat.one_pos
  | joining start snapshot =>
    cases snapshot with
    | nil =>
      rw [hcall] at hgo
      cases start with
      | true => exact hgo rfl (.inr rfl) (by decide)
      | false => exact hgo rfl (.inr rfl) (by decide)
    | cons session snapshot =>
      rw [hcall] at hat
      obtain ⟨s₁, hleads₁, hframe₁, hover⟩ := exists_worker_over h hat.1 session
      have hmoves₁ := hframe₁.toBesideCalls.moves (hinv.isWorker_eq_false hholds)
      have hcall₁ := hmoves₁.call.trans hcall
      have hthreads := (managerInvariant_of_reachable (h.leads hleads₁)).threads
      have hstep : ∃ m, s₁.manager.lifecycleStep (s₁.manager.isInHandler t) (s₁.calls t) false =
          some (m, .joining start snapshot) := by
        rw [hcall₁]
        by_cases hjoinable : (s₁.manager.records session).joinable = true
        · have hleft := SessionWorker.eq_left hover (hthreads.started session hjoinable)
          exact ⟨_, (if_pos hjoinable).trans (if_pos hleft)⟩
        · exact ⟨_, if_neg hjoinable⟩
      obtain ⟨m, hstep⟩ := hstep
      obtain ⟨s', hleads, hmoves⟩ := exists_callMoves options hstep (.inl (by
        rw [hcall₁]
        rfl))
      exact ⟨s', _, hleads₁.trans hleads, hmoves₁.trans hmoves, .inr rfl, Nat.lt_succ_self _⟩
  | _ =>
    rw [hcall] at hending
    cases hending

/-- A call that joins its snapshot returns. -/
theorem exists_ending_return (h : (managerSystem Tid options).Reachable s)
    (hending : (s.calls t).isEnding = true) :
    ∃ s', (managerSystem Tid options).Leads s s' ∧ CallMoves t s s' .none := by
  have hprogress (s₁ : ManagerRun Tid)
      (h₁ : (managerSystem Tid options).Reachable s₁ ∧ CallMoves t s s₁ (s₁.calls t) ∧
        (s₁.calls t = .none ∨ (s₁.calls t).isEnding = true)) (hbusy : ¬ s₁.calls t = .none) :
      ∃ s₂, (managerSystem Tid options).Leads s₁ s₂ ∧
        ((managerSystem Tid options).Reachable s₂ ∧ CallMoves t s s₂ (s₂.calls t) ∧
          (s₂.calls t = .none ∨ (s₂.calls t).isEnding = true)) ∧
        (s₂.calls t).rank < (s₁.calls t).rank := by
    obtain ⟨hreachable, hmoves, hcall⟩ := h₁
    obtain ⟨s₂, call, hleads, hmoves₂, hcall₂, hlt⟩ :=
      exists_ending_step hreachable (hcall.resolve_left hbusy)
    obtain rfl := hmoves₂.call
    exact ⟨s₂, hleads, ⟨hreachable.leads hleads, hmoves.trans hmoves₂, hcall₂⟩, hlt⟩
  obtain ⟨s', hleads, ⟨-, hmoves, -⟩, hnone⟩ := TransitionSystem.exists_leads_of_leads
    (fun s : ManagerRun Tid => (s.calls t).rank) hprogress
    ⟨h, ⟨rfl, fun _ _ _ => rfl⟩, .inr hending⟩
  exact ⟨s', hleads, hnone ▸ hmoves⟩

/-- So does one that has the accept thread behind it. -/
theorem exists_swap_return {start : Bool} (h : (managerSystem Tid options).Reachable s)
    (hcall : s.calls t = .swapping start) :
    ∃ s', (managerSystem Tid options).Leads s s' ∧ CallMoves t s s' .none := by
  have hstep : s.manager.lifecycleStep (s.manager.isInHandler t) (s.calls t) false =
      some ({ s.manager with sessions := [] }, .joining start s.manager.sessions) := by
    rw [hcall]
    rfl
  have hholds : (s.calls t).holds = true := by rw [hcall]; rfl
  obtain ⟨s₁, hleads₁, hmoves₁⟩ := exists_callMoves options hstep (.inl hholds)
  obtain ⟨s', hleads, hmoves⟩ := exists_ending_return (h.leads hleads₁) (t := t) (by
    rw [hmoves₁.call]
    rfl)
  exact ⟨s', hleads₁.trans hleads, hmoves₁.trans hmoves⟩

/-- So does one that has the whole of `finish_stop_locked` before it. -/
theorem exists_join_return {start : Bool} (h : (managerSystem Tid options).Reachable s)
    (hcall : s.calls t = .joiningAccept start) :
    ∃ s', (managerSystem Tid options).Leads s s' ∧ CallMoves t s s' .none := by
  have hinv := managerInvariant_of_reachable h
  have hholds : (s.calls t).holds = true := by rw [hcall]; rfl
  have hstopped := hinv.calls t
  rw [hcall] at hstopped
  obtain ⟨s₁, hleads₁, hframe₁, hover⟩ := exists_accept_over h hstopped
  have h₁ := h.leads hleads₁
  have hmoves₁ := hframe₁.moves (hinv.isWorker_eq_false hholds)
  have hcall₁ := hmoves₁.call.trans hcall
  have hstep : ∃ m, s₁.manager.lifecycleStep (s₁.manager.isInHandler t) (s₁.calls t) false =
      some (m, .swapping start) := by
    rw [hcall₁]
    by_cases hjoinable : s₁.manager.acceptJoinable = true
    · have hleft := AcceptLoop.eq_left hover (acceptThread_of_joinable h₁ hjoinable)
      exact ⟨_, (if_pos hjoinable).trans (if_pos hleft)⟩
    · exact ⟨_, if_neg hjoinable⟩
  obtain ⟨m, hstep⟩ := hstep
  obtain ⟨s₂, hleads₂, hmoves₂⟩ := exists_callMoves options hstep (.inl (by
    rw [hcall₁]
    rfl))
  obtain ⟨s', hleads, hmoves⟩ := exists_swap_return (h₁.leads hleads₂) hmoves₂.call
  exact ⟨s', (hleads₁.trans hleads₂).trans hleads, (hmoves₁.trans hmoves₂).trans hmoves⟩

/-- The holder of the mutex returns. -/
theorem exists_holder_return (h : (managerSystem Tid options).Reachable s)
    (hholds : (s.calls t).holds = true) :
    ∃ s', (managerSystem Tid options).Leads s s' ∧ CallMoves t s s' .none := by
  cases hcall : s.calls t with
  | joiningAccept start => exact exists_join_return h hcall
  | swapping start => exact exists_swap_return h hcall
  | checking start =>
    have hstep : ∃ m call, s.manager.lifecycleStep (s.manager.isInHandler t) (s.calls t) false =
        some (m, call) ∧ (call = .unlocking true ∨ call = .joiningAccept start) := by
      rw [hcall]
      cases start with
      | false => exact ⟨_, _, rfl, .inr rfl⟩
      | true =>
        refine ⟨_, _, rfl, ?_⟩
        split
        · exact .inl rfl
        · exact .inr rfl
    obtain ⟨m, call, hstep, hnext⟩ := hstep
    obtain ⟨s₁, hleads₁, hmoves₁⟩ := exists_callMoves options hstep (.inl hholds)
    have h₁ := h.leads hleads₁
    have hreturn : ∃ s', (managerSystem Tid options).Leads s₁ s' ∧ CallMoves t s₁ s' .none := by
      rcases hnext with rfl | rfl
      · exact exists_ending_return h₁ (by rw [hmoves₁.call]; rfl)
      · exact exists_join_return h₁ hmoves₁.call
    obtain ⟨s', hleads, hmoves⟩ := hreturn
    exact ⟨s', hleads₁.trans hleads, hmoves₁.trans hmoves⟩
  | none | entering start | requesting | locking start =>
    rw [hcall] at hholds
    cases hholds
  | _ => exact exists_ending_return h (by rw [hcall]; rfl)

/-- The mutex is free at some time, while a call still waits for it. -/
theorem exists_mutex_free {start : Bool} (h : (managerSystem Tid options).Reachable s)
    (hcall : s.calls t = .locking start) (ht : t.isWorker = false) :
    ∃ s', (managerSystem Tid options).Leads s s' ∧ s'.calls t = .locking start ∧
      s'.lifecycleMutex = none := by
  have hinv := managerInvariant_of_reachable h
  cases hmutex : s.lifecycleMutex with
  | none => exact ⟨s, .refl s, hcall, hmutex⟩
  | some u =>
    have hholds := (hinv.mutex u).mp hmutex
    have hother : t ≠ u := by
      rintro rfl
      rw [hcall] at hholds
      cases hholds
    obtain ⟨s', hleads, hmoves⟩ := exists_holder_return h hholds
    have hinv' := managerInvariant_of_reachable (h.leads hleads)
    refine ⟨s', hleads, (hmoves.others t hother ht).trans hcall, ?_⟩
    -- another holder would have had the mutex before
    refine Option.eq_none_iff_forall_ne_some.mpr fun v hv => ?_
    have hv := (hinv'.mutex v).mp hv
    by_cases hvu : v = u
    · rw [hvu, hmoves.call] at hv
      cases hv
    · rw [hmoves.others v hvu (hinv'.isWorker_eq_false hv)] at hv
      exact hvu (hinv.mutex.eq hv hholds)

/-- A call that waits for the mutex returns. -/
theorem exists_locking_return {start : Bool} (h : (managerSystem Tid options).Reachable s)
    (hcall : s.calls t = .locking start) (ht : t.isWorker = false) :
    ∃ s', (managerSystem Tid options).Leads s s' ∧ s'.calls t = .none := by
  obtain ⟨s₁, hleads₁, hcall₁, hfree⟩ := exists_mutex_free h hcall ht
  have hlock : s₁.step (.proceed t false) = some
      { s₁ with
        lifecycleMutex := some t
        calls := Function.update s₁.calls t (.checking start) } := by
    show (s₁.manager.lifecycleStep _ (s₁.calls t) false).bind _ = _
    rw [hcall₁]
    show (ScopedLock.pass s₁.lifecycleMutex t (s₁.calls t).holds true).map _ = _
    rw [hcall₁, hfree]
    rfl
  have hleads₂ := hleads₁.trans (leads_of_step hlock)
  obtain ⟨s', hleads, hmoves⟩ := exists_holder_return (t := t) (h.leads hleads₂) (by
    show (Function.update s₁.calls t (.checking start) t).holds = true
    rw [Function.update_self]
    rfl)
  exact ⟨s', hleads₂.trans hleads, hmoves.call⟩

/-- Every call returns. -/
theorem exists_return (h : (managerSystem Tid options).Reachable s) (t : ManagerThread Tid) :
    ∃ s', (managerSystem Tid options).Leads s s' ∧ s'.calls t = .none := by
  have hinv := managerInvariant_of_reachable h
  cases t with
  | accept => exact ⟨s, .refl s, hinv.accept⟩
  | worker i =>
    obtain ⟨s', hleads, -, hnone⟩ := exists_handler_return h i
    exact ⟨s', hleads, hnone⟩
  | external t =>
    cases hcall : s.calls (.external t) with
    | none => exact ⟨s, .refl s, hcall⟩
    | entering start =>
      have hstep : s.manager.lifecycleStep (s.manager.isInHandler (.external t))
          (s.calls (.external t)) false = some (s.manager, .locking start) := by
        rw [hcall]
        rfl
      obtain ⟨s₁, hleads₁, hmoves₁⟩ := exists_callMoves options hstep (.inr rfl)
      obtain ⟨s', hleads, hnone⟩ := exists_locking_return (h.leads hleads₁) hmoves₁.call rfl
      exact ⟨s', hleads₁.trans hleads, hnone⟩
    | requesting =>
      have hstep : s.manager.lifecycleStep (s.manager.isInHandler (.external t))
          (s.calls (.external t)) false = some ({ s.manager with running := false }, .none) := by
        rw [hcall]
        rfl
      obtain ⟨s₁, hleads₁, hmoves₁⟩ := exists_callMoves options hstep (.inr rfl)
      exact ⟨s₁, hleads₁, hmoves₁.call⟩
    | locking start => exact exists_locking_return h hcall rfl
    | _ =>
      obtain ⟨s', hleads, hmoves⟩ := exists_holder_return h (t := .external t) (by
        rw [hcall]
        rfl)
      exact ⟨s', hleads, hmoves.call⟩

end ManagerRun
end RobotMiddleware
