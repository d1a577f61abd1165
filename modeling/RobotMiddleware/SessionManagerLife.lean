import RobotMiddleware.SessionProgress

/-! The counters, the identifiers and the threads of a `TcpSessionManager` over whole runs. -/
namespace RobotMiddleware
namespace SessionManager
variable {m : SessionManager} {session : ℕ}

/-- Neither the accept thread nor a worker is between two counters. -/
structure IsSettled (m : SessionManager) : Prop where
  counted : m.acceptThread.counted = .none
  pending : m.acceptThread.pending = .none
  workers : ∀ i, (m.records i).worker ≠ .countingDisconnected

theorem IsSettled.not_ending (h : m.IsSettled) (i : ℕ) : ¬ m.IsEnding i := by
  rintro (hworker | hpending)
  · exact h.workers i hworker
  · rw [h.pending] at hpending
    cases hpending

structure Ended (m : SessionManager) : Prop where
  acceptThread : m.acceptThread.isOver = true
  workers : ∀ i, (m.records i).worker.isOver = true
  sessions : m.sessions = []
  active : m.active = 0
  accepted : m.accepted = m.disconnected

theorem Accounts.length_le (h : m.Accounts) : m.history.accepted.length ≤ m.created := by
  have hsubset : ∀ i ∈ m.history.accepted, i ∈ List.range m.created :=
    fun i hi => List.mem_range.mpr (h.made i hi)
  have hlength := (List.subperm_of_subset h.ledger.admitted.nodup_first hsubset).length_le
  rwa [List.length_range] at hlength

/-- Where every thread has been joined. -/
theorem AllJoined.ended {snapshots : ℕ → Prop} (h : m.AllJoined) (hthreads : m.Threads snapshots)
    (haccounts : m.Accounts) : m.Ended := by
  have hover := hthreads.accept h.accept
  have hworkers (i : ℕ) : (m.records i).worker.isOver = true := hthreads.workers i (h.workers i)
  obtain ⟨hcounted, hslot, hpending, -⟩ :=
    AcceptLoop.eq_none_of_current (AcceptLoop.eq_of_isOver hover).2.1
  have hsettled : m.IsSettled := by
    refine ⟨hcounted, hpending, fun i hi => ?_⟩
    have hi' := hworkers i
    rw [hi] at hi'
    cases hi'
  have hnone (i : ℕ) : ¬ m.HasSlot i := by
    rintro (hworker | hi)
    · have hi := hworkers i
      cases hw : (m.records i).worker <;> rw [hw] at hworker hi <;>
        first | cases hworker; done | cases hi
    · rw [hslot] at hi
      cases hi
  refine ⟨hover, hworkers, h.sessions, haccounts.ledger.active_eq_zero hnone,
    haccounts.ledger.accepted_eq_disconnected (fun i => ?_) hnone hsettled.not_ending⟩
  rw [hcounted]
  nofun

/-- Identifiers only repeat after 2^64 sessions. -/
theorem Identified.nodup (h : m.Identified) (hfew : m.created ≤ 2 ^ 64) : m.ids.Nodup := by
  rw [h.ids]
  refine List.nodup_range.map_on fun i hi j hj hij => ?_
  have hi := List.mem_range.mp hi
  have hj := List.mem_range.mp hj
  have hid := congrArg BitVec.toNat hij
  simp only [sessionId, BitVec.toNat_ofNat] at hid
  omega

end SessionManager

namespace ManagerRun
variable {Tid : Type} [DecidableEq Tid] {s s' : ManagerRun Tid} {options : TcpSessionManagerOptions}

/-- The counters agree with each other, a slot is taken and given back once, identifiers are new,
nobody joins itself, every call can return, and an external `stop` leaves nothing behind. -/
theorem session_manager_life (h : (managerSystem Tid options).Reachable s) :
    s.manager.active ≤ options.maxClients ∧
      (s.manager.created < 2 ^ 64 →
        s.manager.active + s.manager.disconnected.toNat ≤ s.manager.accepted.toNat ∧
        (s.manager.IsSettled →
          s.manager.active + s.manager.disconnected.toNat = s.manager.accepted.toNat) ∧
        s.manager.ids.Nodup) ∧
      s.manager.ids = (List.range s.manager.created).map (fun i => (s.manager.records i).id) ∧
      PassedBetween s.manager.history.taken s.manager.history.givenBack s.manager.HasSlot ∧
      s.manager.active + s.manager.history.givenBack.length = s.manager.history.taken.length ∧
      (∀ t u, s.Joins t u → t ≠ u) ∧
      (∀ t, ∃ s', (managerSystem Tid options).Leads s s' ∧ s'.calls t = .none) ∧
      (∀ i, s.calls (.worker i) ≠ .none → ∃ s', s.step (.proceed (.worker i) false) = some s') ∧
      (∀ t failed s', s.calls t = .unlocking false → s.step (.proceed t failed) = some s' →
        s'.lifecycleMutex = none ∧ s'.manager.Ended) := by
  have hinv := managerInvariant_of_reachable h
  have haccounts := accounts_of_reachable h
  have hids := identified_of_reachable h
  have hledger := haccounts.ledger
  refine ⟨?_, fun hfew => ?_, ?_, hledger.slots, hledger.active_eq,
    fun t u hjoins => hinv.joins_ne hjoins, fun t => exists_return h t, fun i hbusy => ?_,
    fun t failed s' hcall hs => ?_⟩
  · rw [← options_of_reachable h]
    exact haccounts.bound
  · have hlength := haccounts.length_le.trans_lt hfew
    refine ⟨hledger.active_add_disconnected_le hlength, fun hsettled => ?_, hids.nodup hfew.le⟩
    refine hledger.active_add_disconnected_eq hlength (fun i => ?_) hsettled.not_ending
    rw [hsettled.counted]
    nofun
  · rw [hids.ids]
    exact List.map_congr_left fun i hi => (hids.records i (List.mem_range.mp hi)).symm
  · obtain ⟨s', -, hstep, -⟩ := hinv.exists_handler_step hbusy
    exact ⟨s', hstep⟩
  · obtain ⟨⟨m, call⟩, hstep, hmove⟩ := Option.bind_eq_some_iff.mp hs
    have hjoined := hinv.calls t
    rw [hcall] at hstep hjoined
    cases failed with
    | true => cases hstep
    | false =>
      cases hstep
      obtain ⟨hmanager, -, hpass⟩ := exists_of_move hmove
      rw [hcall] at hpass
      rw [hmanager]
      exact ⟨(Option.some.inj hpass).symm,
        SessionManager.AllJoined.ended hjoined hinv.threads haccounts⟩

/-- A call of `start`, a client that is served, one too many, a handler that stops the manager, a
restart in which no worker can be created, and an external `stop`. -/
theorem session_manager_life_restarted : ∃ s s' : ManagerRun Unit,
    s.calls (.external ()) = .unlocking false ∧
      s.step (.proceed (.external ()) false) = some s' ∧
      s.manager.ids = [1, 2] ∧ s.manager.stats.rejectedClients = 1 ∧
      s'.lifecycleMutex = none ∧ s'.manager.Ended := by
  let proceed (n : ℕ) : List (ManagerAction Unit) :=
    List.replicate n (.proceed (.external ()) false)
  let accept (n : ℕ) : List (ManagerAction Unit) := List.replicate n (.accept .next)
  let work (n : ℕ) : List (ManagerAction Unit) := List.replicate n (.session 0 .next)
  let starting : List (ManagerAction Unit) := .call (.external ()) true :: proceed 9
  let client : List (ManagerAction Unit) := accept 1 ++ .accept (.connection true) :: accept 1
  let serving : List (ManagerAction Unit) :=
    client ++ accept 9 ++ client ++ accept 1 ++
      .session 0 (.enter 0) :: work 1 ++ .session 0 (.receive (some {}) 1) :: work 1 ++
      .call (.worker 0) false :: List.replicate 2 (.proceed (.worker 0) false) ++
      .session 0 (.handled true) :: work 8 ++ accept 5
  let failing : List (ManagerAction Unit) := client ++ accept 5 ++ .accept .fail :: accept 4
  let stopping : List (ManagerAction Unit) :=
    .call (.external ()) false :: proceed 3 ++ accept 4 ++ proceed 3
  obtain ⟨s, hs, hp⟩ := (managerSystem Unit { maxClients := 1 }).exists_reachable_of_run
    { manager := { options := { maxClients := 1 } } }
    (starting ++ serving ++ starting ++ failing ++ stopping)
    (fun s => s.calls (.external ()) = .unlocking false &&
      (s.step (.proceed (.external ()) false)).isSome && s.manager.ids = [1, 2] &&
      s.manager.stats.rejectedClients = 1)
    ⟨rfl, rfl⟩ (by decide +kernel)
  simp only [Bool.and_eq_true, decide_eq_true_iff, Option.isSome_iff_exists] at hp
  obtain ⟨⟨⟨hcall, s', hstep⟩, hids⟩, hrejected⟩ := hp
  obtain ⟨-, -, -, -, -, -, -, -, hreleased⟩ := session_manager_life hs
  exact ⟨s, s', hcall, hstep, hids, hrejected, hreleased _ _ s' hcall hstep⟩

/-- Any number of sessions can be made, here of clients that cannot be prepared. -/
theorem exists_reachable_sessions (count : ℕ) : ∃ s : ManagerRun Unit,
    (managerSystem Unit {}).Reachable s ∧ s.manager.created = count ∧
      s.manager.acceptThread = .checking ∧ s.manager.running = true ∧ s.manager.active = 0 := by
  induction count with
  | zero =>
    obtain ⟨s, hs, hp⟩ := (managerSystem Unit {}).exists_reachable_of_run
      { manager := { options := {} } }
      (.call (.external ()) true :: List.replicate 9 (.proceed (.external ()) false))
      (fun s => s.manager.created = 0 && s.manager.acceptThread = .checking &&
        s.manager.running && s.manager.active = 0) ⟨rfl, rfl⟩ (by decide +kernel)
    simp only [Bool.and_eq_true, decide_eq_true_iff] at hp
    obtain ⟨⟨⟨hcreated, hloop⟩, hrunning⟩, hactive⟩ := hp
    exact ⟨s, hs, hcreated, hloop, hrunning, hactive⟩
  | succ count ih =>
    obtain ⟨s, hs, hcreated, hloop, hrunning, hactive⟩ := ih
    have hroom : s.manager.options.maxClients = 64 := by rw [options_of_reachable hs]
    have hrun : ∃ s', (managerSystem Unit {}).run s
          [.accept .next, .accept (.connection true), .accept .next, .accept .next,
            .accept .fail, .accept .next] = some s' ∧
        s'.manager.created = s.manager.created + 1 ∧ s'.manager.acceptThread = .checking ∧
        s'.manager.running = true ∧ s'.manager.active = 0 := by
      simp [TransitionSystem.run, managerSystem, ManagerRun.step, SessionManager.acceptStep,
        SessionManager.setAccept, SessionManager.create, hloop, hrunning, hactive, hroom]
    obtain ⟨s', hrun, hcreated', hloop', hrunning', hactive'⟩ := hrun
    exact ⟨s', hs.run hrun, by rw [hcreated', hcreated], hloop', hrunning', hactive'⟩

/-- The counter of the identifiers wraps: 1 is given out again after 2^64 sessions. -/
theorem session_id_reused : ¬ ∀ s : ManagerRun Unit,
    (managerSystem Unit {}).Reachable s → s.manager.ids.Nodup := by
  intro hall
  obtain ⟨s, hs, hcreated, -⟩ := exists_reachable_sessions (2 ^ 64 + 1)
  have hnodup := hall s hs
  rw [(identified_of_reachable hs).ids, hcreated] at hnodup
  have hfirst : 0 ∈ List.range (2 ^ 64 + 1) := List.mem_range.mpr (by omega)
  have hlast : 2 ^ 64 ∈ List.range (2 ^ 64 + 1) := List.mem_range.mpr (by omega)
  have hsame : sessionId 0 = sessionId (2 ^ 64) := by
    apply BitVec.eq_of_toNat_eq
    simp only [sessionId, BitVec.toNat_ofNat]
    omega
  have heq := List.inj_on_of_nodup_map hnodup hfirst hlast hsame
  omega

end ManagerRun
end RobotMiddleware
