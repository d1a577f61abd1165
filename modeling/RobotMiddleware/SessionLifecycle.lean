import RobotMiddleware.SessionManagerModel

/-! Which threads of a `TcpSessionManager` may run while a call of `start` or `stop` is at a point,
and who joins them. -/
namespace RobotMiddleware

/-- The worker has not been started, or has ended. -/
def SessionWorker.isOver : SessionWorker → Bool
  | .none | .left => true
  | _ => false

namespace AcceptLoop

def isOver : AcceptLoop → Bool
  | .none | .left => true
  | _ => false

/-- The sessions that the reaper has taken out of the list and not joined yet. -/
def finished : AcceptLoop → List ℕ
  | .scanning _ _ finished | .joining _ finished => finished
  | _ => []

def current : AcceptLoop → Option ℕ
  | .preparing session | .pushing session | .countingAccepted session | .countingActive session
  | .starting session | .deactivating session | .uncounting session
  | .countingDisconnected session | .erasing session => some session
  | _ => .none

def pushed : AcceptLoop → Option ℕ
  | .countingAccepted session | .countingActive session | .starting session => some session
  | _ => .none

def fresh : AcceptLoop → Option ℕ
  | .preparing session | .pushing session | .countingAccepted session => some session
  | _ => .none

def opening : AcceptLoop → Option ℕ
  | .preparing session | .pushing session | .countingAccepted session | .countingActive session
  | .starting session => some session
  | _ => .none

/-- The session that is counted in `accepted` and not yet in `active`. -/
def counted : AcceptLoop → Option ℕ
  | .countingActive session => some session
  | _ => .none

/-- The session without a worker that has a slot. -/
def slot : AcceptLoop → Option ℕ
  | .starting session | .deactivating session | .uncounting session => some session
  | _ => .none

/-- The session that gave its slot back and is not yet counted in `disconnected`. -/
def pending : AcceptLoop → Option ℕ
  | .countingDisconnected session => some session
  | _ => .none

/-- Between the test of the capacity and the slot that it is for. -/
def isAdmitting : AcceptLoop → Bool
  | .creating | .preparing _ | .pushing _ | .countingAccepted _ | .countingActive _ => true
  | _ => false

/-- A move that neither counts nor lists a session; it may drop one that was not counted. -/
structure Keeps (loop loop' : AcceptLoop) : Prop where
  finished : loop'.finished = loop.finished
  counted : loop'.counted = loop.counted
  slot : loop'.slot = loop.slot
  pending : loop'.pending = loop.pending
  current : loop'.current = loop.current ∨ loop'.current = .none
  pushed : loop'.pushed = loop.pushed ∨ loop'.pushed = .none
  fresh : loop'.fresh = loop.fresh ∨ loop'.fresh = .none
  opening : loop'.opening = loop.opening ∨ loop'.opening = .none
  started : loop' ≠ .none

theorem eq_none_of_current {loop : AcceptLoop} (h : loop.current = .none) :
    loop.counted = .none ∧ loop.slot = .none ∧ loop.pending = .none ∧ loop.pushed = .none ∧
      loop.fresh = .none ∧ loop.opening = .none := by
  cases loop <;> first | exact ⟨rfl, rfl, rfl, rfl, rfl, rfl⟩ | cases h

/-- A move while no session is being made. -/
theorem Keeps.quiet {loop loop' : AcceptLoop} (hbefore : loop.current = .none)
    (hafter : loop'.current = .none) (hfinished : loop'.finished = loop.finished)
    (hstarted : loop' ≠ .none) : loop.Keeps loop' := by
  obtain ⟨hcounted, hslot, hpending, -⟩ := eq_none_of_current hbefore
  obtain ⟨hcounted', hslot', hpending', hpushed', hfresh', hopening'⟩ := eq_none_of_current hafter
  exact ⟨hfinished, hcounted'.trans hcounted.symm, hslot'.trans hslot.symm,
    hpending'.trans hpending.symm, .inr hafter, .inr hpushed', .inr hfresh', .inr hopening',
    hstarted⟩

end AcceptLoop

/-- In the part of `session_loop` before the exchange of `session->active`. -/
def SessionWorker.works : SessionWorker → Bool
  | .entering | .looping _ _ | .caught _ | .closing | .exchanging => true
  | _ => false

def LifecycleCall.snapshot : LifecycleCall → List ℕ
  | .joining _ snapshot => snapshot
  | _ => []

/-- The phases of a call in a handler, which never waits for anything. -/
def LifecycleCall.isRequest : LifecycleCall → Bool
  | .none | .entering _ | .requesting => true
  | _ => false

namespace SessionManager
variable {m m' : SessionManager} {call call' : LifecycleCall} {session : ℕ}

structure AllJoined (m : SessionManager) : Prop where
  accept : m.acceptJoinable = false
  sessions : m.sessions = []
  workers : ∀ i, (m.records i).joinable = false

def CallAt (m : SessionManager) : LifecycleCall → Prop
  | .joiningAccept _ => m.running = false
  | .swapping _ => m.running = false ∧ m.acceptJoinable = false
  | .joining _ _ => m.running = false ∧ m.acceptJoinable = false ∧ m.sessions = []
  | .setRunning => m.running = false ∧ m.AllJoined
  | .unlocking false | .creating | .restoring => m.AllJoined
  | _ => True

/-- A step of another thread, which finds nothing to do where all has been joined. -/
theorem CallAt.beside (h : m.CallAt call) (hrunning : m.running = false → m'.running = false)
    (haccept : m'.acceptJoinable = m.acceptJoinable)
    (hsessions : m.acceptJoinable = false → m'.sessions = m.sessions)
    (hworkers : m.acceptJoinable = false →
      ∀ i, (m.records i).joinable = false → (m'.records i).joinable = false) :
    m'.CallAt call := by
  have hjoined (hjoined : m.AllJoined) : m'.AllJoined :=
    ⟨haccept.trans hjoined.accept, (hsessions hjoined.accept).trans hjoined.sessions,
      fun i => hworkers hjoined.accept i (hjoined.workers i)⟩
  cases call with
  | none | entering | requesting | locking | checking => trivial
  | joiningAccept start => exact hrunning h
  | swapping start => exact ⟨hrunning h.1, haccept.trans h.2⟩
  | joining start snapshot =>
    exact ⟨hrunning h.1, haccept.trans h.2.1, (hsessions h.2.1).trans h.2.2⟩
  | setRunning => exact ⟨hrunning h.1, hjoined h.2⟩
  | creating | restoring => exact hjoined h
  | unlocking start =>
    cases start with
    | true => trivial
    | false => exact hjoined h

theorem CallAt.of_not_holds (h : call.holds = false) : m.CallAt call := by
  cases call <;> trivial

/-- The threads by what may be done with them: only joinable ones run, and a joinable worker is in
the list, with the reaper, or with a call that has taken it over. -/
structure Threads (m : SessionManager) (snapshots : ℕ → Prop) : Prop where
  accept : m.acceptJoinable = false → m.acceptThread.isOver = true
  workers : ∀ i, (m.records i).joinable = false → (m.records i).worker.isOver = true
  started : ∀ i, (m.records i).joinable = true → (m.records i).worker ≠ .none
  tracked : ∀ i, (m.records i).joinable = true →
    i ∈ m.sessions ∨ i ∈ m.acceptThread.finished ∨ snapshots i
  current : ∀ i, m.acceptThread.current = some i →
    i < m.created ∧ (m.records i).worker = .none ∧ (m.records i).joinable = false
  pushed : ∀ i, m.acceptThread.pushed = some i → i ∈ m.sessions
  unborn : ∀ i, m.created ≤ i → (m.records i).worker = .none

@[simp] theorem records_setRecord {record : ManagedSession} :
    (m.setRecord session record).records = Function.update m.records session record := rfl

@[simp] theorem records_setWorker {worker : SessionWorker} :
    (m.setWorker session worker).records =
      Function.update m.records session { m.records session with worker := worker } := rfl

@[simp] theorem records_setAccept {acceptThread : AcceptLoop} :
    (m.setAccept acceptThread).records = m.records := rfl

inductive SessionView (m : SessionManager) (session : ℕ) : SessionManager → Prop
  | works (stats : SessionStats) (worker : SessionWorker) :
      (m.records session).worker.works = true → worker.works = true →
      SessionView m session ({ m with stats := stats }.setWorker session worker)
  | exchanged : (m.records session).worker = .exchanging →
      SessionView m session (m.setRecord session { m.records session with
        active := false
        worker := if (m.records session).active then .countingActive else .clearing })
  | gaveBack : (m.records session).worker = .countingActive →
      SessionView m session ((m.giveSlotBack session).setWorker session .countingDisconnected)
  | disconnected : (m.records session).worker = .countingDisconnected →
      SessionView m session ((m.countDisconnected session).setWorker session .clearing)
  | left : (m.records session).worker = .clearing →
      SessionView m session (m.setWorker session .left)

theorem loopStep_view {locals : SessionLocals} {phase : SessionPhase} {action : SessionAction}
    (hworker : (m.records session).worker = .looping locals phase)
    (hs : m.loopStep session locals phase action = some m') : m.SessionView session m' := by
  have hworks : (m.records session).worker.works = true := by
    rw [hworker]
    rfl
  unfold loopStep at hs
  split at hs
  case h_1 =>
    cases hs
    refine .works m.stats _ hworks ?_
    split <;> rfl
  case h_4 =>
    split at hs
    all_goals
      cases hs
      exact .works _ _ hworks rfl
  case h_6 =>
    cases hs
    exact .works m.stats _ hworks rfl
  case h_8 =>
    split at hs
    · cases hs
      exact .works _ _ hworks rfl
    · cases hs
      exact .works m.stats _ hworks rfl
  case h_11 => cases hs
  all_goals
    cases hs
    exact .works _ _ hworks rfl

theorem sessionStep_view {action : SessionAction}
    (hs : m.sessionStep session (m.records session).worker action = some m') :
    m.SessionView session m' := by
  cases hworker : (m.records session).worker with
  | looping locals phase =>
    rw [hworker] at hs
    exact loopStep_view hworker hs
  | none | left => rw [hworker] at hs; cases hs
  | entering =>
    rw [hworker] at hs
    cases action with
    | enter now =>
      cases hs
      exact .works m.stats _ (by rw [hworker]; rfl) rfl
    | _ => cases hs
  | caught orderly =>
    rw [hworker] at hs
    cases action with
    | next =>
      cases hs
      exact .works _ _ (by rw [hworker]; rfl) rfl
    | _ => cases hs
  | closing =>
    rw [hworker] at hs
    cases action with
    | next =>
      cases hs
      exact .works m.stats _ (by rw [hworker]; rfl) rfl
    | _ => cases hs
  | exchanging =>
    rw [hworker] at hs
    cases action with
    | next =>
      cases hs
      exact .exchanged hworker
    | _ => cases hs
  | countingActive =>
    rw [hworker] at hs
    cases action with
    | next =>
      cases hs
      exact .gaveBack hworker
    | _ => cases hs
  | countingDisconnected =>
    rw [hworker] at hs
    cases action with
    | next =>
      cases hs
      exact .disconnected hworker
    | _ => cases hs
  | clearing =>
    rw [hworker] at hs
    cases action with
    | next =>
      cases hs
      exact .left hworker
    | _ => cases hs

inductive AcceptView (m : SessionManager) : SessionManager → Prop
  | moved (stats : SessionStats) (loop : AcceptLoop) : m.acceptThread.Keeps loop →
      (loop.isAdmitting = true →
        m.acceptThread.isAdmitting = true ∨ m.active < m.options.maxClients) →
      AcceptView m ({ m with stats := stats }.setAccept loop)
  | created : m.acceptThread = .creating → AcceptView m (m.create.setAccept (.preparing m.created))
  | listed (session : ℕ) : m.acceptThread = .pushing session →
      AcceptView m
        ({ m with sessions := m.sessions ++ [session] }.setAccept (.countingAccepted session))
  | accepted (session : ℕ) : m.acceptThread = .countingAccepted session →
      AcceptView m ((m.countAccepted session).setAccept (.countingActive session))
  | took (session : ℕ) : m.acceptThread = .countingActive session →
      AcceptView m ((m.takeSlot session).setAccept (.starting session))
  | started (session : ℕ) : m.acceptThread = .starting session →
      AcceptView m ((m.setRecord session
        { m.records session with worker := .entering, joinable := true }).setAccept
          (.scanning false m.sessions []))
  | deactivated (session : ℕ) : m.acceptThread = .deactivating session →
      AcceptView m ((m.setRecord session { m.records session with active := false }).setAccept
        (.uncounting session))
  | gaveBack (session : ℕ) : m.acceptThread = .uncounting session →
      AcceptView m ((m.giveSlotBack session).setAccept (.countingDisconnected session))
  | disconnected (session : ℕ) : m.acceptThread = .countingDisconnected session →
      AcceptView m ((m.countDisconnected session).setAccept (.erasing session))
  | erased (session : ℕ) : m.acceptThread = .erasing session →
      AcceptView m ({ m with sessions := m.sessions.filter (· ≠ session) }.setAccept .caught)
  | reaped (last : Bool) (session : ℕ) (rest finished : List ℕ) :
      m.acceptThread = .scanning last (session :: rest) finished →
      AcceptView m ({ m with sessions := m.sessions.erase session }.setAccept
        (.scanning last rest (finished ++ [session])))
  | joined (last : Bool) (session : ℕ) (finished : List ℕ) :
      m.acceptThread = .joining last (session :: finished) →
      (m.records session).worker = .left →
      AcceptView m ((m.setRecord session { m.records session with joinable := false }).setAccept
        (.joining last finished))
  | skipped (last : Bool) (session : ℕ) (finished : List ℕ) :
      m.acceptThread = .joining last (session :: finished) →
      (m.records session).joinable = false → AcceptView m (m.setAccept (.joining last finished))

theorem acceptStep_view {loop : AcceptLoop} {action : AcceptAction} (hloop : m.acceptThread = loop)
    (hs : m.acceptStep loop action = some m') : m.AcceptView m' := by
  have hmove (stats : SessionStats) (loop' : AcceptLoop) (hkeeps : loop.Keeps loop')
      (hadmits : loop'.isAdmitting = true →
        loop.isAdmitting = true ∨ m.active < m.options.maxClients) :
      m.AcceptView ({ m with stats := stats }.setAccept loop') := by
    subst hloop
    exact .moved stats loop' hkeeps hadmits
  have hmoved := hmove m.stats
  cases loop with
  | none | left => cases action <;> cases hs
  | checking =>
    cases action with
    | next =>
      cases hs
      refine hmoved _ ?_ ?_
      · split <;> exact .quiet rfl rfl rfl nofun
      · split <;> exact nofun
    | _ => cases hs
  | accepting =>
    cases action with
    | next => cases hs
    | connection accepted =>
      cases hs
      refine hmoved _ ?_ ?_
      · split <;> exact .quiet rfl rfl rfl nofun
      · split <;> exact nofun
    | fail =>
      cases hs
      exact hmoved _ (.quiet rfl rfl rfl nofun) nofun
  | testing =>
    cases action with
    | next =>
      cases hs
      refine hmoved _ ?_ ?_
      · split <;> exact .quiet rfl rfl rfl nofun
      · split
        case isTrue => exact nofun
        case isFalse hroom => exact fun _ => .inr (Nat.lt_of_not_le hroom)
    | _ => cases hs
  | rejecting =>
    cases action with
    | next =>
      cases hs
      exact hmove _ _ (.quiet rfl rfl rfl nofun) nofun
    | _ => cases hs
  | creating =>
    cases action with
    | next =>
      cases hs
      exact .created hloop
    | fail =>
      cases hs
      exact hmoved _ (.quiet rfl rfl rfl nofun) nofun
    | _ => cases hs
  | preparing session =>
    cases action with
    | next =>
      cases hs
      exact hmoved _ ⟨rfl, rfl, rfl, rfl, .inl rfl, .inl rfl, .inl rfl, .inl rfl, nofun⟩
        fun _ => .inl rfl
    | fail =>
      cases hs
      exact hmoved _ ⟨rfl, rfl, rfl, rfl, .inr rfl, .inl rfl, .inr rfl, .inr rfl, nofun⟩ nofun
    | _ => cases hs
  | pushing session =>
    cases action with
    | next =>
      cases hs
      exact .listed session hloop
    | fail =>
      cases hs
      exact hmoved _ ⟨rfl, rfl, rfl, rfl, .inr rfl, .inl rfl, .inr rfl, .inr rfl, nofun⟩ nofun
    | _ => cases hs
  | countingAccepted session =>
    cases action with
    | next =>
      cases hs
      exact .accepted session hloop
    | _ => cases hs
  | countingActive session =>
    cases action with
    | next =>
      cases hs
      exact .took session hloop
    | _ => cases hs
  | starting session =>
    cases action with
    | next =>
      cases hs
      exact .started session hloop
    | fail =>
      cases hs
      exact hmoved _ ⟨rfl, rfl, rfl, rfl, .inl rfl, .inr rfl, .inl rfl, .inr rfl, nofun⟩ nofun
    | _ => cases hs
  | deactivating session =>
    cases action with
    | next =>
      cases hs
      exact .deactivated session hloop
    | _ => cases hs
  | uncounting session =>
    cases action with
    | next =>
      cases hs
      exact .gaveBack session hloop
    | _ => cases hs
  | countingDisconnected session =>
    cases action with
    | next =>
      cases hs
      exact .disconnected session hloop
    | _ => cases hs
  | erasing session =>
    cases action with
    | next =>
      cases hs
      exact .erased session hloop
    | _ => cases hs
  | scanning last rest finished =>
    cases action with
    | next =>
      cases rest with
      | nil =>
        cases hs
        exact hmoved _ (.quiet rfl rfl rfl nofun) nofun
      | cons session rest =>
        simp only [acceptStep] at hs
        split at hs
        · cases hs
          exact hmoved _ (.quiet rfl rfl rfl nofun) nofun
        · cases hs
          exact .reaped last session rest finished hloop
    | _ => cases rest <;> cases hs
  | joining last finished =>
    cases action with
    | next =>
      cases finished with
      | nil =>
        cases hs
        refine hmoved _ ?_ ?_
        · split <;> exact .quiet rfl rfl rfl nofun
        · split <;> exact nofun
      | cons session finished =>
        simp only [acceptStep] at hs
        split at hs
        case isTrue =>
          obtain ⟨hleft, hs⟩ := Option.ite_none_right_eq_some.mp hs
          cases hs
          exact .joined last session finished hloop hleft
        case isFalse hjoined =>
          cases hs
          exact .skipped last session finished hloop (Bool.eq_false_of_not_eq_true hjoined)
    | _ => cases finished <;> cases hs
  | caught =>
    cases action with
    | next =>
      cases hs
      exact hmove _ _ (.quiet rfl rfl rfl nofun) nofun
    | _ => cases hs

/-- A worker goes on. -/
theorem Threads.setRecord {snapshots : ℕ → Prop} {record : ManagedSession}
    (h : m.Threads snapshots) (hrunning : (m.records session).worker.isOver = false)
    (hjoinable : record.joinable = (m.records session).joinable) (hworker : record.worker ≠ .none) :
    (m.setRecord session record).Threads snapshots := by
  have hstarted : record.joinable = true := by
    by_contra hfalse
    rw [Bool.not_eq_true, hjoinable] at hfalse
    rw [h.workers session hfalse] at hrunning
    cases hrunning
  have hcases (i : ℕ) : i = session ∧ (m.setRecord session record).records i = record ∨
      i ≠ session ∧ (m.setRecord session record).records i = m.records i := by
    by_cases hi : i = session
    · subst hi
      exact .inl ⟨rfl, by simp⟩
    · exact .inr ⟨hi, by simp [hi]⟩
  refine ⟨h.accept, fun i hi => ?_, fun i hi => ?_, fun i hi => ?_, fun i hi => ?_, h.pushed,
    fun i hi => ?_⟩
  · rcases hcases i with ⟨rfl, hrecord⟩ | ⟨-, hrecord⟩ <;> rw [hrecord] at hi ⊢
    · rw [hstarted] at hi
      cases hi
    · exact h.workers i hi
  · rcases hcases i with ⟨rfl, hrecord⟩ | ⟨-, hrecord⟩ <;> rw [hrecord] at hi ⊢
    · exact hworker
    · exact h.started i hi
  · rcases hcases i with ⟨rfl, hrecord⟩ | ⟨-, hrecord⟩ <;> rw [hrecord] at hi
    · exact h.tracked i (hjoinable ▸ hi)
    · exact h.tracked i hi
  · rcases hcases i with ⟨rfl, -⟩ | ⟨-, hrecord⟩
    · rw [(h.current i hi).2.1] at hrunning
      cases hrunning
    · rw [hrecord]
      exact h.current i hi
  · rcases hcases i with ⟨rfl, -⟩ | ⟨-, hrecord⟩
    · rw [h.unborn i hi] at hrunning
      cases hrunning
    · rw [hrecord]
      exact h.unborn i hi

/-- A step of a worker. -/
theorem Threads.sessionStep {snapshots : ℕ → Prop} (h : m.Threads snapshots)
    (hview : m.SessionView session m') : m'.Threads snapshots := by
  cases hview with
  | works stats worker hbefore hafter =>
    have hstats : Threads { m with stats := stats } snapshots := { h with }
    refine hstats.setRecord ?_ rfl ?_
    · show (m.records session).worker.isOver = false
      cases hworker : (m.records session).worker <;> rw [hworker] at hbefore <;>
        first | rfl | cases hbefore
    · show worker ≠ .none
      rintro rfl
      cases hafter
  | exchanged hworker =>
    refine h.setRecord (by rw [hworker]; rfl) rfl ?_
    show (if (m.records session).active then SessionWorker.countingActive else .clearing) ≠ .none
    split <;> nofun
  | gaveBack hworker =>
    have hgiven : Threads (m.giveSlotBack session) snapshots := { h with }
    exact hgiven.setRecord (show (m.records session).worker.isOver = false by rw [hworker]; rfl)
      rfl nofun
  | disconnected hworker =>
    have hcounted : Threads (m.countDisconnected session) snapshots := { h with }
    exact hcounted.setRecord (show (m.records session).worker.isOver = false by rw [hworker]; rfl)
      rfl nofun
  | left hworker => exact h.setRecord (by rw [hworker]; rfl) rfl nofun

/-- A worker that has ended is joined. -/
theorem Threads.join {snapshots : ℕ → Prop} (h : m.Threads snapshots)
    (hleft : (m.records session).worker = .left) :
    (m.setRecord session { m.records session with joinable := false }).Threads snapshots := by
  have hcases (i : ℕ) : i = session ∨ (m.setRecord session
      { m.records session with joinable := false }).records i = m.records i := by
    by_cases hi : i = session
    · exact .inl hi
    · exact .inr (by simp [hi])
  have hworker (i : ℕ) : ((m.setRecord session
      { m.records session with joinable := false }).records i).worker = (m.records i).worker := by
    rcases hcases i with rfl | hrecord
    · simp
    · rw [hrecord]
  have hjoined : ((m.setRecord session
      { m.records session with joinable := false }).records session).joinable = false := by simp
  refine ⟨h.accept, fun i hi => ?_, fun i hi => ?_, fun i hi => ?_, fun i hi => ?_, h.pushed,
    fun i hi => (hworker i).trans (h.unborn i hi)⟩
  · rw [hworker]
    rcases hcases i with rfl | hrecord
    · rw [hleft]
      rfl
    · exact h.workers i (hrecord ▸ hi)
  · rcases hcases i with rfl | hrecord
    · rw [hjoined] at hi
      cases hi
    · rw [hrecord] at hi ⊢
      exact h.started i hi
  · rcases hcases i with rfl | hrecord
    · rw [hjoined] at hi
      cases hi
    · exact h.tracked i (hrecord ▸ hi)
  · rw [hworker]
    refine ⟨(h.current i hi).1, (h.current i hi).2.1, ?_⟩
    rcases hcases i with rfl | hrecord
    · exact hjoined
    · rw [hrecord]
      exact (h.current i hi).2.2

/-- The accept thread moves on and changes the lists only. -/
theorem Threads.relist {snapshots : ℕ → Prop} (h : m.Threads snapshots)
    (hworker : ∀ i, (m'.records i).worker = (m.records i).worker)
    (hjoinable : ∀ i, (m'.records i).joinable = (m.records i).joinable)
    (hcreated : m'.created = m.created) (hrunning : m'.acceptJoinable = true)
    (htracked : ∀ i, (m.records i).joinable = true →
      i ∈ m.sessions ∨ i ∈ m.acceptThread.finished →
        i ∈ m'.sessions ∨ i ∈ m'.acceptThread.finished)
    (hcurrent : ∀ i, m'.acceptThread.current = some i → m.acceptThread.current = some i)
    (hpushed : ∀ i, m'.acceptThread.pushed = some i → i ∈ m'.sessions) :
    m'.Threads snapshots where
  accept hover := by
    rw [hrunning] at hover
    cases hover
  workers i := by
    rw [hworker, hjoinable]
    exact h.workers i
  started i := by
    rw [hworker, hjoinable]
    exact h.started i
  tracked i hi := by
    rw [hjoinable] at hi
    rcases h.tracked i hi with hlisted | hfinished | hsnapshot
    · rcases htracked i hi (.inl hlisted) with hin | hin
      · exact .inl hin
      · exact .inr (.inl hin)
    · rcases htracked i hi (.inr hfinished) with hin | hin
      · exact .inl hin
      · exact .inr (.inl hin)
    · exact .inr (.inr hsnapshot)
  current i hi := by
    rw [hworker, hjoinable, hcreated]
    exact h.current i (hcurrent i hi)
  pushed := hpushed
  unborn i hi := (hworker i).trans (h.unborn i (hcreated ▸ hi))

/-- A new session has no worker yet. -/
theorem Threads.create {snapshots : ℕ → Prop} (h : m.Threads snapshots)
    (hrunning : m.acceptJoinable = true) (hloop : m.acceptThread = .creating) :
    (m.create.setAccept (.preparing m.created)).Threads snapshots := by
  have hcases (i : ℕ) : i = m.created ∧
        ((m.create.setAccept (.preparing m.created)).records i).worker = .none ∧
          ((m.create.setAccept (.preparing m.created)).records i).joinable = false ∨
      (m.create.setAccept (.preparing m.created)).records i = m.records i := by
    by_cases hi : i = m.created
    · subst hi
      exact .inl (by simp [SessionManager.create])
    · exact .inr (by simp [SessionManager.create, hi])
  refine ⟨fun hover => ?_, fun i hi => ?_, fun i hi => ?_, fun i hi => ?_, fun i hi => ?_, nofun,
    fun i hi => ?_⟩
  · exact absurd (hrunning.symm.trans hover) nofun
  · rcases hcases i with ⟨rfl, hworker, -⟩ | hrecord
    · rw [hworker]
      rfl
    · rw [hrecord] at hi ⊢
      exact h.workers i hi
  · rcases hcases i with ⟨rfl, -, hjoinable⟩ | hrecord
    · exact absurd (hjoinable.symm.trans hi) nofun
    · rw [hrecord] at hi ⊢
      exact h.started i hi
  · rcases hcases i with ⟨rfl, -, hjoinable⟩ | hrecord
    · exact absurd (hjoinable.symm.trans hi) nofun
    · rw [hrecord] at hi
      have htracked := h.tracked i hi
      rw [hloop] at htracked
      exact htracked
  · obtain rfl := Option.some.inj hi
    rcases hcases m.created with ⟨-, hworker, hjoinable⟩ | hrecord
    · exact ⟨Nat.lt_succ_self _, hworker, hjoinable⟩
    · exact ⟨Nat.lt_succ_self _, by simp [SessionManager.create]⟩
  · rcases hcases i with ⟨-, hworker, -⟩ | hrecord
    · exact hworker
    · rw [hrecord]
      exact h.unborn i (Nat.le_of_succ_le hi)

/-- A session gets its worker, which is tracked by the list. -/
theorem Threads.start {snapshots : ℕ → Prop} (h : m.Threads snapshots)
    (hrunning : m.acceptJoinable = true) (hloop : m.acceptThread = .starting session) :
    ((m.setRecord session
      { m.records session with worker := .entering, joinable := true }).setAccept
        (.scanning false m.sessions [])).Threads snapshots := by
  have hlisted : session ∈ m.sessions := h.pushed session (by rw [hloop]; rfl)
  have hcases (i : ℕ) : i = session ∧ ((m.setRecord session
        { m.records session with worker := .entering, joinable := true }).records i).worker
          = .entering ∧ ((m.setRecord session
        { m.records session with worker := .entering, joinable := true }).records i).joinable
          = true ∨
      (m.setRecord session
        { m.records session with worker := .entering, joinable := true }).records i =
          m.records i := by
    by_cases hi : i = session
    · subst hi
      exact .inl (by simp)
    · exact .inr (by simp [hi])
  have hcurrent := h.current session (by rw [hloop]; rfl)
  refine ⟨fun hover => ?_, fun i hi => ?_, fun i hi => ?_, fun i hi => ?_, nofun, nofun,
    fun i hi => ?_⟩
  · exact absurd (hrunning.symm.trans hover) nofun
  · rw [records_setAccept] at hi ⊢
    rcases hcases i with ⟨rfl, -, hjoinable⟩ | hrecord
    · exact absurd (hjoinable.symm.trans hi) nofun
    · rw [hrecord] at hi ⊢
      exact h.workers i hi
  · rw [records_setAccept] at hi ⊢
    rcases hcases i with ⟨rfl, hworker, -⟩ | hrecord
    · rw [hworker]
      nofun
    · rw [hrecord] at hi ⊢
      exact h.started i hi
  · rw [records_setAccept] at hi
    rcases hcases i with ⟨rfl, -, -⟩ | hrecord
    · exact .inl hlisted
    · rw [hrecord] at hi
      have htracked := h.tracked i hi
      rw [hloop] at htracked
      exact htracked
  · rw [records_setAccept]
    rcases hcases i with ⟨rfl, -, -⟩ | hrecord
    · exact absurd hcurrent.1 (Nat.not_lt_of_le hi)
    · rw [hrecord]
      exact h.unborn i hi

/-- A step of the accept thread. -/
theorem Threads.acceptStep {snapshots : ℕ → Prop} (h : m.Threads snapshots)
    (hover : m.acceptThread.isOver = false) (hview : m.AcceptView m') : m'.Threads snapshots := by
  have hrunning : m.acceptJoinable = true := by
    by_contra hfalse
    rw [h.accept (Bool.eq_false_of_not_eq_true hfalse)] at hover
    cases hover
  cases hview with
  | moved stats loop hkeeps =>
    refine h.relist (fun _ => rfl) (fun _ => rfl) rfl hrunning (fun i _ => ?_) (fun i hi => ?_)
      fun i hi => ?_
    · show _ → _ ∨ i ∈ loop.finished
      rw [hkeeps.finished]
      exact id
    · rcases hkeeps.current with hsame | hnone
      · exact hsame ▸ hi
      · exact absurd (hnone.symm.trans hi) nofun
    · rcases hkeeps.pushed with hsame | hnone
      · exact h.pushed i (hsame ▸ hi)
      · exact absurd (hnone.symm.trans hi) nofun
  | created hloop => exact h.create hrunning hloop
  | listed session hloop =>
    refine h.relist (fun _ => rfl) (fun _ => rfl) rfl hrunning (fun i _ => ?_) (fun i hi => ?_)
      fun i hi => ?_
    · rw [hloop]
      exact Or.imp (List.mem_append_left _) nofun
    · rw [hloop]
      exact hi
    · obtain rfl := Option.some.inj hi
      exact List.mem_append_right _ (List.mem_singleton_self _)
  | accepted session hloop | took session hloop =>
    have hpushed := h.pushed
    rw [hloop] at hpushed
    exact h.relist (fun _ => rfl) (fun _ => rfl) rfl hrunning (fun i _ => by rw [hloop]; exact id)
      (fun i hi => by rw [hloop]; exact hi) hpushed
  | started session hloop => exact h.start hrunning hloop
  | deactivated session hloop =>
    refine h.relist (fun i => ?_) (fun i => ?_) rfl hrunning (fun i _ => by rw [hloop]; exact id)
      (fun i hi => by rw [hloop]; exact hi) nofun
    all_goals
      rw [records_setAccept, records_setRecord, Function.update_apply]
      split
      · rename_i hi
        rw [hi]
      · rfl
  | gaveBack session hloop | disconnected session hloop =>
    exact h.relist (fun _ => rfl) (fun _ => rfl) rfl hrunning (fun i _ => by rw [hloop]; exact id)
      (fun i hi => by rw [hloop]; exact hi) nofun
  | erased session hloop =>
    refine h.relist (fun _ => rfl) (fun _ => rfl) rfl hrunning (fun i hi => ?_) nofun nofun
    rw [hloop]
    have hother : i ≠ session := by
      rintro rfl
      have hcurrent := (h.current i (by rw [hloop]; rfl)).2.2
      exact absurd (hcurrent.symm.trans hi) nofun
    exact Or.imp_left fun hlisted => List.mem_filter.mpr ⟨hlisted, decide_eq_true hother⟩
  | reaped last session rest finished hloop =>
    refine h.relist (fun _ => rfl) (fun _ => rfl) rfl hrunning (fun i hi => ?_) nofun nofun
    rw [hloop]
    rintro (hlisted | hfinished)
    · by_cases hi : i = session
      · exact .inr (List.mem_append_right _ (List.mem_singleton.mpr hi))
      · exact .inl ((List.mem_erase_of_ne hi).mpr hlisted)
    · exact .inr (List.mem_append_left _ hfinished)
  | joined last session finished hloop hleft =>
    have hjoined := h.join hleft
    have hnot : ((m.setRecord session
        { m.records session with joinable := false }).records session).joinable = false := by simp
    refine hjoined.relist (fun _ => rfl) (fun _ => rfl) rfl hrunning (fun i hi => ?_) nofun nofun
    show _ ∨ i ∈ m.acceptThread.finished → _
    rw [hloop]
    refine Or.imp_right fun hfinished => ?_
    rcases List.mem_cons.mp hfinished with rfl | hfinished
    · exact absurd (hnot.symm.trans hi) nofun
    · exact hfinished
  | skipped last session finished hloop hnot =>
    refine h.relist (fun _ => rfl) (fun _ => rfl) rfl hrunning (fun i hi => ?_) nofun nofun
    rw [hloop]
    refine Or.imp_right fun hfinished => ?_
    rcases List.mem_cons.mp hfinished with rfl | hfinished
    · exact absurd (hnot.symm.trans hi) nofun
    · exact hfinished

/-- Only the tracking of joinable workers depends on the calls. -/
theorem Threads.track {before after : ℕ → Prop} (h : m.Threads before)
    (hp : ∀ i, (m.records i).joinable = true → before i → after i) : m.Threads after :=
  { h with
    tracked := fun i hi => (h.tracked i hi).imp_right (.imp_right (hp i hi)) }

end SessionManager

theorem AcceptLoop.eq_of_isOver {loop : AcceptLoop} (h : loop.isOver = true) :
    loop.finished = [] ∧ loop.current = Option.none ∧ loop.pushed = Option.none := by
  cases loop <;> first | exact ⟨rfl, rfl, rfl⟩ | cases h

namespace SessionManager
variable {m m' : SessionManager}

theorem AllJoined.of_joined {snapshots : ℕ → Prop} (h : m.Threads snapshots)
    (haccept : m.acceptJoinable = false) (hsessions : m.sessions = [])
    (hsnapshots : ∀ i, ¬ snapshots i) : m.AllJoined := by
  refine ⟨haccept, hsessions, fun i => ?_⟩
  by_contra hjoinable
  rcases h.tracked i (Bool.eq_true_of_not_eq_false hjoinable) with hlisted | hfinished | hsnapshot
  · rw [hsessions] at hlisted
    cases hlisted
  · rw [(AcceptLoop.eq_of_isOver (h.accept haccept)).1] at hfinished
    cases hfinished
  · exact hsnapshots i hsnapshot

/-- The list is taken over by a call, once the accept thread has been joined. -/
theorem Threads.swap {before after : ℕ → Prop} (h : m.Threads before)
    (haccept : m.acceptJoinable = false) (hlisted : ∀ i ∈ m.sessions, after i)
    (hp : ∀ i, before i → after i) : Threads { m with sessions := [] } after := by
  have hover := AcceptLoop.eq_of_isOver (h.accept haccept)
  refine { h with tracked := fun i hi => ?_, pushed := fun i hi => ?_ }
  · rcases h.tracked i hi with hin | hfinished | hsnapshot
    · exact .inr (.inr (hlisted i hin))
    · exact .inr (.inl hfinished)
    · exact .inr (.inr (hp i hsnapshot))
  · exact absurd (hover.2.2.symm.trans hi) nofun

theorem isInHandler_of_isInUserCode {Tid : Type} {i : ℕ}
    (h : m.isInUserCode (.worker i : ManagerThread Tid) = true) :
    m.isInHandler (.worker i : ManagerThread Tid) = true := by
  unfold isInUserCode at h
  unfold isInHandler
  cases hworker : (m.records i).worker <;> simp_all

end SessionManager

namespace ManagerRun
variable {Tid : Type} [DecidableEq Tid] {s s' : ManagerRun Tid} {t : ManagerThread Tid}

def Snapshot (calls : ManagerThread Tid → LifecycleCall) (i : ℕ) : Prop :=
  ∃ t, i ∈ (calls t).snapshot

structure ManagerInvariant (s : ManagerRun Tid) : Prop where
  mutex : ScopedLock.Held s.lifecycleMutex s.calls LifecycleCall.holds
  calls : ∀ t, s.manager.CallAt (s.calls t)
  threads : s.manager.Threads (Snapshot s.calls)
  accept : s.calls .accept = .none
  handler : ∀ i, s.calls (.worker i) ≠ .none →
    s.manager.isInUserCode (.worker i : ManagerThread Tid) = true ∧
      (s.calls (.worker i)).isRequest = true

theorem exists_of_move {m : SessionManager} {call : LifecycleCall}
    (hs : s.move t m call = some s') :
    s'.manager = m ∧ s'.calls = Function.update s.calls t call ∧
      ScopedLock.pass s.lifecycleMutex t (s.calls t).holds call.holds = some s'.lifecycleMutex := by
  obtain ⟨mutex, hpass, hs⟩ := Option.map_eq_some_iff.mp hs
  subst hs
  exact ⟨rfl, rfl, hpass⟩

/-- One call moves on. -/
theorem ManagerInvariant.move {m : SessionManager} {call : LifecycleCall}
    (h : s.ManagerInvariant) (hs : s.move t m call = some s') (hcall : m.CallAt call)
    (hothers : ∀ u ≠ t, m.CallAt (s.calls u))
    (hthreads : m.Threads (Snapshot (Function.update s.calls t call)))
    (hworkers : ∀ i, (m.records i).worker = (s.manager.records i).worker)
    (hbusy : s.calls t ≠ .none)
    (hrequest : ∀ i, t = .worker i → call.isRequest = true) : s'.ManagerInvariant := by
  obtain ⟨rfl, hcalls, hpass⟩ := exists_of_move hs
  have hcode (i : ℕ) (hi : s.manager.isInUserCode (.worker i : ManagerThread Tid) = true) :
      s'.manager.isInUserCode (.worker i : ManagerThread Tid) = true := by
    unfold SessionManager.isInUserCode at hi ⊢
    simp only [hworkers]
    exact hi
  refine ⟨?_, fun u => ?_, ?_, ?_, fun i hi => ?_⟩
  · rw [hcalls]
    exact h.mutex.pass hpass
  · rw [hcalls]
    by_cases hut : u = t
    · subst hut
      rw [Function.update_self]
      exact hcall
    · rw [Function.update_of_ne hut]
      exact hothers u hut
  · rw [hcalls]
    exact hthreads
  · rw [hcalls, Function.update_of_ne]
    · exact h.accept
    · rintro rfl
      exact hbusy h.accept
  · rw [hcalls] at hi ⊢
    by_cases hit : .worker i = t
    · subst hit
      rw [Function.update_self]
      exact ⟨hcode i (h.handler i hbusy).1, hrequest i rfl⟩
    · rw [Function.update_of_ne hit] at hi ⊢
      exact ⟨hcode i (h.handler i hi).1, (h.handler i hi).2⟩

/-- What is left of the snapshots when a call gives up its own, or a part of it. -/
theorem Snapshot.update {call : LifecycleCall} {i : ℕ} (h : Snapshot s.calls i)
    (hcall : i ∈ (s.calls t).snapshot → i ∈ call.snapshot) :
    Snapshot (Function.update s.calls t call) i := by
  obtain ⟨u, hu⟩ := h
  by_cases hut : u = t
  · subst hut
    exact ⟨u, by rw [Function.update_self]; exact hcall hu⟩
  · exact ⟨u, by rw [Function.update_of_ne hut]; exact hu⟩

omit [DecidableEq Tid] in
/-- A call with the mutex is made by an external thread. -/
theorem ManagerInvariant.others (h : s.ManagerInvariant) (hholds : (s.calls t).holds = true)
    {u : ManagerThread Tid} (hut : u ≠ t) : (s.calls u).holds = false :=
  Bool.eq_false_of_not_eq_true fun hu => hut (h.mutex.eq hu hholds)

omit [DecidableEq Tid] in
theorem ManagerInvariant.not_worker (h : s.ManagerInvariant) (hholds : (s.calls t).holds = true)
    (i : ℕ) : t ≠ .worker i := by
  rintro rfl
  have hbusy : s.calls (.worker i) ≠ .none := by
    intro hnone
    rw [hnone] at hholds
    cases hholds
  have hrequest := (h.handler i hbusy).2
  cases hcall : s.calls (.worker i) <;> rw [hcall] at hholds hrequest <;>
    first | (cases hrequest; done) | cases hholds

theorem snapshot_of_not_holds {call : LifecycleCall} (h : call.holds = false) :
    call.snapshot = [] := by
  cases call <;> first | rfl | cases h

/-- A call without the mutex, which at most ends the loops. -/
theorem ManagerInvariant.free {m : SessionManager} {call : LifecycleCall}
    (h : s.ManagerInvariant) (hs : s.move t m call = some s')
    (hm : m = s.manager ∨ m = { s.manager with running := false })
    (hfree : (s.calls t).holds = false) (hbusy : s.calls t ≠ .none) (hcall : m.CallAt call)
    (hrequest : ∀ i, t = .worker i → call.isRequest = true) : s'.ManagerInvariant := by
  have hkept (i : ℕ) (hi : Snapshot s.calls i) :
      Snapshot (Function.update s.calls t call) i := by
    refine hi.update fun hmem => ?_
    rw [snapshot_of_not_holds hfree] at hmem
    cases hmem
  rcases hm with rfl | rfl
  · exact h.move hs hcall (fun u _ => h.calls u) (h.threads.track fun i _ => hkept i)
      (fun _ => rfl) hbusy hrequest
  · have hthreads : ({ s.manager with running := false } : SessionManager).Threads
        (Snapshot s.calls) := { h.threads with }
    exact h.move hs hcall
      (fun u _ => (h.calls u).beside (fun _ => rfl) rfl (fun _ => rfl) fun _ _ hi => hi)
      (hthreads.track fun i _ => hkept i) (fun _ => rfl) hbusy hrequest

/-- A call with the mutex, which nobody else has. -/
theorem ManagerInvariant.held {m : SessionManager} {call : LifecycleCall}
    (h : s.ManagerInvariant) (hs : s.move t m call = some s')
    (hholds : (s.calls t).holds = true) (hcall : m.CallAt call)
    (hthreads : m.Threads (Snapshot (Function.update s.calls t call)))
    (hworkers : ∀ i, (m.records i).worker = (s.manager.records i).worker) :
    s'.ManagerInvariant := by
  have hbusy : s.calls t ≠ .none := by
    intro hnone
    rw [hnone] at hholds
    cases hholds
  exact h.move hs hcall (fun u hut => SessionManager.CallAt.of_not_holds (h.others hholds hut))
    hthreads hworkers hbusy fun i hi => absurd hi (h.not_worker hholds i)

theorem Snapshot.of_nil {call : LifecycleCall} {i : ℕ} (h : Snapshot s.calls i)
    (hsnapshot : (s.calls t).snapshot = []) : Snapshot (Function.update s.calls t call) i := by
  refine h.update fun hmem => ?_
  rw [hsnapshot] at hmem
  cases hmem

/-- A call with the mutex that has taken over nothing, and sets the flag at most. -/
theorem ManagerInvariant.flagged {running : Bool} {call : LifecycleCall} (h : s.ManagerInvariant)
    (hs : s.move t { s.manager with running } call = some s')
    (hholds : (s.calls t).holds = true) (hsnapshot : (s.calls t).snapshot = [])
    (hcall : ({ s.manager with running } : SessionManager).CallAt call) :
    s'.ManagerInvariant := by
  have hthreads : ({ s.manager with running } : SessionManager).Threads (Snapshot s.calls) :=
    { h.threads with }
  exact h.held hs hholds hcall (hthreads.track fun i _ hi => hi.of_nil hsnapshot) fun _ => rfl

/-- What a thread does before it has the mutex. -/
theorem ManagerInvariant.unlocked {failed : Bool} {m : SessionManager} {call : LifecycleCall}
    (h : s.ManagerInvariant)
    (hstep : s.manager.lifecycleStep (s.manager.isInHandler t) (s.calls t) failed =
      some (m, call))
    (hs : s.move t m call = some s') (hfree : (s.calls t).holds = false) :
    s'.ManagerInvariant := by
  have hbusy : s.calls t ≠ .none := by
    intro hnone
    rw [hnone] at hstep
    cases hstep
  cases failed with
  | true =>
    cases hcall : s.calls t <;> rw [hcall] at hstep hfree <;>
      first | (cases hfree; done) | cases hstep
  | false =>
    cases hcall : s.calls t with
    | entering start =>
      rw [hcall] at hstep
      cases hstep
      refine h.free hs (.inl rfl) hfree hbusy (SessionManager.CallAt.of_not_holds ?_) ?_
      · split
        · split <;> rfl
        · rfl
      · rintro i rfl
        -- the flag of the thread is set, so it does not ask for the mutex
        have hcode := (h.handler i hbusy).1
        rw [SessionManager.isInHandler_of_isInUserCode hcode, if_pos rfl]
        split <;> rfl
    | requesting =>
      rw [hcall] at hstep
      cases hstep
      exact h.free hs (.inr rfl) hfree hbusy trivial fun _ _ => rfl
    | locking start =>
      rw [hcall] at hstep
      cases hstep
      refine h.free hs (.inl rfl) hfree hbusy trivial ?_
      rintro i rfl
      have hrequest := (h.handler i hbusy).2
      rw [hcall] at hrequest
      cases hrequest
    | _ =>
      rw [hcall] at hfree hstep
      first | (cases hfree; done) | cases hstep

/-- The accept thread is joined, if there is one to join. -/
theorem ManagerInvariant.joinAccept {start failed : Bool} {m : SessionManager}
    {call : LifecycleCall} (h : s.ManagerInvariant) (hcall : s.calls t = .joiningAccept start)
    (hstep : s.manager.lifecycleStep (s.manager.isInHandler t) (.joiningAccept start) failed =
      some (m, call))
    (hs : s.move t m call = some s') : s'.ManagerInvariant := by
  have hholds : (s.calls t).holds = true := by rw [hcall]; rfl
  have hsnapshot : (s.calls t).snapshot = [] := by rw [hcall]; rfl
  have hat : s.manager.CallAt (.joiningAccept start) := hcall ▸ h.calls t
  cases failed with
  | true => cases hstep
  | false =>
    simp only [SessionManager.lifecycleStep] at hstep
    split at hstep
    case isTrue =>
      obtain ⟨hleft, hstep⟩ := Option.ite_none_right_eq_some.mp hstep
      cases hstep
      have hthreads : ({ s.manager with acceptJoinable := false } : SessionManager).Threads
          (Snapshot s.calls) :=
        { h.threads with
          accept := fun _ => by
            show s.manager.acceptThread.isOver = true
            rw [hleft]
            rfl }
      exact h.held hs hholds ⟨hat, rfl⟩ (hthreads.track fun i _ hi => hi.of_nil hsnapshot)
        fun _ => rfl
    case isFalse hjoined =>
      cases hstep
      exact h.flagged hs hholds hsnapshot ⟨hat, Bool.eq_false_of_not_eq_true hjoined⟩

/-- Nobody but the thread with the mutex has taken over anything. -/
theorem ManagerInvariant.mem_of_snapshot {start : Bool} {snapshot : List ℕ}
    (h : s.ManagerInvariant) (hcall : s.calls t = .joining start snapshot) {i : ℕ}
    (hi : Snapshot s.calls i) : i ∈ snapshot := by
  have hholds : (s.calls t).holds = true := by rw [hcall]; rfl
  obtain ⟨u, hu⟩ := hi
  by_cases hut : u = t
  · rw [hut, hcall] at hu
    exact hu
  · rw [snapshot_of_not_holds (h.others hholds hut)] at hu
    cases hu

/-- The workers taken over are joined, one after the other. -/
theorem ManagerInvariant.joinSessions {start failed : Bool} {snapshot : List ℕ}
    {m : SessionManager} {call : LifecycleCall} (h : s.ManagerInvariant)
    (hcall : s.calls t = .joining start snapshot)
    (hstep : s.manager.lifecycleStep (s.manager.isInHandler t) (.joining start snapshot) failed =
      some (m, call))
    (hs : s.move t m call = some s') : s'.ManagerInvariant := by
  have hholds : (s.calls t).holds = true := by rw [hcall]; rfl
  have hat : s.manager.CallAt (.joining start snapshot) := hcall ▸ h.calls t
  obtain ⟨hrunning, haccept, hsessions⟩ := hat
  cases failed with
  | true => cases snapshot <;> cases hstep
  | false =>
    cases snapshot with
    | nil =>
      have hjoined : s.manager.AllJoined :=
        .of_joined h.threads haccept hsessions fun i hi => absurd (h.mem_of_snapshot hcall hi) nofun
      have hthreads (call : LifecycleCall) :
          s.manager.Threads (Snapshot (Function.update s.calls t call)) :=
        h.threads.track fun i _ hi => absurd (h.mem_of_snapshot hcall hi) nofun
      cases hstep
      cases start with
      | true => exact h.held hs hholds ⟨hrunning, hjoined⟩ (hthreads _) fun _ => rfl
      | false => exact h.held hs hholds hjoined (hthreads _) fun _ => rfl
    | cons session snapshot =>
      -- what is not joined here is still in the rest
      have hrest (m : SessionManager) (hthreads : m.Threads (Snapshot s.calls))
          (hnot : (m.records session).joinable = false) :
          m.Threads (Snapshot (Function.update s.calls t (.joining start snapshot))) := by
        refine hthreads.track fun i hi hsnapshot => ⟨t, ?_⟩
        rw [Function.update_self]
        rcases List.mem_cons.mp (h.mem_of_snapshot hcall hsnapshot) with rfl | hin
        · exact absurd (hnot.symm.trans hi) nofun
        · exact hin
      simp only [SessionManager.lifecycleStep] at hstep
      split at hstep
      case isTrue =>
        obtain ⟨hleft, hstep⟩ := Option.ite_none_right_eq_some.mp hstep
        cases hstep
        refine h.held hs hholds ⟨hrunning, haccept, hsessions⟩
          (hrest _ (h.threads.join hleft) (by simp)) fun i => ?_
        rw [SessionManager.records_setRecord, Function.update_apply]
        split
        case isTrue hi => rw [hi]
        case isFalse => rfl
      case isFalse hjoined =>
        cases hstep
        exact h.held hs hholds ⟨hrunning, haccept, hsessions⟩
          (hrest _ h.threads (Bool.eq_false_of_not_eq_true hjoined)) fun _ => rfl

/-- The accept thread is created, unless the system has none left. -/
theorem ManagerInvariant.createAccept {failed : Bool} {m : SessionManager} {call : LifecycleCall}
    (h : s.ManagerInvariant) (hcall : s.calls t = .creating)
    (hstep : s.manager.lifecycleStep (s.manager.isInHandler t) .creating failed = some (m, call))
    (hs : s.move t m call = some s') : s'.ManagerInvariant := by
  have hholds : (s.calls t).holds = true := by rw [hcall]; rfl
  have hsnapshot : (s.calls t).snapshot = [] := by rw [hcall]; rfl
  have hjoined : s.manager.AllJoined := (hcall ▸ h.calls t : s.manager.CallAt .creating)
  cases failed with
  | true =>
    cases hstep
    exact h.flagged hs hholds hsnapshot hjoined
  | false =>
    cases hstep
    refine h.held hs hholds trivial ?_ fun _ => rfl
    exact { h.threads with
      accept := nofun
      tracked := fun i hi => absurd ((hjoined.workers i).symm.trans hi) nofun
      current := nofun
      pushed := nofun }

theorem ManagerInvariant.proceed {failed : Bool} (h : s.ManagerInvariant)
    (hs : s.step (.proceed t failed) = some s') : s'.ManagerInvariant := by
  obtain ⟨⟨m, call⟩, hstep, hmove⟩ := Option.bind_eq_some_iff.mp hs
  cases hholds : (s.calls t).holds with
  | false => exact h.unlocked hstep hmove hholds
  | true =>
    have hat := h.calls t
    cases hcall : s.calls t with
    | none | entering | requesting | locking =>
      rw [hcall] at hholds
      cases hholds
    | joiningAccept start => exact h.joinAccept hcall (hcall ▸ hstep) hmove
    | joining start snapshot => exact h.joinSessions hcall (hcall ▸ hstep) hmove
    | creating => exact h.createAccept hcall (hcall ▸ hstep) hmove
    | checking start =>
      have hsnapshot : (s.calls t).snapshot = [] := by rw [hcall]; rfl
      rw [hcall] at hstep
      cases failed with
      | true => cases start <;> cases hstep
      | false =>
        cases start with
        | true =>
          cases hstep
          refine h.flagged hmove hholds hsnapshot ?_
          split
          case isTrue => trivial
          case isFalse hstopped => exact Bool.eq_false_of_not_eq_true hstopped
        | false =>
          cases hstep
          exact h.flagged hmove hholds hsnapshot rfl
    | swapping start =>
      rw [hcall] at hstep hat
      cases failed with
      | true => cases hstep
      | false =>
        cases hstep
        refine h.held hmove hholds ⟨hat.1, hat.2, rfl⟩ ?_ fun _ => rfl
        refine h.threads.swap hat.2 (fun i hi => ⟨t, ?_⟩) fun i hi => hi.of_nil (by rw [hcall]; rfl)
        rw [Function.update_self]
        exact hi
    | setRunning =>
      have hsnapshot : (s.calls t).snapshot = [] := by rw [hcall]; rfl
      rw [hcall] at hstep hat
      cases failed with
      | true => cases hstep
      | false =>
        cases hstep
        exact h.flagged hmove hholds hsnapshot { hat.2 with }
    | restoring | unlocking =>
      have hsnapshot : (s.calls t).snapshot = [] := by rw [hcall]; rfl
      rw [hcall] at hstep
      cases failed with
      | true => cases hstep
      | false =>
        cases hstep
        exact h.flagged hmove hholds hsnapshot trivial

end ManagerRun

namespace SessionManager
variable {m m' : SessionManager} {session : ℕ}

/-- What a step of the accept thread leaves alone. -/
theorem AcceptView.frame (hview : m.AcceptView m') :
    m'.running = m.running ∧ m'.acceptJoinable = m.acceptJoinable := by
  cases hview <;> exact ⟨rfl, rfl⟩

/-- It starts a worker, and changes no other. -/
theorem AcceptView.worker {snapshots : ℕ → Prop} {i : ℕ} (hview : m.AcceptView m')
    (h : m.Threads snapshots) (hi : (m.records i).worker ≠ .none) :
    (m'.records i).worker = (m.records i).worker := by
  cases hview with
  | moved | listed | accepted | took | gaveBack | disconnected | erased | reaped | skipped => rfl
  | created hloop =>
    have hold : i ≠ m.created := by
      rintro rfl
      exact hi (h.unborn _ (Nat.le_refl _))
    show (Function.update m.records m.created _ i).worker = _
    rw [Function.update_of_ne hold]
  | started session hloop =>
    have hother : i ≠ session := by
      rintro rfl
      exact hi (h.current i (by rw [hloop]; rfl)).2.1
    rw [records_setAccept, records_setRecord, Function.update_of_ne hother]
  | deactivated session hloop =>
    rw [records_setAccept, records_setRecord, Function.update_apply]
    split
    case isTrue hsame => rw [hsame]
    case isFalse => rfl
  | joined last session finished hloop hleft =>
    rw [records_setAccept, records_setRecord, Function.update_apply]
    split
    case isTrue hsame => rw [hsame]
    case isFalse => rfl

structure WorkerFrame (m m' : SessionManager) (session : ℕ) : Prop where
  running : m'.running = m.running
  acceptJoinable : m'.acceptJoinable = m.acceptJoinable
  acceptThread : m'.acceptThread = m.acceptThread
  sessions : m'.sessions = m.sessions
  joinable : ∀ i, (m'.records i).joinable = (m.records i).joinable
  others : ∀ i ≠ session, m'.records i = m.records i

theorem WorkerFrame.setRecord {record : ManagedSession}
    (hjoinable : record.joinable = (m.records session).joinable) :
    m.WorkerFrame (m.setRecord session record) session := by
  refine ⟨rfl, rfl, rfl, rfl, fun i => ?_, fun i hi => ?_⟩
  · rw [records_setRecord, Function.update_apply]
    split
    case isTrue hi => rw [hjoinable, hi]
    case isFalse => rfl
  · rw [records_setRecord, Function.update_of_ne hi]

theorem SessionView.frame (hview : m.SessionView session m') : m.WorkerFrame m' session := by
  cases hview with
  | works stats worker =>
    have hframe : WorkerFrame { m with stats := stats } (setRecord { m with stats := stats } session
      { m.records session with worker := worker }) session := .setRecord rfl
    exact { hframe with }
  | exchanged hworker => exact .setRecord rfl
  | gaveBack hworker =>
    have hframe : (m.giveSlotBack session).WorkerFrame ((m.giveSlotBack session).setRecord session
      { m.records session with worker := .countingDisconnected }) session := .setRecord rfl
    exact { hframe with }
  | disconnected hworker =>
    have hframe : (m.countDisconnected session).WorkerFrame ((m.countDisconnected session).setRecord
      session { m.records session with worker := .clearing }) session := .setRecord rfl
    exact { hframe with }
  | left hworker => exact .setRecord rfl

theorem acceptThread_not_over {action : AcceptAction}
    (hs : m.acceptStep m.acceptThread action = some m') : m.acceptThread.isOver = false := by
  cases hloop : m.acceptThread <;> rw [hloop] at hs <;> first | rfl | (cases action <;> cases hs)

end SessionManager

namespace ManagerRun
variable {Tid : Type} [DecidableEq Tid] {s s' : ManagerRun Tid} {t : ManagerThread Tid}

omit [DecidableEq Tid] in
/-- A step beside the calls. -/
theorem ManagerInvariant.beside {m : SessionManager} (h : s.ManagerInvariant)
    (hthreads : m.Threads (Snapshot s.calls)) (hcalls : ∀ t, m.CallAt (s.calls t))
    (hworkers : ∀ i, s.calls (.worker i) ≠ .none →
      (m.records i).worker = (s.manager.records i).worker) :
    ManagerInvariant { s with manager := m } where
  mutex := h.mutex
  calls := hcalls
  threads := hthreads
  accept := h.accept
  handler i hi := by
    refine ⟨?_, (h.handler i hi).2⟩
    have hcode := (h.handler i hi).1
    unfold SessionManager.isInUserCode at hcode ⊢
    simp only [hworkers i hi]
    exact hcode

omit [DecidableEq Tid] in
theorem ManagerInvariant.worker_ne_none {i : ℕ} (h : s.ManagerInvariant)
    (hi : s.calls (.worker i) ≠ .none) : (s.manager.records i).worker ≠ .none := by
  intro hnone
  have hcode := (h.handler i hi).1
  unfold SessionManager.isInUserCode at hcode
  simp only [hnone] at hcode
  cases hcode

/-- A thread in user code begins a call. -/
theorem ManagerInvariant.begin {start : Bool} (h : s.ManagerInvariant) (hnone : s.calls t = .none)
    (hcode : s.manager.isInUserCode t = true) (hmanager : s'.manager = s.manager)
    (hmutex : s'.lifecycleMutex = s.lifecycleMutex)
    (hcalls : s'.calls = Function.update s.calls t (.entering start)) : s'.ManagerInvariant := by
  have hpass : ScopedLock.pass s.lifecycleMutex t (s.calls t).holds
      (LifecycleCall.entering start).holds = some s.lifecycleMutex := by
    rw [hnone]
    rfl
  have hcases (u : ManagerThread Tid) :
      u = t ∧ s'.calls u = .entering start ∨ u ≠ t ∧ s'.calls u = s.calls u := by
    rw [hcalls]
    by_cases hut : u = t
    · subst hut
      exact .inl ⟨rfl, Function.update_self ..⟩
    · exact .inr ⟨hut, Function.update_of_ne hut ..⟩
  refine ⟨?_, fun u => ?_, ?_, ?_, fun i hi => ?_⟩
  · rw [hmutex, hcalls]
    exact h.mutex.pass hpass
  · rw [hmanager]
    rcases hcases u with ⟨-, hu⟩ | ⟨-, hu⟩ <;> rw [hu]
    · trivial
    · exact h.calls u
  · rw [hmanager, hcalls]
    exact h.threads.track fun i _ hi => hi.update (by rw [hnone]; exact id)
  · rcases hcases .accept with ⟨rfl, -⟩ | ⟨-, hu⟩
    · cases hcode
    · rw [hu]
      exact h.accept
  · rw [hmanager]
    rcases hcases (.worker i) with ⟨rfl, hu⟩ | ⟨-, hu⟩ <;> rw [hu] at hi ⊢
    · exact ⟨hcode, rfl⟩
    · exact h.handler i hi

theorem ManagerInvariant.step {action : ManagerAction Tid} (h : s.ManagerInvariant)
    (hs : s.step action = some s') : s'.ManagerInvariant := by
  cases action with
  | call t start =>
    obtain ⟨hcode, hs⟩ := Option.ite_none_right_eq_some.mp hs
    rw [Bool.and_eq_true, decide_eq_true_iff] at hcode
    cases hs
    exact h.begin hcode.1 hcode.2 rfl rfl rfl
  | proceed t failed => exact h.proceed hs
  | accept action =>
    obtain ⟨m, hstep, rfl⟩ := Option.map_eq_some_iff.mp hs
    have hview := SessionManager.acceptStep_view rfl hstep
    have hover := SessionManager.acceptThread_not_over hstep
    obtain ⟨hrunning, haccept⟩ := hview.frame
    -- the accept thread runs, so it has not been joined
    have hjoinable : s.manager.acceptJoinable ≠ false := by
      intro hfalse
      rw [h.threads.accept hfalse] at hover
      cases hover
    exact h.beside (h.threads.acceptStep hover hview)
      (fun t => (h.calls t).beside (fun hstopped => hrunning.trans hstopped) haccept
        (fun hfalse => absurd hfalse hjoinable) fun hfalse => absurd hfalse hjoinable)
      fun i hi => hview.worker h.threads (h.worker_ne_none hi)
  | session session action =>
    obtain ⟨hnone, hs⟩ := Option.ite_none_right_eq_some.mp hs
    obtain ⟨m, hstep, rfl⟩ := Option.map_eq_some_iff.mp hs
    have hview := SessionManager.sessionStep_view hstep
    have hframe := hview.frame
    refine h.beside (h.threads.sessionStep hview)
      (fun t => (h.calls t).beside (fun hstopped => hframe.running.trans hstopped)
        hframe.acceptJoinable (fun _ => hframe.sessions)
        fun _ i hi => (hframe.joinable i).trans hi) fun i hi => ?_
    have hother : i ≠ session := by
      rintro rfl
      exact hi hnone
    rw [hframe.others i hother]
  | sent threw =>
    cases hs
    refine h.beside { h.threads with } (fun t => (h.calls t).beside id rfl (fun _ => rfl)
      fun _ _ hi => hi) fun _ _ => rfl

theorem managerInvariant_of_reachable {options : TcpSessionManagerOptions}
    (h : (managerSystem Tid options).Reachable s) : s.ManagerInvariant := by
  refine TransitionSystem.Reachable.invariant ?_ (fun s a s' _ hs hstep => hs.step hstep) h
  rintro s ⟨-, rfl⟩
  exact ⟨fun t => ⟨nofun, nofun⟩, fun t => trivial,
    ⟨fun _ => rfl, fun _ _ => rfl, nofun, nofun, nofun, nofun, fun _ _ => rfl⟩, rfl,
    fun i hi => absurd rfl hi⟩

/-- The join that a thread is at: a call of `start` or `stop` joins the accept thread and the
workers, and the reaper those that have ended. -/
inductive Joins (s : ManagerRun Tid) : ManagerThread Tid → ManagerThread Tid → Prop
  | accept (t : ManagerThread Tid) (start : Bool) :
      s.calls t = .joiningAccept start → Joins s t .accept
  | worker (t : ManagerThread Tid) (start : Bool) (session : ℕ) (snapshot : List ℕ) :
      s.calls t = .joining start (session :: snapshot) → Joins s t (.worker session)
  | reap (last : Bool) (session : ℕ) (finished : List ℕ) :
      s.manager.acceptThread = .joining last (session :: finished) →
      Joins s .accept (.worker session)

omit [DecidableEq Tid] in
/-- No thread joins itself. -/
theorem ManagerInvariant.joins_ne {u : ManagerThread Tid} (h : s.ManagerInvariant)
    (hjoins : s.Joins t u) : t ≠ u := by
  cases hjoins with
  | accept t start hcall =>
    rintro rfl
    rw [h.accept] at hcall
    cases hcall
  | worker t start session snapshot hcall => exact h.not_worker (by rw [hcall]; rfl) session
  | reap => nofun

end ManagerRun
end RobotMiddleware
