import RobotMiddleware.HeartbeatLinkModel
import RobotMiddleware.ReconnectBackoff
import RobotMiddleware.SessionAccounting

/-! The link refines the keep-alive protocol: what an end does is a move of its peer. A live end
is therefore never given up, and a silent one is. -/
namespace RobotMiddleware
open KeepAlive (Side Kind Move Settings)

/-- What a step does to the lines, by the frame that it hands over and its clock reading. -/
def moveKind (outgoing incoming : Option Frame) (isReceive : Bool) : Kind :=
  if outgoing.isSome then .posted
  else if incoming.isSome then .heard
  else if isReceive then .missed
  else .quiet

theorem postFrame_times (line : List (Frame × ℤ)) (time : ℤ) (outgoing : Option Frame) :
    (postFrame line time outgoing).map Prod.snd =
      if outgoing.isSome then line.map Prod.snd ++ [time] else line.map Prod.snd := by
  cases outgoing with
  | none => rfl
  | some frame => exact List.map_append

theorem moveKind_eq_posted {outgoing incoming : Option Frame} {isReceive : Bool} :
    moveKind outgoing incoming isReceive = .posted ↔ outgoing.isSome = true := by
  cases outgoing <;> cases incoming <;> cases isReceive <;> simp [moveKind]

theorem moveKind_eq_heard {outgoing incoming : Option Frame} {isReceive : Bool} :
    moveKind outgoing incoming isReceive = .heard ↔
      outgoing.isSome = false ∧ incoming.isSome = true := by
  cases outgoing <;> cases incoming <;> cases isReceive <;> simp [moveKind]

theorem moveKind_eq_missed {outgoing incoming : Option Frame} {isReceive : Bool} :
    moveKind outgoing incoming isReceive = .missed →
      incoming = none ∧ isReceive = true := by
  cases outgoing <;> cases incoming <;> cases isReceive <;> simp [moveKind]

/-- What `receive_frame` does to the sending times on a line. -/
theorem takeFrame_times {line line' : List (Frame × ℤ)} {outgoing incoming : Option Frame}
    {isReceive : Bool} (h : takeFrame line incoming = some line')
    (hone : outgoing.isSome = true → incoming = none) : line'.map Prod.snd =
      if moveKind outgoing incoming isReceive = .heard then (line.map Prod.snd).tail
      else line.map Prod.snd := by
  cases incoming with
  | none =>
    cases h
    have hnot : moveKind outgoing none isReceive ≠ .heard := by
      rw [Ne, moveKind_eq_heard]
      exact fun h => absurd h.2 (by decide)
    rw [if_neg hnot]
  | some frame =>
    have hnone : outgoing.isSome = false := by
      by_contra hsome
      cases hone (Bool.of_not_eq_false hsome)
    rw [if_pos (moveKind_eq_heard.mpr ⟨hnone, rfl⟩)]
    cases line with
    | nil => cases h
    | cons sent rest =>
      obtain ⟨-, hrest⟩ := Option.ite_none_right_eq_some.mp h
      cases hrest
      rfl

/-- A frame that is returned was on the line. -/
theorem takeFrame_ne_nil {line line' : List (Frame × ℤ)} {incoming : Option Frame}
    (h : takeFrame line incoming = some line') (hsome : incoming.isSome = true) : line ≠ [] := by
  rintro rfl
  cases incoming with
  | none => cases hsome
  | some frame => cases h

def WorkerAction.isReceive : WorkerAction → Bool
  | .receive _ _ => true
  | _ => false

def SessionAction.isReceive : SessionAction → Bool
  | .receive _ _ => true
  | _ => false

theorem WorkerAction.exists_receive {action : WorkerAction} (hincoming : action.incoming = none)
    (hreceive : action.isReceive = true) : ∃ now, action = .receive none now := by
  cases action with
  | receive incoming now =>
    obtain rfl : incoming = none := hincoming
    exact ⟨now, rfl⟩
  | _ => cases hreceive

theorem SessionAction.exists_receive {action : SessionAction} (hincoming : action.incoming = none)
    (hreceive : action.isReceive = true) : ∃ now, action = .receive none now := by
  cases action with
  | receive incoming now =>
    obtain rfl : incoming = none := hincoming
    exact ⟨now, rfl⟩
  | _ => cases hreceive

/-- No step both takes a frame and hands one over. -/
theorem BridgeWorker.incoming_of_outgoing {publisherId : BitVec 64} {worker : BridgeWorker}
    {action : WorkerAction} (hsome : (worker.outgoing publisherId action).isSome = true) :
    action.incoming = .none := by
  cases action with
  | receive incoming now =>
    have hnone : worker.outgoing publisherId (.receive incoming now) = .none := by
      cases worker with
      | connected connection phase => cases phase <;> rfl
      | _ => rfl
    rw [hnone] at hsome
    cases hsome
  | _ => rfl

theorem SessionWorker.incoming_of_outgoing {managerId sendTimeNs : BitVec 64}
    {worker : SessionWorker} {action : SessionAction}
    (hsome : (worker.outgoing managerId sendTimeNs action).isSome = true) :
    action.incoming = .none := by
  cases action with
  | receive incoming now =>
    have hnone : worker.outgoing managerId sendTimeNs (.receive incoming now) = .none := by
      cases worker with
      | looping locals phase => cases phase <;> rfl
      | _ => rfl
    rw [hnone] at hsome
    cases hsome
  | _ => rfl

/-- A move that takes from a line what `receive_frame` returns is a step of the protocol, or
nothing. -/
theorem reachableVia_moved {settings : Side → Settings ℤ} {start : ℤ}
    {limits : KeepAlive.Bounds ℤ}
    {t : KeepAlive.State ℤ} {side : Side} {outgoing incoming : Option Frame} {isReceive : Bool}
    {peer : KeepAlive.Peer ℤ} {line line' : List (Frame × ℤ)}
    (h : (KeepAlive.system settings start).ReachableVia (KeepAlive.OnTime limits) t)
    (hmove : Move (settings side) t.time (moveKind outgoing incoming isReceive) (t.peers side) peer)
    (hline : t.line side = line.map Prod.snd) (htake : takeFrame line incoming = some line')
    (hmissed : incoming = none → isReceive = true → t.peers side.other ≠ .gone →
      ∀ sent ∈ line, t.time < sent.2 + limits.delay) :
    (KeepAlive.system settings start).ReachableVia (KeepAlive.OnTime limits)
      (t.after side peer (moveKind outgoing incoming isReceive)) := by
  apply KeepAlive.reachableVia_after h rfl hmove
  · intro hheard hnil
    have hsome := (moveKind_eq_heard.mp hheard).2
    rw [hline] at hnil
    exact takeFrame_ne_nil htake hsome (List.map_eq_nil_iff.mp hnil)
  · intro hkind hthere sent hsent
    obtain ⟨hincoming, hreceive⟩ := moveKind_eq_missed hkind
    rw [hline] at hsent
    obtain ⟨entry, hentry, rfl⟩ := List.mem_map.mp hsent
    exact hmissed hincoming hreceive hthere entry hentry

def ReconnectOptions.settings (options : ReconnectOptions) : Settings ℤ :=
  { interval := options.heartbeatInterval.nanoseconds, idle := options.idleTimeout.nanoseconds }

def TcpSessionManagerOptions.settings (options : TcpSessionManagerOptions) : Settings ℤ :=
  { interval := options.heartbeatInterval.nanoseconds, idle := options.idleTimeout.nanoseconds }

def linkSettings (options : ReconnectOptions) (sessions : TcpSessionManagerOptions) :
    Side → Settings ℤ
  | .left => options.settings
  | .right => sessions.settings

namespace BridgeClient
variable {s s' : BridgeClient} {options : ReconnectOptions} {connection : ClientConnection}
  {phase : ConnectionPhase} {action : WorkerAction}

def peerAt (options : ReconnectOptions) (reading : ℤ) : BridgeWorker → KeepAlive.Peer ℤ
  | .connected _ .closing => .gone
  | .connected connection phase =>
    .up reading (phase.nextHeartbeat options connection) (phase.lastReceive connection) phase.stage
  | _ => .gone

def hasBegun : BridgeWorker → Bool
  | .none => false
  | _ => true

/-- One step of `client_loop` on a connection is a move of the peer, and where there is a local
`now` it is the last reading. -/
theorem connectionStep_move {reading time : ℤ}
    (hworker : s.worker = .connected connection phase)
    (hnow : ∀ now, phase.now = some now → now = reading)
    (htime : ∀ now, action.reading = some now → now = time)
    (hs : s.connectionStep options connection phase action = some s') :
    Move options.settings time
        (moveKind (s.worker.outgoing s.publisherId action) action.incoming action.isReceive)
        (peerAt options reading s.worker)
        (peerAt options (action.reading.getD reading) s'.worker) ∧
      s'.options = s.options ∧ hasBegun s'.worker = true ∧
      ∀ connection' phase', s'.worker = .connected connection' phase' →
        ∀ now, phase'.now = some now → now = action.reading.getD reading := by
  rw [hworker]
  cases phase with
  | checking =>
    cases action with
    | next =>
      cases hs
      cases hgoing : s.going with
      | true => exact ⟨.still _, rfl, rfl, by rintro _ _ ⟨⟩ _ ⟨⟩⟩
      | false => exact ⟨.left _, rfl, rfl, by rintro _ _ ⟨⟩ _ ⟨⟩⟩
    | _ => cases hs
  | batching sent =>
    cases action with
    | next =>
      simp only [connectionStep] at hs
      split at hs
      · split at hs
        all_goals
          cases hs
          exact ⟨.still _, rfl, rfl, by rintro _ _ ⟨⟩ _ ⟨⟩⟩
      · cases hs
        exact ⟨.still _, rfl, rfl, by rintro _ _ ⟨⟩ _ ⟨⟩⟩
    | fail =>
      cases hs
      exact ⟨.left _, rfl, rfl, by rintro _ _ ⟨⟩⟩
    | _ => cases hs
  | popped sent frame =>
    cases action with
    | next =>
      cases hs
      exact ⟨.sent _, rfl, rfl, by rintro _ _ ⟨⟩ _ ⟨⟩⟩
    | _ => cases hs
  | sending sent frame =>
    cases action with
    | next =>
      cases hs
      exact ⟨.still _, rfl, rfl, by rintro _ _ ⟨⟩ _ ⟨⟩⟩
    | fail =>
      cases hs
      exact ⟨.left _, rfl, rfl, by rintro _ _ ⟨⟩⟩
    | _ => cases hs
  | receiving =>
    cases action with
    | receive incoming now =>
      obtain rfl := htime now rfl
      obtain ⟨-, hs⟩ := Option.ite_none_right_eq_some.mp hs
      cases incoming with
      | none =>
        cases hs
        exact ⟨.missed _ _ _, rfl, rfl, by rintro _ _ ⟨⟩ _ ⟨⟩; rfl⟩
      | some frame =>
        cases hs
        exact ⟨.heard _ _ _, rfl, rfl, by rintro _ _ ⟨⟩ _ ⟨⟩; rfl⟩
    | fail =>
      cases hs
      exact ⟨.left _, rfl, rfl, by rintro _ _ ⟨⟩⟩
    | _ => cases hs
  | classifying frame now =>
    cases action with
    | next =>
      simp only [connectionStep] at hs
      split at hs
      case h_3 =>
        cases hs
        exact ⟨.left _, rfl, rfl, by rintro _ _ ⟨⟩⟩
      all_goals
        cases hs
        exact ⟨.still _, rfl, rfl, by rintro _ _ ⟨⟩ _ ⟨⟩; exact hnow now rfl⟩
    | _ => cases hs
  | delivering frame now =>
    cases action with
    | next =>
      cases hs
      exact ⟨.still _, rfl, rfl, by rintro _ _ ⟨⟩ _ ⟨⟩; exact hnow now rfl⟩
    | _ => cases hs
  | noticing now =>
    cases action with
    | next =>
      cases hs
      exact ⟨.still _, rfl, rfl, by rintro _ _ ⟨⟩ _ ⟨⟩; exact hnow now rfl⟩
    | _ => cases hs
  | heartbeat now =>
    obtain rfl := hnow now rfl
    cases action with
    | next =>
      simp only [connectionStep] at hs
      split at hs
      case isTrue => cases hs
      case isFalse hnot =>
        cases hs
        exact ⟨.rested _ _ _ (not_le.mp hnot), rfl, rfl, by rintro _ _ ⟨⟩ _ ⟨⟩; rfl⟩
    | beat sendTimeNs =>
      simp only [connectionStep] at hs
      split at hs
      case isTrue hdue =>
        cases hs
        exact ⟨.beat _ _ _ hdue, rfl, rfl, by rintro _ _ ⟨⟩ _ ⟨⟩; rfl⟩
      case isFalse => cases hs
    | fail =>
      cases hs
      exact ⟨.left _, rfl, rfl, by rintro _ _ ⟨⟩⟩
    | _ => cases hs
  | sendingHeartbeat now =>
    cases action with
    | next =>
      cases hs
      exact ⟨.still _, rfl, rfl, by rintro _ _ ⟨⟩ _ ⟨⟩; exact hnow now rfl⟩
    | fail =>
      cases hs
      exact ⟨.left _, rfl, rfl, by rintro _ _ ⟨⟩⟩
    | _ => cases hs
  | idle now =>
    obtain rfl := hnow now rfl
    cases action with
    | next =>
      cases hs
      by_cases hidle : options.idleTimeout.nanoseconds ≤ now - connection.lastReceive
      · simp only [if_pos hidle]
        exact ⟨.left _, rfl, rfl, by rintro _ _ ⟨⟩⟩
      · simp only [if_neg hidle]
        exact ⟨.judged _ _ _ (not_le.mp hidle), rfl, rfl, by rintro _ _ ⟨⟩ _ ⟨⟩⟩
    | _ => cases hs
  | closing =>
    cases action with
    | next =>
      cases hs
      exact ⟨.left _, rfl, rfl, by rintro _ _ ⟨⟩⟩
    | _ => cases hs

/-- Without a connection the worker gets none unless it reads its clock. -/
theorem workerStep_unconnected (hworker : s.worker.isConnected = false)
    (hreading : action.reading = none) (hs : s.step (.worker action) = some s') :
    s'.worker.isConnected = false ∧ hasBegun s'.worker = true ∧ s'.options = s.options := by
  replace hs : s.workerStep s.worker action = some s' := hs
  cases hw : s.worker with
  | none | left | undefined =>
    rw [hw] at hs
    cases hs
  | manual phase =>
    rw [hw] at hs
    replace hs : s.manualStep phase action = some s' := hs
    unfold manualStep at hs
    split at hs
    case h_1 =>
      cases hs
      cases hgoing : s.going <;> exact ⟨rfl, rfl, rfl⟩
    case h_2 =>
      split at hs
      all_goals
        cases hs
        exact ⟨rfl, rfl, rfl⟩
    case h_7 => cases hs
    all_goals
      cases hs
      exact ⟨rfl, rfl, rfl⟩
  | checking =>
    rw [hw] at hs
    cases action with
    | next =>
      simp only [workerStep] at hs
      split at hs
      all_goals
        cases hs
        exact ⟨rfl, rfl, rfl⟩
    | _ => cases hs
  | connecting =>
    rw [hw] at hs
    cases action with
    | connect now => cases hreading
    | fail =>
      cases hs
      exact ⟨rfl, rfl, rfl⟩
    | _ => cases hs
  | connected connection phase =>
    rw [hw] at hworker
    cases hworker
  | caught connection =>
    rw [hw] at hs
    cases action with
    | next =>
      cases hs
      exact ⟨rfl, rfl, rfl⟩
    | _ => cases hs
  | cleaning connection =>
    rw [hw] at hs
    cases action with
    | next | fail =>
      cases hs
      exact ⟨rfl, rfl, rfl⟩
    | _ => cases hs
  | deciding connection =>
    rw [hw] at hs
    cases action with
    | next =>
      simp only [workerStep] at hs
      split at hs
      all_goals
        cases hs
        exact ⟨rfl, rfl, rfl⟩
    | _ => cases hs
  | waiting =>
    rw [hw] at hs
    cases action with
    | next =>
      obtain ⟨options, -, hs⟩ := Option.bind_eq_some_iff.mp hs
      split at hs
      all_goals
        cases hs
        exact ⟨rfl, rfl, rfl⟩
    | _ => cases hs

theorem outgoing_unconnected {publisherId : BitVec 64} {worker : BridgeWorker}
    (hworker : worker.isConnected = false) : worker.outgoing publisherId action = none := by
  cases worker with
  | connected => cases hworker
  | _ => rfl

theorem peerAt_unconnected {reading : ℤ} {worker : BridgeWorker}
    (hworker : worker.isConnected = false) : peerAt options reading worker = .gone := by
  cases worker with
  | connected => cases hworker
  | _ => rfl

theorem exists_connection {worker : BridgeWorker} (hworker : worker.isConnected = true) :
    ∃ connection phase, worker = .connected connection phase := by
  cases worker with
  | connected connection phase => exact ⟨connection, phase, rfl⟩
  | _ => cases hworker

/-- A connection starts, or it does not. -/
theorem workerStep_connecting (hworker : s.worker = .connecting)
    (hoptions : s.options = some options) (hs : s.step (.worker action) = some s') :
    s'.options = s.options ∧
      ((∃ now, action = .connect now ∧ s'.worker = .connected
          { lastReceive := now, nextHeartbeat := now + options.heartbeatInterval.nanoseconds }
          .checking) ∨
        action = .fail ∧ s'.worker = .caught none) := by
  replace hs : s.workerStep s.worker action = some s' := hs
  rw [hworker] at hs
  cases action with
  | connect now =>
    simp only [workerStep, hoptions] at hs
    obtain ⟨-, hs⟩ := Option.ite_none_right_eq_some.mp hs
    cases hs
    exact ⟨hoptions.symm, .inl ⟨now, rfl, rfl⟩⟩
  | fail =>
    cases hs
    exact ⟨rfl, .inr ⟨rfl, rfl⟩⟩
  | _ => cases hs

theorem workerStep_connected (hworker : s.worker = .connected connection phase)
    (hoptions : s.options = some options) (hs : s.step (.worker action) = some s') :
    s.connectionStep options connection phase action = some s' := by
  replace hs : s.workerStep s.worker action = some s' := hs
  rw [hworker] at hs
  replace hs : (s.options.bind fun options =>
    s.connectionStep options connection phase action) = some s' := hs
  rw [hoptions] at hs
  exact hs

end BridgeClient

namespace SessionManager
variable {m m' : SessionManager} {session : ℕ} {locals : SessionLocals} {phase : SessionPhase}
  {action : SessionAction}

def peerAt (options : TcpSessionManagerOptions) (reading : ℤ) : SessionWorker → KeepAlive.Peer ℤ
  | .looping locals phase =>
    .up reading (phase.nextHeartbeat options locals) locals.lastReceive phase.stage
  | _ => .gone

theorem worker_setWorker (m : SessionManager) (session : ℕ) (worker : SessionWorker) :
    ((m.setWorker session worker).records session).worker = worker := by
  rw [records_setWorker, Function.update_self]

def hasBegun : SessionWorker → Bool
  | .none | .entering => false
  | _ => true

/-- The same of one step of `session_loop`. -/
theorem loopStep_move {reading time : ℤ} (managerId sendTimeNs : BitVec 64)
    (hworker : (m.records session).worker = .looping locals phase)
    (hnow : ∀ now, phase.now = some now → now = reading)
    (htime : ∀ now, action.reading = some now → now = time)
    (hs : m.loopStep session locals phase action = some m') :
    Move m.options.settings time
        (moveKind ((m.records session).worker.outgoing managerId sendTimeNs action) action.incoming
          action.isReceive)
        (peerAt m.options reading (m.records session).worker)
        (peerAt m.options (action.reading.getD reading) (m'.records session).worker) ∧
      hasBegun (m'.records session).worker = true ∧
      ∀ locals' phase', (m'.records session).worker = .looping locals' phase' →
        ∀ now, phase'.now = some now → now = action.reading.getD reading := by
  rw [hworker]
  cases phase with
  | checking =>
    cases action with
    | next =>
      cases hs
      rw [worker_setWorker]
      cases hgoing : m.running && (m.records session).active with
      | true => exact ⟨.still _, rfl, by rintro _ _ ⟨⟩ _ ⟨⟩⟩
      | false => exact ⟨.left _, rfl, by rintro _ _ ⟨⟩⟩
    | _ => cases hs
  | receiving =>
    cases action with
    | receive incoming now =>
      obtain rfl := htime now rfl
      cases incoming with
      | none =>
        cases hs
        rw [worker_setWorker]
        exact ⟨.missed _ _ _, rfl, by rintro _ _ ⟨⟩ _ ⟨⟩; rfl⟩
      | some frame =>
        cases hs
        rw [worker_setWorker]
        exact ⟨.heard _ _ _, rfl, by rintro _ _ ⟨⟩ _ ⟨⟩; rfl⟩
    | fail orderly =>
      cases hs
      rw [worker_setWorker]
      exact ⟨.left _, rfl, by rintro _ _ ⟨⟩⟩
    | _ => cases hs
  | classifying frame now =>
    cases action with
    | next =>
      simp only [loopStep] at hs
      split at hs
      case h_3 =>
        cases hs
        rw [worker_setWorker]
        exact ⟨.left _, rfl, by rintro _ _ ⟨⟩⟩
      all_goals
        cases hs
        rw [worker_setWorker]
        exact ⟨.still _, rfl, by rintro _ _ ⟨⟩ _ ⟨⟩; exact hnow now rfl⟩
    | _ => cases hs
  | handling now =>
    cases action with
    | handled threw =>
      cases hs
      rw [worker_setWorker]
      exact ⟨.still _, rfl, by rintro _ _ ⟨⟩ _ ⟨⟩; exact hnow now rfl⟩
    | _ => cases hs
  | heartbeat now =>
    obtain rfl := hnow now rfl
    cases action with
    | next =>
      cases hs
      rw [worker_setWorker]
      by_cases hdue : locals.nextHeartbeat ≤ now
      · rw [if_pos hdue]
        have hout : SessionWorker.outgoing managerId sendTimeNs (.looping locals (.heartbeat now))
            .next = some (makeHeartbeatFrame managerId locals.heartbeatSequence sendTimeNs) :=
          if_pos hdue
        rw [hout]
        exact ⟨.beat _ _ _ hdue, rfl, by rintro _ _ ⟨⟩ _ ⟨⟩; rfl⟩
      · rw [if_neg hdue]
        have hout : SessionWorker.outgoing managerId sendTimeNs (.looping locals (.heartbeat now))
            .next = none := if_neg hdue
        rw [hout]
        exact ⟨.rested _ _ _ (not_le.mp hdue), rfl, by rintro _ _ ⟨⟩ _ ⟨⟩; rfl⟩
    | _ => cases hs
  | sending now =>
    cases action with
    | next =>
      cases hs
      rw [worker_setWorker]
      exact ⟨.still _, rfl, by rintro _ _ ⟨⟩ _ ⟨⟩; exact hnow now rfl⟩
    | fail orderly =>
      cases hs
      rw [worker_setWorker]
      exact ⟨.left _, rfl, by rintro _ _ ⟨⟩⟩
    | _ => cases hs
  | idle now =>
    obtain rfl := hnow now rfl
    cases action with
    | next =>
      simp only [loopStep] at hs
      split at hs
      case isTrue =>
        cases hs
        rw [worker_setWorker]
        exact ⟨.left _, rfl, by rintro _ _ ⟨⟩⟩
      case isFalse hidle =>
        cases hs
        rw [worker_setWorker]
        exact ⟨.judged _ _ _ (not_le.mp hidle), rfl, by rintro _ _ ⟨⟩ _ ⟨⟩⟩
    | _ => cases hs

def hasLeft : SessionWorker → Bool
  | .none | .entering | .looping _ _ => false
  | _ => true

theorem sessionStep_left (hleft : hasLeft (m.records session).worker = true)
    (hs : m.sessionStep session (m.records session).worker action = some m') :
    action = .next ∧ hasLeft (m'.records session).worker = true := by
  cases hworker : (m.records session).worker with
  | none | entering | looping =>
    rw [hworker] at hleft
    cases hleft
  | left =>
    rw [hworker] at hs
    cases hs
  | exchanging =>
    rw [hworker] at hs
    cases action with
    | next =>
      cases hs
      rw [records_setRecord, Function.update_self]
      cases (m.records session).active <;> exact ⟨rfl, rfl⟩
    | _ => cases hs
  | caught | closing | countingActive | countingDisconnected | clearing =>
    rw [hworker] at hs
    cases action with
    | next =>
      cases hs
      rw [worker_setWorker]
      exact ⟨rfl, rfl⟩
    | _ => cases hs

theorem hasBegun_of_hasLeft {worker : SessionWorker} (hleft : hasLeft worker = true) :
    hasBegun worker = true := by
  cases worker with
  | none | entering => cases hleft
  | _ => rfl

theorem outgoing_left {managerId sendTimeNs : BitVec 64} {worker : SessionWorker}
    (hleft : hasLeft worker = true) : worker.outgoing managerId sendTimeNs action = none := by
  cases worker with
  | looping => cases hleft
  | _ => rfl

/-- A call of `start` or `stop` moves no worker. -/
theorem LifecycleView.worker {i : ℕ} (hview : m.LifecycleView m') :
    (m'.records i).worker = (m.records i).worker := by
  cases hview with
  | joined j hleft =>
    rw [records_setRecord, Function.update_apply]
    split
    case isTrue hsame => rw [hsame]
    case isFalse => rfl
  | _ => rfl

end SessionManager

namespace HeartbeatLink
variable {Tid : Type} [DecidableEq Tid] {s s' : HeartbeatLink Tid} {options : ReconnectOptions}
  {sessions : TcpSessionManagerOptions} {session : ℕ} {managerId : BitVec 64}
  {bounds : LinkBounds}

def view (options : ReconnectOptions) (sessions : TcpSessionManagerOptions) (session : ℕ)
    (s : HeartbeatLink Tid) : KeepAlive.State ℤ where
  time := s.time
  peers
    | .left => s.clientPeer options
    | .right => s.serverPeer sessions session
  line
    | .left => s.toClient.map Prod.snd
    | .right => s.toServer.map Prod.snd

omit [DecidableEq Tid] in
theorem eq_view {t : KeepAlive.State ℤ} (htime : t.time = s.time)
    (hclient : t.peers .left = s.clientPeer options)
    (hserver : t.peers .right = s.serverPeer sessions session)
    (htoClient : t.line .left = s.toClient.map Prod.snd)
    (htoServer : t.line .right = s.toServer.map Prod.snd) :
    t = s.view options sessions session := by
  obtain ⟨time, peers, line⟩ := t
  have hpeers : peers = (s.view options sessions session).peers := by
    funext side
    cases side
    · exact hclient
    · exact hserver
  have hline : line = (s.view options sessions session).line := by
    funext side
    cases side
    · exact htoClient
    · exact htoServer
  rw [hpeers, hline, show time = s.time from htime]
  rfl

omit [DecidableEq Tid] in
/-- A step of the client, as a move of its peer. -/
theorem after_client {outgoing incoming : Option Frame} {isReceive : Bool}
    (htake : takeFrame s.toClient incoming = some s'.toClient)
    (hpost : s'.toServer = postFrame s.toServer s.time outgoing)
    (hone : outgoing.isSome = true → incoming = none) (htime : s'.time = s.time)
    (hserver : s'.serverPeer sessions session = s.serverPeer sessions session) :
    (s.view options sessions session).after .left (s'.clientPeer options)
      (moveKind outgoing incoming isReceive) = s'.view options sessions session := by
  apply eq_view
  · rw [KeepAlive.State.after_time]
    exact htime.symm
  · rw [KeepAlive.State.after_peers]
  · exact (KeepAlive.State.after_peers_other _ Side.left _ _).trans hserver.symm
  · rw [KeepAlive.State.after_line, takeFrame_times htake hone]
    rfl
  · rw [hpost, postFrame_times]
    refine (KeepAlive.State.after_line_other _ Side.left _ _).trans ?_
    simp only [moveKind_eq_posted]
    rfl

omit [DecidableEq Tid] in
/-- The same of the server. -/
theorem after_server {outgoing incoming : Option Frame} {isReceive : Bool}
    (htake : takeFrame s.toServer incoming = some s'.toServer)
    (hpost : s'.toClient = postFrame s.toClient s.time outgoing)
    (hone : outgoing.isSome = true → incoming = none) (htime : s'.time = s.time)
    (hclient : s'.clientPeer options = s.clientPeer options) :
    (s.view options sessions session).after .right (s'.serverPeer sessions session)
      (moveKind outgoing incoming isReceive) = s'.view options sessions session := by
  apply eq_view
  · rw [KeepAlive.State.after_time]
    exact htime.symm
  · exact (KeepAlive.State.after_peers_other _ Side.right _ _).trans hclient.symm
  · rw [KeepAlive.State.after_peers]
  · rw [hpost, postFrame_times]
    refine (KeepAlive.State.after_line_other _ Side.right _ _).trans ?_
    simp only [moveKind_eq_posted]
    rfl
  · rw [KeepAlive.State.after_line, takeFrame_times htake hone]
    rfl

structure LinkInvariant (options : ReconnectOptions) (sessions : TcpSessionManagerOptions)
    (session : ℕ) (s : HeartbeatLink Tid) : Prop where
  options : s.client.options = some options
  begun : BridgeClient.hasBegun s.client.worker = true
  done : s.clientDone = true → s.client.worker.isConnected = false
  undone : s.clientDone = false → s.client.worker = .connecting ∧ s.clientReading = none ∨
    s.client.worker.isConnected = true
  client : ∀ connection phase, s.client.worker = .connected connection phase →
    ∃ reading, s.clientReading = some reading ∧ ∀ now, phase.now = some now → now = reading
  server : (managerSystem Tid sessions).Reachable s.server
  started : (s.server.manager.records session).worker ≠ .none
  entering : (s.server.manager.records session).worker = .entering → s.serverReading = none
  session : ∀ locals phase, (s.server.manager.records session).worker = .looping locals phase →
    ∃ reading, s.serverReading = some reading ∧ ∀ now, phase.now = some now → now = reading

omit [DecidableEq Tid] in
theorem clientPeer_done (h : s.clientDone = true) : s.clientPeer options = .gone :=
  if_pos h

omit [DecidableEq Tid] in
theorem clientPeer_undone {reading : ℤ} (h : s.clientDone = false)
    (hreading : s.clientReading = some reading) :
    s.clientPeer options = BridgeClient.peerAt options reading s.client.worker := by
  unfold clientPeer
  rw [if_neg (Bool.eq_false_iff.mp h), hreading]
  cases s.client.worker with
  | connected connection phase => cases phase <;> rfl
  | _ => rfl

structure ClientMoves (options : ReconnectOptions) (s s' : HeartbeatLink Tid)
    (action : WorkerAction) : Prop where
  move : Move options.settings s.time
    (moveKind (s.client.worker.outgoing s.client.publisherId action) action.incoming
      action.isReceive) (s.clientPeer options) (s'.clientPeer options)
  options : s'.client.options = some options
  begun : BridgeClient.hasBegun s'.client.worker = true
  done : s'.clientDone = true → s'.client.worker.isConnected = false
  undone : s'.clientDone = false → s'.client.worker.isConnected = true
  reading : ∀ connection phase, s'.client.worker = .connected connection phase →
    ∃ reading, s'.clientReading = some reading ∧ ∀ now, phase.now = some now → now = reading

theorem LinkInvariant.clientMoves {client : BridgeClient} {toClient : List (Frame × ℤ)}
    {action : WorkerAction} (h : s.LinkInvariant options sessions session)
    (hreading : ∀ now, action.reading = some now → now = s.time)
    (hdone : s.clientDone = true → action.reading = none)
    (hclient : s.client.step (.worker action) = some client) :
    ClientMoves options s (s.setClient action client toClient) action := by
  have hdone' : (s.setClient action client toClient).clientDone =
      (s.clientDone || !client.worker.isConnected) := rfl
  cases hd : s.clientDone with
  | true =>
    have hworker := h.done hd
    have hnone := hdone hd
    obtain ⟨hworker', hbegun, hoptions⟩ := BridgeClient.workerStep_unconnected hworker hnone hclient
    rw [hd, Bool.true_or] at hdone'
    refine ⟨?_, hoptions.trans h.options, hbegun, fun _ => hworker', fun hundone => ?_,
      fun _ _ hc => ?_⟩
    · have hgone : (s.setClient action client toClient).clientPeer options = .gone :=
        clientPeer_done hdone'
      rw [clientPeer_done hd, BridgeClient.outgoing_unconnected hworker, hgone]
      cases action with
      | connect | receive => cases hnone
      | _ => exact .still _
    · rw [hdone'] at hundone
      cases hundone
    · replace hc : client.worker = _ := hc
      rw [hc] at hworker'
      cases hworker'
  | false =>
    rw [hd, Bool.false_or] at hdone'
    rcases h.undone hd with ⟨hworker, hnone⟩ | hconnected
    · obtain ⟨hoptions, ⟨now, rfl, hworker'⟩ | ⟨rfl, hworker'⟩⟩ :=
        BridgeClient.workerStep_connecting hworker h.options hclient
      · obtain rfl := hreading now rfl
        have hconnected : client.worker.isConnected = true := by
          rw [hworker']
          rfl
        rw [hconnected, Bool.not_true] at hdone'
        have hbefore : s.clientPeer options = .away s.since := by
          unfold clientPeer
          rw [if_neg (Bool.eq_false_iff.mp hd), hworker, hnone]
        refine ⟨?_, hoptions.trans h.options, ?_, fun hover => ?_, fun _ => hconnected,
          fun _ _ hc => ?_⟩
        · have hafter := @clientPeer_undone _ _ options _ hdone' rfl
          rw [hbefore, hafter, hworker]
          show Move _ _ _ _ (BridgeClient.peerAt options s.time client.worker)
          rw [hworker']
          exact .entered s.since
        · show BridgeClient.hasBegun client.worker = true
          rw [hworker']
          rfl
        · rw [hdone'] at hover
          cases hover
        · cases hworker'.symm.trans hc
          exact ⟨s.time, rfl, nofun⟩
      · have hconnected : client.worker.isConnected = false := by
          rw [hworker']
          rfl
        rw [hconnected, Bool.not_false] at hdone'
        refine ⟨?_, hoptions.trans h.options, ?_, fun _ => hconnected, fun hundone => ?_,
          fun _ _ hc => ?_⟩
        · rw [clientPeer_done hdone', hworker]
          exact .left _
        · show BridgeClient.hasBegun client.worker = true
          rw [hworker']
          rfl
        · rw [hdone'] at hundone
          cases hundone
        · cases hworker'.symm.trans hc
    · obtain ⟨connection, phase, hworker⟩ := BridgeClient.exists_connection hconnected
      obtain ⟨reading, hread, hnow⟩ := h.client connection phase hworker
      obtain ⟨hmove, hoptions, hbegun, hnow'⟩ :=
        BridgeClient.connectionStep_move hworker hnow hreading
          (BridgeClient.workerStep_connected hworker h.options hclient)
      have hread' : (s.setClient action client toClient).clientReading =
          some (action.reading.getD reading) := by
        show (action.reading <|> s.clientReading) = _
        rw [hread]
        cases action.reading <;> rfl
      have hafter : (s.setClient action client toClient).clientPeer options =
          BridgeClient.peerAt options (action.reading.getD reading) client.worker := by
        cases hc : client.worker.isConnected with
        | true =>
          rw [hc, Bool.not_true] at hdone'
          exact clientPeer_undone hdone' hread'
        | false =>
          rw [hc, Bool.not_false] at hdone'
          rw [clientPeer_done hdone', BridgeClient.peerAt_unconnected hc]
      refine ⟨?_, hoptions.trans h.options, hbegun, fun hover => ?_, fun hundone => ?_,
        fun _ _ hc => ?_⟩
      · rw [hafter, clientPeer_undone hd hread]
        exact hmove
      · rw [hdone', Bool.not_eq_true'] at hover
        exact hover
      · rw [hdone', Bool.not_eq_false'] at hundone
        exact hundone
      · exact ⟨_, hread', hnow' _ _ hc⟩

omit [DecidableEq Tid] in
theorem serverPeer_left
    (h : SessionManager.hasLeft (s.server.manager.records session).worker = true) :
    s.serverPeer sessions session = .gone := by
  unfold serverPeer
  cases hworker : (s.server.manager.records session).worker with
  | none => rfl
  | entering | looping =>
    rw [hworker] at h
    cases h
  | _ => rfl

omit [DecidableEq Tid] in
theorem serverPeer_read {reading : ℤ} (hreading : s.serverReading = some reading) :
    s.serverPeer sessions session =
      SessionManager.peerAt sessions reading (s.server.manager.records session).worker := by
  unfold serverPeer
  rw [hreading]
  cases (s.server.manager.records session).worker <;> rfl

structure ServerMoves (managerId : BitVec 64) (sessions : TcpSessionManagerOptions) (session : ℕ)
    (s s' : HeartbeatLink Tid) (action : SessionAction) (sendTimeNs : BitVec 64) : Prop where
  move : Move sessions.settings s.time
    (moveKind ((s.server.manager.records session).worker.outgoing managerId sendTimeNs action)
      action.incoming action.isReceive) (s.serverPeer sessions session)
    (s'.serverPeer sessions session)
  begun : SessionManager.hasBegun (s'.server.manager.records session).worker = true
  reading : ∀ locals phase, (s'.server.manager.records session).worker = .looping locals phase →
    ∃ reading, s'.serverReading = some reading ∧ ∀ now, phase.now = some now → now = reading

theorem LinkInvariant.serverMoves {server : ManagerRun Tid} {toServer : List (Frame × ℤ)}
    {action : SessionAction} {sendTimeNs : BitVec 64}
    (h : s.LinkInvariant options sessions session)
    (hreading : ∀ now, action.reading = some now → now = s.time)
    (hserver : s.server.step (.session session action) = some server) :
    ServerMoves managerId sessions session s
      (s.setServer managerId session action sendTimeNs server toServer) action sendTimeNs := by
  obtain ⟨-, hs⟩ := Option.ite_none_right_eq_some.mp hserver
  obtain ⟨m, hstep, rfl⟩ := Option.map_eq_some_iff.mp hs
  have hoptions : s.server.manager.options = sessions := ManagerRun.options_of_reachable h.server
  cases hworker : (s.server.manager.records session).worker with
  | none => exact absurd hworker h.started
  | entering =>
    rw [hworker] at hstep
    cases action with
    | enter now =>
      obtain rfl := hreading now rfl
      cases hstep
      have hbefore : s.serverPeer sessions session = .away s.since := by
        unfold serverPeer
        rw [hworker, h.entering hworker]
      refine ⟨?_, ?_, ?_⟩
      · rw [hbefore, serverPeer_read rfl, hworker, ← hoptions]
        show Move _ _ _ _
          (SessionManager.peerAt _ _ ((SessionManager.setWorker _ _ _).records _).worker)
        rw [SessionManager.worker_setWorker]
        exact .entered s.since
      · show SessionManager.hasBegun ((SessionManager.setWorker _ _ _).records _).worker = true
        rw [SessionManager.worker_setWorker]
        rfl
      · intro locals phase hlooping
        replace hlooping : ((SessionManager.setWorker _ _ _).records _).worker = _ := hlooping
        rw [SessionManager.worker_setWorker] at hlooping
        cases hlooping
        exact ⟨s.time, rfl, nofun⟩
    | _ => cases hstep
  | looping locals phase =>
    rw [hworker] at hstep
    obtain ⟨reading, hread, hnow⟩ := h.session locals phase hworker
    obtain ⟨hmove, hbegun, hnow'⟩ :=
      SessionManager.loopStep_move managerId sendTimeNs hworker hnow hreading hstep
    have hread' : (s.setServer managerId session action sendTimeNs { s.server with manager := m }
        toServer).serverReading = some (action.reading.getD reading) := by
      show (action.reading <|> s.serverReading) = _
      rw [hread]
      cases action.reading <;> rfl
    refine ⟨?_, hbegun, fun _ _ hc => ⟨_, hread', hnow' _ _ hc⟩⟩
    rw [serverPeer_read hread, serverPeer_read hread', ← hoptions]
    exact hmove
  | _ =>
    have hleft : SessionManager.hasLeft (s.server.manager.records session).worker = true := by
      rw [hworker]
      rfl
    obtain ⟨rfl, hleft'⟩ := SessionManager.sessionStep_left hleft hstep
    refine ⟨?_, ?_, fun _ _ hlooping => ?_⟩
    · have hgone : (s.setServer managerId session .next sendTimeNs { s.server with manager := m }
          toServer).serverPeer sessions session = .gone := serverPeer_left hleft'
      rw [serverPeer_left hleft, hgone, SessionManager.outgoing_left hleft]
      exact .still _
    · exact SessionManager.hasBegun_of_hasLeft hleft'
    · replace hlooping : (m.records session).worker = _ := hlooping
      rw [hlooping] at hleft'
      cases hleft'

/-- What the other threads do to the client leaves its worker alone. -/
theorem client_beside {client client' : BridgeClient} {action : ClientAction}
    (hbegun : BridgeClient.hasBegun client.worker = true) (hs : client.step action = some client')
    (hother : ∀ a, action ≠ .worker a) :
    client'.worker = client.worker ∧ client'.options = client.options := by
  have hnone : client.worker ≠ .none := by
    intro hnone
    rw [hnone] at hbegun
    cases hbegun
  rcases BridgeClient.step_beside hs with ⟨a, rfl⟩ | rfl | ⟨options, rfl⟩ | hbeside
  · exact absurd rfl (hother a)
  · obtain ⟨hguard, -⟩ := Option.ite_none_right_eq_some.mp hs
    rw [Bool.and_eq_true, decide_eq_true_iff] at hguard
    exact absurd hguard.2 hnone
  · simp only [BridgeClient.step] at hs
    split at hs
    · obtain ⟨hguard, -⟩ := Option.ite_none_right_eq_some.mp hs
      rw [Bool.and_eq_true, decide_eq_true_iff] at hguard
      exact absurd hguard.2 hnone
    · cases hs
      exact ⟨rfl, rfl⟩
  · exact ⟨hbeside.worker, hbeside.options⟩

/-- What is done to the server beside the session leaves the worker of the session alone. -/
theorem server_beside {server server' : ManagerRun Tid} {action : ManagerAction Tid}
    (h : (managerSystem Tid sessions).Reachable server)
    (hbegun : (server.manager.records session).worker ≠ .none)
    (hs : server.step action = some server') (hother : ∀ a, action ≠ .session session a) :
    (server'.manager.records session).worker = (server.manager.records session).worker := by
  have hinv := ManagerRun.managerInvariant_of_reachable h
  cases action with
  | call t start =>
    obtain ⟨-, hs⟩ := Option.ite_none_right_eq_some.mp hs
    cases hs
    rfl
  | proceed t failed =>
    obtain ⟨⟨m, call⟩, hstep, hmove⟩ := Option.bind_eq_some_iff.mp hs
    obtain ⟨rfl, -⟩ := ManagerRun.exists_of_move hmove
    exact (SessionManager.lifecycleStep_view (hinv.calls t) hstep).worker
  | accept action =>
    obtain ⟨m, hstep, rfl⟩ := Option.map_eq_some_iff.mp hs
    exact (SessionManager.acceptStep_view rfl hstep).worker hinv.threads hbegun
  | session i action =>
    have hne : session ≠ i := by
      rintro rfl
      exact hother action rfl
    obtain ⟨-, hs⟩ := Option.ite_none_right_eq_some.mp hs
    obtain ⟨m, hstep, rfl⟩ := Option.map_eq_some_iff.mp hs
    rw [(SessionManager.sessionStep_view hstep).frame.others session hne]
  | sent threw =>
    cases hs
    rfl

structure Linked (bounds : LinkBounds) (options : ReconnectOptions)
    (sessions : TcpSessionManagerOptions) (session : ℕ) (s : HeartbeatLink Tid) : Prop where
  invariant : s.LinkInvariant options sessions session
  since_nonneg : 0 ≤ s.since
  time_le : s.time ≤ hundredYears
  refines : (KeepAlive.system (linkSettings options sessions) s.since).ReachableVia
    (KeepAlive.OnTime bounds.bounds) (s.view options sessions session)

theorem Linked.clientStep {action : WorkerAction} (h : s.Linked bounds options sessions session)
    (htime : s.OnTime bounds options sessions session (.client (.worker action)))
    (hs : s.clientStep action = some s') : s'.Linked bounds options sessions session := by
  obtain ⟨hguard, hs⟩ := Option.ite_none_right_eq_some.mp hs
  obtain ⟨client, hclient, hs⟩ := Option.bind_eq_some_iff.mp hs
  obtain ⟨toClient, htake, rfl⟩ := Option.map_eq_some_iff.mp hs
  rw [Bool.and_eq_true] at hguard
  have hreading (now : ℤ) (hnow : action.reading = some now) : now = s.time := by
    have hall := hguard.1
    rw [hnow] at hall
    exact of_decide_eq_true hall
  have hdone (hd : s.clientDone = true) : action.reading = none := by
    have hnot := hguard.2
    rw [hd, Bool.true_and, Bool.not_eq_true'] at hnot
    exact Option.isNone_iff_eq_none.mp (by rw [← Option.not_isSome, hnot]; rfl)
  have hmoves : ClientMoves options s (s.setClient action client toClient) action :=
    h.invariant.clientMoves hreading hdone hclient
  refine ⟨⟨hmoves.options, hmoves.begun, hmoves.done, fun hundone => .inr (hmoves.undone hundone),
    hmoves.reading, h.invariant.server, h.invariant.started, h.invariant.entering,
    h.invariant.session⟩, h.since_nonneg, h.time_le, ?_⟩
  have hafter : (s.view options sessions session).after .left
      ((s.setClient action client toClient).clientPeer options)
      (moveKind (s.client.worker.outgoing s.client.publisherId action) action.incoming
        action.isReceive) = (s.setClient action client toClient).view options sessions session :=
    after_client htake rfl BridgeWorker.incoming_of_outgoing rfl rfl
  have hmove : Move (linkSettings options sessions .left) (s.view options sessions session).time _
      ((s.view options sessions session).peers .left) _ := hmoves.move
  rw [← hafter]
  refine reachableVia_moved h.refines hmove rfl htake fun hincoming hreceive hthere sent hsent => ?_
  obtain ⟨now, rfl⟩ := action.exists_receive hincoming hreceive
  exact htime.2.1 rfl hthere sent hsent

theorem Linked.serverStep {action : SessionAction} {sendTimeNs : BitVec 64}
    (h : s.Linked bounds options sessions session)
    (htime : s.OnTime bounds options sessions session
      (.server (.session session action) sendTimeNs))
    (hs : s.serverStep managerId session action sendTimeNs = some s') :
    s'.Linked bounds options sessions session := by
  obtain ⟨hguard, hs⟩ := Option.ite_none_right_eq_some.mp hs
  obtain ⟨server, hserver, hs⟩ := Option.bind_eq_some_iff.mp hs
  obtain ⟨toServer, htake, rfl⟩ := Option.map_eq_some_iff.mp hs
  have hreading (now : ℤ) (hnow : action.reading = some now) : now = s.time := by
    rw [hnow] at hguard
    exact of_decide_eq_true hguard
  have hmoves : ServerMoves managerId sessions session s
      (s.setServer managerId session action sendTimeNs server toServer) action sendTimeNs :=
    h.invariant.serverMoves hreading hserver
  have hbegun := hmoves.begun
  have hreachable : (managerSystem Tid sessions).Reachable server :=
    h.invariant.server.step (a := .session session action) hserver
  refine ⟨⟨h.invariant.options, h.invariant.begun, h.invariant.done, h.invariant.undone,
    h.invariant.client, hreachable, fun hnone => ?_, fun hentering => ?_,
    hmoves.reading⟩, h.since_nonneg, h.time_le, ?_⟩
  · rw [hnone] at hbegun
    cases hbegun
  · rw [hentering] at hbegun
    cases hbegun
  have hafter : (s.view options sessions session).after .right
      ((s.setServer managerId session action sendTimeNs server toServer).serverPeer sessions
        session)
      (moveKind ((s.server.manager.records session).worker.outgoing managerId sendTimeNs action)
        action.incoming action.isReceive) =
      (s.setServer managerId session action sendTimeNs server toServer).view options sessions
        session :=
    after_server htake rfl SessionWorker.incoming_of_outgoing rfl rfl
  have hmove : Move (linkSettings options sessions .right) (s.view options sessions session).time _
      ((s.view options sessions session).peers .right) _ := hmoves.move
  rw [← hafter]
  refine reachableVia_moved h.refines hmove rfl htake fun hincoming hreceive hthere sent hsent => ?_
  obtain ⟨now, rfl⟩ := action.exists_receive hincoming hreceive
  exact htime.2.2 (decide_eq_true rfl) hthere sent hsent

/-- Something is done to the server that leaves the worker of the session alone. -/
theorem Linked.besideServer {server : ManagerRun Tid} {action : ManagerAction Tid}
    (h : s.Linked bounds options sessions session) (hs : s.server.step action = some server)
    (hother : ∀ a, action ≠ .session session a) :
    Linked bounds options sessions session { s with server } := by
  have hworker := server_beside h.invariant.server h.invariant.started hs hother
  have hpeer : serverPeer sessions session { s with server } = s.serverPeer sessions session := by
    unfold serverPeer
    rw [hworker]
  have hview : view options sessions session { s with server } = s.view options sessions session :=
    (eq_view rfl rfl hpeer.symm rfl rfl).symm
  have hreachable : (managerSystem Tid sessions).Reachable server :=
    h.invariant.server.step (a := action) hs
  refine ⟨⟨h.invariant.options, h.invariant.begun, h.invariant.done, h.invariant.undone,
    h.invariant.client, hreachable, ?_, ?_, ?_⟩, h.since_nonneg, h.time_le, ?_⟩
  · show (server.manager.records session).worker ≠ .none
    rw [hworker]
    exact h.invariant.started
  · show (server.manager.records session).worker = .entering → _
    rw [hworker]
    exact h.invariant.entering
  · intro locals phase hlooping
    exact h.invariant.session locals phase (hworker.symm.trans hlooping)
  · rw [hview]
    exact h.refines

theorem Linked.besideClient {client : BridgeClient} {action : ClientAction}
    (h : s.Linked bounds options sessions session) (hs : s.client.step action = some client)
    (hother : ∀ a, action ≠ .worker a) :
    Linked bounds options sessions session { s with client } := by
  obtain ⟨hworker, hoptions⟩ := client_beside h.invariant.begun hs hother
  have hpeer : clientPeer options { s with client } = s.clientPeer options := by
    unfold clientPeer
    rw [hworker]
  have hview : view options sessions session { s with client } = s.view options sessions session :=
    (eq_view rfl hpeer.symm rfl rfl rfl).symm
  refine ⟨⟨hoptions.trans h.invariant.options, ?_, ?_, ?_, ?_, h.invariant.server,
    h.invariant.started, h.invariant.entering, h.invariant.session⟩, h.since_nonneg, h.time_le, ?_⟩
  · show BridgeClient.hasBegun client.worker = true
    rw [hworker]
    exact h.invariant.begun
  · show s.clientDone = true → client.worker.isConnected = false
    rw [hworker]
    exact h.invariant.done
  · show s.clientDone = false → client.worker = .connecting ∧ _ ∨ client.worker.isConnected = true
    rw [hworker]
    exact h.invariant.undone
  · intro connection phase hconnected
    exact h.invariant.client connection phase (hworker.symm.trans hconnected)
  · rw [hview]
    exact h.refines

theorem Linked.step {action : HeartbeatLinkAction Tid}
    (h : s.Linked bounds options sessions session)
    (htime : s.OnTime bounds options sessions session action)
    (hs : s.step managerId session action = some s') :
    s'.Linked bounds options sessions session := by
  cases action with
  | pass time =>
    obtain ⟨hle, hs⟩ := Option.ite_none_right_eq_some.mp hs
    cases hs
    have hpass : KeepAlive.OnTime bounds.bounds (s.view options sessions session) (.pass time) := by
      intro side
      cases side
      · exact (htime.1 time rfl).1
      · exact (htime.1 time rfl).2
    exact ⟨{ h.invariant with }, h.since_nonneg, hle.2, h.refines.step hpass (if_pos hle.1)⟩
  | client action =>
    cases action with
    | worker action => exact h.clientStep htime hs
    | _ =>
      simp only [HeartbeatLink.step] at hs
      obtain ⟨client, hclient, rfl⟩ := Option.map_eq_some_iff.mp hs
      exact h.besideClient hclient nofun
  | server action sendTimeNs =>
    cases action with
    | session i action =>
      simp only [HeartbeatLink.step] at hs
      split at hs
      case isTrue heq =>
        subst heq
        exact h.serverStep htime hs
      case isFalse hne =>
        obtain ⟨server, hserver, rfl⟩ := Option.map_eq_some_iff.mp hs
        exact h.besideServer hserver fun a heq => hne (ManagerAction.session.inj heq).1
    | _ =>
      simp only [HeartbeatLink.step] at hs
      obtain ⟨server, hserver, rfl⟩ := Option.map_eq_some_iff.mp hs
      exact h.besideServer hserver nofun
  | sendTo frame =>
    cases hs
    refine ⟨{ h.invariant with }, h.since_nonneg, h.time_le, ?_⟩
    have hview : (s.view options sessions session).post .right =
        view options sessions session { s with
          toClient := postFrame s.toClient s.time (some frame) } := by
      refine eq_view rfl rfl rfl ?_ rfl
      rw [postFrame_times]
      rfl
    rw [← hview]
    exact h.refines.step (a := .send .right) trivial rfl

end HeartbeatLink
end RobotMiddleware
