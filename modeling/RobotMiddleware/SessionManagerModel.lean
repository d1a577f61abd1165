import RobotMiddleware.FrameClassification
import RobotMiddleware.ScopedLock
import RobotMiddleware.TimingOverflow

/-! `TcpSessionManager`: the accept thread with its reaper, a worker for every session, and calls
of `start` and `stop` by any number of external threads and by the frame handler. What is done
under `sessions_mutex` is one step, since nothing is waited for with it, except in the scan of the
reaper. -/
namespace RobotMiddleware

/-- The threads of a manager: the workers go by the number of their session. -/
inductive ManagerThread (Tid : Type)
  | external (t : Tid)
  | accept
  | worker (session : ℕ)
  deriving DecidableEq

structure SessionLocals where
  lastReceive : ℤ
  nextHeartbeat : ℤ
  heartbeatSequence : BitVec 64 := 0
  deriving DecidableEq

inductive SessionPhase
  | checking
  | receiving
  | classifying (frame : Frame) (now : ℤ)
  | handling (now : ℤ)
  | heartbeat (now : ℤ)
  | sending (now : ℤ)
  | idle (now : ℤ)
  deriving DecidableEq

/-- Where a worker is in `session_loop`. `caught` are the handlers of its `try` block; an orderly
disconnect is no error. -/
inductive SessionWorker
  | none
  | entering
  | looping (locals : SessionLocals) (phase : SessionPhase)
  | caught (orderly : Bool)
  | closing
  | exchanging
  | countingActive
  | countingDisconnected
  | clearing
  | left
  deriving DecidableEq

structure ManagedSession where
  id : BitVec 64
  active : Bool := true
  worker : SessionWorker := .none
  joinable : Bool := false
  deriving DecidableEq

/-- Where the accept thread is. `testing` has a connection; from `preparing` to `erasing` it makes
a session. A scan of the reaper has its `rest` before it; the last one comes after the loop. -/
inductive AcceptLoop
  | none
  | checking
  | accepting
  | testing
  | rejecting
  | creating
  | preparing (session : ℕ)
  | pushing (session : ℕ)
  | countingAccepted (session : ℕ)
  | countingActive (session : ℕ)
  | starting (session : ℕ)
  | deactivating (session : ℕ)
  | uncounting (session : ℕ)
  | countingDisconnected (session : ℕ)
  | erasing (session : ℕ)
  | scanning (last : Bool) (rest finished : List ℕ)
  | joining (last : Bool) (finished : List ℕ)
  | caught
  | left
  deriving DecidableEq

/-- Where a thread is in a call of `start` or `stop`. `requesting` is `request_stop` in a handler;
from `checking` on the call has `lifecycle_mutex`, and from `joiningAccept` to `joining` it is in
`finish_stop_locked`. -/
inductive LifecycleCall
  | none
  | entering (start : Bool)
  | requesting
  | locking (start : Bool)
  | checking (start : Bool)
  | joiningAccept (start : Bool)
  | swapping (start : Bool)
  | joining (start : Bool) (snapshot : List ℕ)
  | setRunning
  | creating
  | restoring
  | unlocking (start : Bool)
  deriving DecidableEq

def LifecycleCall.holds : LifecycleCall → Bool
  | .none | .entering _ | .requesting | .locking _ => false
  | _ => true

structure SessionStats where
  rejectedClients : ℕ := 0
  framesReceived : ℕ := 0
  framesSent : ℕ := 0
  heartbeatsReceived : ℕ := 0
  heartbeatsSent : ℕ := 0
  callbackErrors : ℕ := 0
  transportErrors : ℕ := 0
  protocolErrors : ℕ := 0
  idleTimeouts : ℕ := 0
  deriving DecidableEq

/-- The sessions that were counted in `accepted`, that took a slot of `active` and gave it back,
and that were counted in `disconnected`, in order. -/
structure SessionHistory where
  accepted : List ℕ := []
  taken : List ℕ := []
  givenBack : List ℕ := []
  disconnected : List ℕ := []
  deriving DecidableEq

/-- `Impl` without its server and handler; `records` are the sessions by number, of which `created`
have been made, and `ids` their identifiers. `active`, which is tested before it grows, cannot
wrap. -/
structure SessionManager where
  options : TcpSessionManagerOptions
  running : Bool := false
  acceptThread : AcceptLoop := .none
  acceptJoinable : Bool := false
  sessions : List ℕ := []
  records : ℕ → ManagedSession := fun _ => { id := 0 }
  created : ℕ := 0
  nextSessionId : BitVec 64 := 1
  accepted : BitVec 64 := 0
  active : ℕ := 0
  disconnected : BitVec 64 := 0
  stats : SessionStats := {}
  ids : List (BitVec 64) := []
  history : SessionHistory := {}

inductive AcceptAction
  | next
  | fail
  | connection (accepted : Bool)
  deriving DecidableEq

inductive SessionAction
  | next
  | fail (orderly : Bool)
  | enter (now : ℤ)
  | receive (frame : Option Frame) (now : ℤ)
  | handled (threw : Bool)
  deriving DecidableEq

namespace SessionManager

def setRecord (m : SessionManager) (session : ℕ) (record : ManagedSession) : SessionManager :=
  { m with records := Function.update m.records session record }

def setWorker (m : SessionManager) (session : ℕ) (worker : SessionWorker) : SessionManager :=
  m.setRecord session { m.records session with worker := worker }

def setAccept (m : SessionManager) (acceptThread : AcceptLoop) : SessionManager :=
  { m with acceptThread := acceptThread }

def takeSlot (m : SessionManager) (session : ℕ) : SessionManager :=
  { m with
    active := m.active + 1
    history := { m.history with taken := m.history.taken ++ [session] } }

def giveSlotBack (m : SessionManager) (session : ℕ) : SessionManager :=
  { m with
    active := m.active - 1
    history := { m.history with givenBack := m.history.givenBack ++ [session] } }

def countAccepted (m : SessionManager) (session : ℕ) : SessionManager :=
  { m with
    accepted := m.accepted + 1
    history := { m.history with accepted := m.history.accepted ++ [session] } }

def countDisconnected (m : SessionManager) (session : ℕ) : SessionManager :=
  { m with
    disconnected := m.disconnected + 1
    history := { m.history with disconnected := m.history.disconnected ++ [session] } }

/-- `std::make_shared<Session>` and the next identifier. -/
def create (m : SessionManager) : SessionManager :=
  { m with
    records := Function.update m.records m.created { id := m.nextSessionId }
    created := m.created + 1
    nextSessionId := m.nextSessionId + 1
    ids := m.ids ++ [m.nextSessionId] }

/-- One step of `accept_loop`; `fail` is an exception, other than of the reaper, which is taken
to have the memory that it needs. -/
def acceptStep (m : SessionManager) : AcceptLoop → AcceptAction → Option SessionManager
  | .checking, .next =>
    some (m.setAccept (if m.running then .accepting else .scanning true m.sessions []))
  | .accepting, .connection accepted =>
    some (m.setAccept (if accepted then .testing else .scanning false m.sessions []))
  -- the capacity is tested before the slot is taken, by the only thread that takes slots
  | .testing, .next =>
    some (m.setAccept (if m.options.maxClients ≤ m.active then .rejecting else .creating))
  -- the rejected connection is closed, and the reaper is not called
  | .rejecting, .next =>
    some ({ m with stats := { m.stats with
      rejectedClients := m.stats.rejectedClients + 1 } }.setAccept .checking)
  | .creating, .next => some (m.create.setAccept (.preparing m.created))
  | .preparing session, .next => some (m.setAccept (.pushing session))
  | .pushing session, .next =>
    some ({ m with sessions := m.sessions ++ [session] }.setAccept (.countingAccepted session))
  | .countingAccepted session, .next =>
    some ((m.countAccepted session).setAccept (.countingActive session))
  | .countingActive session, .next => some ((m.takeSlot session).setAccept (.starting session))
  | .starting session, .next =>
    some ((m.setRecord session
      { m.records session with worker := .entering, joinable := true }).setAccept
        (.scanning false m.sessions []))
  -- without a thread the slot and the counts are settled here, and the exception goes on
  | .starting session, .fail => some (m.setAccept (.deactivating session))
  | .deactivating session, .next =>
    some ((m.setRecord session { m.records session with active := false }).setAccept
      (.uncounting session))
  | .uncounting session, .next =>
    some ((m.giveSlotBack session).setAccept (.countingDisconnected session))
  | .countingDisconnected session, .next =>
    some ((m.countDisconnected session).setAccept (.erasing session))
  | .erasing session, .next =>
    some ({ m with sessions := m.sessions.filter (· ≠ session) }.setAccept .caught)
  -- the reaper, once after each accept and once more at the end
  | .scanning last (session :: rest) finished, .next =>
    if (m.records session).active then some (m.setAccept (.scanning last rest finished))
    else
      some ({ m with sessions := m.sessions.erase session }.setAccept
        (.scanning last rest (finished ++ [session])))
  | .scanning last [] finished, .next => some (m.setAccept (.joining last finished))
  | .joining last (session :: finished), .next =>
    let record := m.records session
    if record.joinable then
      if record.worker = .left then
        some ((m.setRecord session { record with joinable := false }).setAccept
          (.joining last finished))
      else none
    else some (m.setAccept (.joining last finished))
  | .joining last [], .next => some (m.setAccept (if last then .left else .checking))
  | .caught, .next =>
    let transportErrors := m.stats.transportErrors + if m.running then 1 else 0
    some ({ m with stats := { m.stats with transportErrors := transportErrors } }.setAccept
      .checking)
  | .accepting, .fail | .creating, .fail | .preparing _, .fail | .pushing _, .fail =>
    some (m.setAccept .caught)
  | _, _ => none

/-- One step of the `while` loop of `session_loop`. -/
def loopStep (m : SessionManager) (session : ℕ) (locals : SessionLocals) :
    SessionPhase → SessionAction → Option SessionManager
  | .checking, .next =>
    some (m.setWorker session (if m.running && (m.records session).active
      then .looping locals .receiving else .closing))
  -- `last_receive` is set before the flags are looked at
  | .receiving, .receive (some frame) now =>
    some (m.setWorker session (.looping { locals with lastReceive := now }
      (.classifying frame now)))
  | .receiving, .receive none now => some (m.setWorker session (.looping locals (.heartbeat now)))
  | .classifying frame now, .next =>
    match sessionFrame frame with
    | .ok .heartbeat =>
      some ({ m with stats := { m.stats with
        heartbeatsReceived := m.stats.heartbeatsReceived + 1 } }.setWorker session
          (.looping locals (.heartbeat now)))
    | .ok .handle =>
      some ({ m with stats := { m.stats with
        framesReceived := m.stats.framesReceived + 1 } }.setWorker session
          (.looping locals (.handling now)))
    | .error _ =>
      some ({ m with stats := { m.stats with
        protocolErrors := m.stats.protocolErrors + 1 } }.setWorker session (.caught false))
  -- what the handler throws does not end the session
  | .handling now, .handled threw =>
    let callbackErrors := m.stats.callbackErrors + if threw then 1 else 0
    some ({ m with stats := { m.stats with callbackErrors := callbackErrors } }.setWorker session
      (.looping locals (.heartbeat now)))
  | .heartbeat now, .next =>
    some (m.setWorker session (.looping locals
      (if locals.nextHeartbeat ≤ now then .sending now else .idle now)))
  | .sending now, .next =>
    let nextHeartbeat := now + m.options.heartbeatInterval.nanoseconds
    let heartbeatSequence := locals.heartbeatSequence + 1
    some ({ m with stats := { m.stats with
      heartbeatsSent := m.stats.heartbeatsSent + 1 } }.setWorker session
        (.looping { locals with nextHeartbeat, heartbeatSequence } (.idle now)))
  -- an idle peer ends the loop without an exception
  | .idle now, .next =>
    if m.options.idleTimeout.nanoseconds ≤ now - locals.lastReceive then
      some ({ m with stats := { m.stats with
        idleTimeouts := m.stats.idleTimeouts + 1 } }.setWorker session .closing)
    else some (m.setWorker session (.looping locals .checking))
  | .receiving, .fail orderly | .sending _, .fail orderly =>
    some (m.setWorker session (.caught orderly))
  | _, _ => none

def sessionStep (m : SessionManager) (session : ℕ) :
    SessionWorker → SessionAction → Option SessionManager
  | .entering, .enter now =>
    let nextHeartbeat := now + m.options.heartbeatInterval.nanoseconds
    some (m.setWorker session (.looping { lastReceive := now, nextHeartbeat } .checking))
  | .looping locals phase, action => m.loopStep session locals phase action
  | .caught orderly, .next =>
    let transportErrors := m.stats.transportErrors + if m.running && !orderly then 1 else 0
    some ({ m with stats := { m.stats with transportErrors := transportErrors } }.setWorker session
      .closing)
  | .closing, .next => some (m.setWorker session .exchanging)
  -- the exchange of `session->active` settles who gives the slot back
  | .exchanging, .next =>
    let record := m.records session
    let worker := if record.active then .countingActive else .clearing
    some (m.setRecord session { record with active := false, worker := worker })
  | .countingActive, .next =>
    some ((m.giveSlotBack session).setWorker session .countingDisconnected)
  | .countingDisconnected, .next => some ((m.countDisconnected session).setWorker session .clearing)
  | .clearing, .next => some (m.setWorker session .left)
  | _, _ => none

/-- One step of a call of `start` or `stop` by a thread for which `active_session_manager` is or is
not this manager; `failed` is a thread that could not be created. -/
def lifecycleStep (m : SessionManager) (inHandler : Bool) :
    LifecycleCall → Bool → Option (SessionManager × LifecycleCall)
  -- `start` throws in a handler
  | .entering start, false =>
    some (m, if inHandler then (if start then .none else .requesting) else .locking start)
  -- `stop` in a handler only requests the stop: a worker cannot join itself
  | .requesting, false => some ({ m with running := false }, .none)
  | .locking start, false => some (m, .checking start)
  | .checking true, false => some (m, if m.running then .unlocking true else .joiningAccept true)
  | .checking false, false => some ({ m with running := false }, .joiningAccept false)
  -- `finish_stop_locked`, which `start` runs as well for what an earlier run left
  | .joiningAccept start, false =>
    if m.acceptJoinable then
      if m.acceptThread = .left then some ({ m with acceptJoinable := false }, .swapping start)
      else none
    else some (m, .swapping start)
  | .swapping start, false => some ({ m with sessions := [] }, .joining start m.sessions)
  | .joining start (session :: snapshot), false =>
    let record := m.records session
    if record.joinable then
      if record.worker = .left then
        some (m.setRecord session { record with joinable := false }, .joining start snapshot)
      else none
    else some (m, .joining start snapshot)
  | .joining start [], false => some (m, if start then .setRunning else .unlocking false)
  | .setRunning, false => some ({ m with running := true }, .creating)
  | .creating, false =>
    some ({ m with acceptThread := .checking, acceptJoinable := true }, .unlocking true)
  -- no accept thread, so `running` is taken back
  | .creating, true => some (m, .restoring)
  | .restoring, false => some ({ m with running := false }, .unlocking true)
  | .unlocking _, false => some (m, .none)
  | _, _ => none

/-- `active_session_manager == this`, which a worker sets first and clears last. -/
def isInHandler {Tid : Type} (m : SessionManager) : ManagerThread Tid → Bool
  | .worker session =>
    match (m.records session).worker with
    | .none | .entering | .left => false
    | _ => true
  | _ => false

/-- The thread is in user code: a worker in the frame handler, or an external thread. -/
def isInUserCode {Tid : Type} (m : SessionManager) : ManagerThread Tid → Bool
  | .external _ => true
  | .accept => false
  | .worker session =>
    match (m.records session).worker with
    | .looping _ (.handling _) => true
    | _ => false

end SessionManager

structure ManagerRun (Tid : Type) where
  manager : SessionManager
  lifecycleMutex : Option (ManagerThread Tid) := none
  calls : ManagerThread Tid → LifecycleCall := fun _ => .none

/-- `sent` is a call of `send_to` or `broadcast` with a frame, which uses the sessions and leaves
them alone. -/
inductive ManagerAction (Tid : Type)
  | call (t : ManagerThread Tid) (start : Bool)
  | proceed (t : ManagerThread Tid) (failed : Bool)
  | accept (action : AcceptAction)
  | session (session : ℕ) (action : SessionAction)
  | sent (threw : Bool)

namespace ManagerRun
variable {Tid : Type} [DecidableEq Tid]

def move (s : ManagerRun Tid) (t : ManagerThread Tid) (manager : SessionManager)
    (call : LifecycleCall) : Option (ManagerRun Tid) :=
  (ScopedLock.pass s.lifecycleMutex t (s.calls t).holds call.holds).map fun lifecycleMutex =>
    { manager, lifecycleMutex, calls := Function.update s.calls t call }

def step (s : ManagerRun Tid) : ManagerAction Tid → Option (ManagerRun Tid)
  | .call t start =>
    if s.calls t = .none && s.manager.isInUserCode t then
      some { s with calls := Function.update s.calls t (.entering start) }
    else none
  | .proceed t failed =>
    (s.manager.lifecycleStep (s.manager.isInHandler t) (s.calls t) failed).bind
      fun (manager, call) => s.move t manager call
  | .accept action =>
    (s.manager.acceptStep s.manager.acceptThread action).map fun manager => { s with manager }
  | .session session action =>
    -- a call that the handler has made is not over yet
    if s.calls (.worker session) = .none then
      (s.manager.sessionStep session (s.manager.records session).worker action).map
        fun manager => { s with manager }
    else none
  | .sent threw =>
    let stats := if threw then
        { s.manager.stats with transportErrors := s.manager.stats.transportErrors + 1 }
      else { s.manager.stats with framesSent := s.manager.stats.framesSent + 1 }
    some { s with manager := { s.manager with stats } }

end ManagerRun

def managerSystem (Tid : Type) [DecidableEq Tid] (options : TcpSessionManagerOptions) :
    TransitionSystem (ManagerRun Tid) (ManagerAction Tid) where
  init s := validateOptions options = .ok () ∧ s = { manager := { options } }
  step := ManagerRun.step

end RobotMiddleware
