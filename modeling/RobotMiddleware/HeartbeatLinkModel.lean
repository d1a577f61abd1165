import RobotMiddleware.ClientLoopModel
import RobotMiddleware.KeepAlive
import RobotMiddleware.SessionManagerModel

/-! One TCP connection between the `client_loop` of a bridge and the `session_loop` of a server,
on one steady clock in its first hundred years. Frames are on their way in order, each with the
time at which it was handed to `send_frame`. Everything else that the bridge and the server do
goes on beside it. -/
namespace RobotMiddleware

open KeepAlive (Peer Stage)

/-- The clock is read where a connection starts and where `receive_frame` has returned. -/
def WorkerAction.reading : WorkerAction → Option ℤ
  | .connect now | .receive _ now => some now
  | _ => none

def WorkerAction.incoming : WorkerAction → Option Frame
  | .receive incoming _ => incoming
  | _ => none

def SessionAction.reading : SessionAction → Option ℤ
  | .enter now | .receive _ now => some now
  | _ => none

def SessionAction.incoming : SessionAction → Option Frame
  | .receive incoming _ => incoming
  | _ => none

def BridgeWorker.outgoing (publisherId : BitVec 64) : BridgeWorker → WorkerAction → Option Frame
  | .connected _ (.popped _ frame), .next => some frame
  | .connected connection (.heartbeat _), .beat sendTimeNs =>
    some (makeHeartbeatFrame publisherId connection.heartbeatSequence sendTimeNs)
  | _, _ => .none

def SessionWorker.outgoing (managerId sendTimeNs : BitVec 64) :
    SessionWorker → SessionAction → Option Frame
  | .looping locals (.heartbeat now), .next =>
    if locals.nextHeartbeat ≤ now then
      some (makeHeartbeatFrame managerId locals.heartbeatSequence sendTimeNs)
    else .none
  | _, _ => .none

/-- What is left on a line when `receive_frame` returns a frame from it, or none. -/
def takeFrame (line : List (Frame × ℤ)) : Option Frame → Option (List (Frame × ℤ))
  | none => some line
  | some frame =>
    match line with
    | sent :: rest => if sent.1 = frame then some rest else none
    | [] => none

def postFrame (line : List (Frame × ℤ)) (time : ℤ) : Option Frame → List (Frame × ℤ)
  | none => line
  | some frame => line ++ [(frame, time)]

/-- `since` is the time at which the connection was made, and the readings are the last ones of
its two ends; `clientDone` says that the client has left this connection, after which it may try
to get another one. -/
structure HeartbeatLink (Tid : Type) where
  time : ℤ
  since : ℤ
  client : BridgeClient
  clientReading : Option ℤ := none
  clientDone : Bool := false
  server : ManagerRun Tid
  serverReading : Option ℤ := none
  toClient : List (Frame × ℤ) := []
  toServer : List (Frame × ℤ) := []

/-- `sendTo` is a frame that `send_to` or `broadcast` hands to the connection of the session;
`sendTimeNs` is read where a heartbeat is made. -/
inductive HeartbeatLinkAction (Tid : Type)
  | pass (time : ℤ)
  | client (action : ClientAction)
  | server (action : ManagerAction Tid) (sendTimeNs : BitVec 64)
  | sendTo (frame : Frame)

namespace HeartbeatLink
variable {Tid : Type}

def setClient (s : HeartbeatLink Tid) (action : WorkerAction) (client : BridgeClient)
    (toClient : List (Frame × ℤ)) : HeartbeatLink Tid :=
  { s with
    client, toClient
    clientReading := action.reading <|> s.clientReading
    clientDone := s.clientDone || !client.worker.isConnected
    toServer := postFrame s.toServer s.time
      (s.client.worker.outgoing s.client.publisherId action) }

/-- A step of `client_loop`, which reads the clock as it is and starts this connection once. -/
def clientStep (s : HeartbeatLink Tid) (action : WorkerAction) : Option (HeartbeatLink Tid) :=
  if action.reading.all (fun now => decide (now = s.time)) &&
      !(s.clientDone && action.reading.isSome) then
    (s.client.step (.worker action)).bind fun client =>
      (takeFrame s.toClient action.incoming).map (s.setClient action client)
  else none

def setServer (s : HeartbeatLink Tid) (managerId : BitVec 64) (session : ℕ)
    (action : SessionAction) (sendTimeNs : BitVec 64) (server : ManagerRun Tid)
    (toServer : List (Frame × ℤ)) : HeartbeatLink Tid :=
  { s with
    server, toServer
    serverReading := action.reading <|> s.serverReading
    toClient := postFrame s.toClient s.time
      ((s.server.manager.records session).worker.outgoing managerId sendTimeNs action) }

variable [DecidableEq Tid]

def serverStep (managerId : BitVec 64) (session : ℕ) (s : HeartbeatLink Tid)
    (action : SessionAction) (sendTimeNs : BitVec 64) : Option (HeartbeatLink Tid) :=
  if action.reading.all fun now => decide (now = s.time) then
    (s.server.step (.session session action)).bind fun server =>
      (takeFrame s.toServer action.incoming).map
        (s.setServer managerId session action sendTimeNs server)
  else none

def step (managerId : BitVec 64) (session : ℕ) (s : HeartbeatLink Tid) :
    HeartbeatLinkAction Tid → Option (HeartbeatLink Tid)
  | .pass time => if s.time ≤ time ∧ time ≤ hundredYears then some { s with time } else none
  | .client (.worker action) => s.clientStep action
  | .client action => (s.client.step action).map fun client => { s with client }
  | .server (.session i action) sendTimeNs =>
    if i = session then s.serverStep managerId session action sendTimeNs
    else (s.server.step (.session i action)).map fun server => { s with server }
  | .server action _ => (s.server.step action).map fun server => { s with server }
  -- the session was active when the snapshot was taken, and may have ended since
  | .sendTo frame => some { s with toClient := postFrame s.toClient s.time (some frame) }

end HeartbeatLink

/-! How an end looks to the other one. -/

/-- The time of the last frame, which `last_receive` is set to after it was classified. -/
def ConnectionPhase.lastReceive (connection : ClientConnection) : ConnectionPhase → ℤ
  | .classifying _ now | .delivering _ now | .noticing now => now
  | _ => connection.lastReceive

def ConnectionPhase.nextHeartbeat (options : ReconnectOptions) (connection : ClientConnection) :
    ConnectionPhase → ℤ
  | .sendingHeartbeat now => now + options.heartbeatInterval.nanoseconds
  | _ => connection.nextHeartbeat

def ConnectionPhase.stage : ConnectionPhase → Stage
  | .classifying _ _ | .delivering _ _ | .noticing _ | .heartbeat _ => .beating
  | .sendingHeartbeat _ | .idle _ => .judging
  | _ => .waiting

def ConnectionPhase.now : ConnectionPhase → Option ℤ
  | .classifying _ now | .delivering _ now | .noticing now | .heartbeat now
  | .sendingHeartbeat now | .idle now => some now
  | _ => none

def SessionPhase.nextHeartbeat (options : TcpSessionManagerOptions) (locals : SessionLocals) :
    SessionPhase → ℤ
  | .sending now => now + options.heartbeatInterval.nanoseconds
  | _ => locals.nextHeartbeat

def SessionPhase.stage : SessionPhase → Stage
  | .classifying _ _ | .handling _ | .heartbeat _ => .beating
  | .sending _ | .idle _ => .judging
  | _ => .waiting

def SessionPhase.now : SessionPhase → Option ℤ
  | .classifying _ now | .handling now | .heartbeat now | .sending now | .idle now => some now
  | _ => none

namespace HeartbeatLink
variable {Tid : Type}

def clientPeer (options : ReconnectOptions) (s : HeartbeatLink Tid) : Peer ℤ :=
  if s.clientDone then .gone
  else
    match s.client.worker, s.clientReading with
    | .connecting, none => .away s.since
    | .connected _ .closing, _ => .gone
    | .connected connection phase, some reading =>
      .up reading (phase.nextHeartbeat options connection) (phase.lastReceive connection)
        phase.stage
    | _, _ => .gone

def serverPeer (options : TcpSessionManagerOptions) (session : ℕ) (s : HeartbeatLink Tid) :
    Peer ℤ :=
  match (s.server.manager.records session).worker, s.serverReading with
  | .entering, none => .away s.since
  | .looping locals phase, some reading =>
    .up reading (phase.nextHeartbeat options locals) locals.lastReceive phase.stage
  | _, _ => .gone

end HeartbeatLink

/-- How long an end may take until it is in its loop, how long a turn of a loop may take, and how
long a frame may take until `receive_frame` finds it. -/
structure LinkBounds where
  entry : ℤ
  clientTurn : ℤ
  serverTurn : ℤ
  delay : ℤ
  entry_nonneg : 0 ≤ entry
  clientTurn_nonneg : 0 ≤ clientTurn
  serverTurn_nonneg : 0 ≤ serverTurn
  delay_nonneg : 0 ≤ delay

def LinkBounds.turn (bounds : LinkBounds) : KeepAlive.Side → ℤ
  | .left => bounds.clientTurn
  | .right => bounds.serverTurn

def LinkBounds.bounds (bounds : LinkBounds) : KeepAlive.Bounds ℤ :=
  { entry := bounds.entry, turn := bounds.turn, delay := bounds.delay }

namespace HeartbeatLinkAction
variable {Tid : Type}

def passed : HeartbeatLinkAction Tid → Option ℤ
  | .pass time => some time
  | _ => none

def clientMisses : HeartbeatLinkAction Tid → Bool
  | .client (.worker (.receive none _)) => true
  | _ => false

def serverMisses (session : ℕ) : HeartbeatLinkAction Tid → Bool
  | .server (.session i (.receive none _)) _ => i = session
  | _ => false

end HeartbeatLinkAction

/-- No end is late, and one that finds no frame has no old one on its way from an end that is
still there. -/
def HeartbeatLink.OnTime {Tid : Type} (bounds : LinkBounds) (options : ReconnectOptions)
    (sessions : TcpSessionManagerOptions) (session : ℕ) (s : HeartbeatLink Tid)
    (action : HeartbeatLinkAction Tid) : Prop :=
  (∀ time ∈ action.passed, (s.clientPeer options).Allows bounds.bounds .left time ∧
    (s.serverPeer sessions session).Allows bounds.bounds .right time) ∧
  (action.clientMisses = true → s.serverPeer sessions session ≠ .gone →
    ∀ sent ∈ s.toClient, s.time < sent.2 + bounds.delay) ∧
  (action.serverMisses session = true → s.clientPeer options ≠ .gone →
    ∀ sent ∈ s.toServer, s.time < sent.2 + bounds.delay)

instance {Tid : Type} {bounds : LinkBounds} {options : ReconnectOptions}
    {sessions : TcpSessionManagerOptions} {session : ℕ} (s : HeartbeatLink Tid)
    (action : HeartbeatLinkAction Tid) :
    Decidable (s.OnTime bounds options sessions session action) :=
  inferInstanceAs (Decidable (_ ∧ _ ∧ _))

end RobotMiddleware
