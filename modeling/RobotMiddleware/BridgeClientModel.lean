import RobotMiddleware.BridgeModel
import RobotMiddleware.BridgeStopModel

/-! The worker thread of a `NetworkBridge`: `manual_sender_loop`, or `client_loop` with its
connection rounds, its heartbeats and its back-off. Beside it run any number of calls of
`emit_frame`, and `stop`. -/
namespace RobotMiddleware

/-- `std::chrono::milliseconds`: a signed count of 64 bits. -/
structure Milliseconds where
  count : ℤ
  lower : -2 ^ 63 ≤ count
  upper : count < 2 ^ 63
  deriving DecidableEq

namespace Milliseconds

/-- `none` is the overflow of a signed count, which C++ leaves undefined. -/
def ofCount (count : ℤ) : Option Milliseconds :=
  if h : -2 ^ 63 ≤ count ∧ count < 2 ^ 63 then some ⟨count, h.1, h.2⟩ else none

def ofNat (n : ℕ) (h : n < 2 ^ 63 := by decide) : Milliseconds :=
  ⟨n, by omega, by exact_mod_cast h⟩

def min (a b : Milliseconds) : Milliseconds :=
  if b.count < a.count then b else a

/-- A duration on the steady clock, which counts nanoseconds. -/
def nanoseconds (m : Milliseconds) : ℤ :=
  m.count * 1000000

end Milliseconds

structure ReconnectOptions where
  connectTimeout : Milliseconds := .ofNat 500
  ioPollInterval : Milliseconds := .ofNat 25
  sendTimeout : Milliseconds := .ofNat 250
  heartbeatInterval : Milliseconds := .ofNat 250
  idleTimeout : Milliseconds := .ofNat 1000
  initialBackoff : Milliseconds := .ofNat 50
  maximumBackoff : Milliseconds := .ofNat 1000
  deriving DecidableEq

def validateReconnectOptions (options : ReconnectOptions) : Except Fault Unit :=
  throwIf (options.connectTimeout.count ≤ 0 ∨ options.ioPollInterval.count ≤ 0 ∨
      options.sendTimeout.count ≤ 0 ∨ options.heartbeatInterval.count ≤ 0 ∨
      options.idleTimeout.count ≤ options.heartbeatInterval.count ∨
      options.initialBackoff.count ≤ 0 ∨
      options.maximumBackoff.count < options.initialBackoff.count)
    ("invalid reconnect timing: intervals must be positive, idle_timeout " ++
      "must exceed heartbeat_interval, and maximum_backoff must not be " ++
      "smaller than initial_backoff")

def doubledBackoff (current maximum : Milliseconds) : Option Milliseconds :=
  if maximum.count ≤ current.count then some maximum
  else
    let count := current.count
    if (2 ^ 63 - 1) / 2 < count then some maximum
    else (Milliseconds.ofCount (count * 2)).map (Milliseconds.min maximum)

def makeHeartbeatFrame (publisherId sequence sendTimeNs : BitVec 64) : Frame :=
  { flags := kHeartbeatFlag, sequence := sequence, publisherId := publisherId,
    sendTimeNs := sendTimeNs, topic := kHeartbeatTopic }

def ThreadSafeQueue.tryPop {α : Type} (q : ThreadSafeQueue α) : Option (ThreadSafeQueue α × α) :=
  match q.queue with
  | value :: rest => some ({ q with queue := rest }, value)
  | [] => none

inductive ClientFrame
  | heartbeat
  | deliver
  deriving DecidableEq, Repr

/-- The tests of `client_loop` on an incoming frame. -/
def clientFrame (incoming : Frame) : Except Fault ClientFrame :=
  if hasHeartbeatFlag incoming then
    if !isHeartbeatFrame incoming then
      .error (.transportError "bridge received a malformed heartbeat")
    else .ok .heartbeat
  else if incoming.flags ≠ 0 then
    .error (.transportError "bridge received unsupported frame flags")
  else .ok .deliver

/-- The locals of one connection, times in nanoseconds; `received` are the frames that came in
on it. -/
structure ClientConnection where
  lastReceive : ℤ
  nextHeartbeat : ℤ
  heartbeatSequence : BitVec 64 := 0
  healthyConnection : Bool := false
  received : List Frame := []
  deriving DecidableEq

inductive ConnectionPhase
  | checking
  | batching (sent : ℕ)
  | popped (sent : ℕ) (frame : Frame)
  | sending (sent : ℕ) (frame : Frame)
  | receiving
  | classifying (incoming : Frame) (now : ℤ)
  | delivering (incoming : Frame) (now : ℤ)
  | noticing (now : ℤ)
  | heartbeat (now : ℤ)
  | sendingHeartbeat (now : ℤ)
  | idle (now : ℤ)
  | closing
  deriving DecidableEq

inductive ManualPhase
  | checking
  | popping
  | popped (frame : Frame)
  | sending (frame : Frame)
  deriving DecidableEq

/-- Where the worker is. `caught` to `waiting` are the part of a round after its connection,
which it may not have had; `undefined` is an overflow in `doubled_backoff`. -/
inductive BridgeWorker
  | none
  | manual (phase : ManualPhase)
  | checking
  | connecting
  | connected (connection : ClientConnection) (phase : ConnectionPhase)
  | caught (connection : Option ClientConnection)
  | cleaning (connection : Option ClientConnection)
  | deciding (connection : Option ClientConnection)
  | waiting
  | left
  | undefined
  deriving DecidableEq

inductive EmitCall
  | none
  | checking (frame : Frame)
  | pushing (frame : Frame)
  | counting (pushed : Bool)
  | returned
  deriving DecidableEq

structure HandedFrame where
  frame : Frame
  heartbeat : Bool
  deriving DecidableEq

/-- A round of `client_loop` after which it waited: its connection, unless there was none, and
the wait that it asked for. -/
structure ClientRound where
  connection : Option ClientConnection
  wait : Milliseconds
  deriving DecidableEq

/-- What happened so far: the frames that the queue accepted, that were taken out of it and that
were handed over, the calls of `emit_frame` that were counted, and the rounds. -/
structure ClientHistory where
  accepted : List Frame := []
  taken : List Frame := []
  handed : List HandedFrame := []
  exportedBy : List ℕ := []
  droppedBy : List ℕ := []
  rounds : List ClientRound := []
  deriving DecidableEq

/-- `emits` are the calls of `emit_frame` by number, of which `emitted` have been made; `now` is
the last reading of the steady clock, `backoff` and `connectedBefore` are locals of the loop. -/
structure BridgeClient where
  publisherId : BitVec 64
  outbound : ThreadSafeQueue Frame
  stopped : Bool := false
  running : Bool := false
  isConnected : Bool := false
  options : Option ReconnectOptions := none
  worker : BridgeWorker := .none
  now : ℤ := 0
  backoff : Milliseconds := .ofNat 0
  connectedBefore : Bool := false
  emits : ℕ → EmitCall := fun _ => .none
  emitted : ℕ := 0
  exported : ℕ := 0
  framesSent : ℕ := 0
  outboundDropped : ℕ := 0
  connectAttempts : ℕ := 0
  successfulConnections : ℕ := 0
  reconnects : ℕ := 0
  disconnects : ℕ := 0
  heartbeatsSent : ℕ := 0
  heartbeatsReceived : ℕ := 0
  transportErrors : ℕ := 0
  history : ClientHistory := {}

/-- A step of the worker. Where it calls out, `fail` is an exception. -/
inductive WorkerAction
  | next
  | fail
  | connect (now : ℤ)
  | receive (incoming : Option Frame) (now : ℤ)
  | beat (sendTimeNs : BitVec 64)
  deriving DecidableEq

inductive ClientAction
  | setFrameSender
  | startTcpClient (options : ReconnectOptions)
  | emitFrame (frame : Frame)
  | emitCheck (call : ℕ)
  | emitPush (call : ℕ)
  | emitThrow (call : ℕ)
  | emitCount (call : ℕ)
  | worker (action : WorkerAction)
  | stop
  | stopRunning
  | close
  deriving DecidableEq

namespace BridgeClient

/-- The condition of every loop of the worker. Once it is false it stays so. -/
def going (s : BridgeClient) : Bool :=
  s.running && !s.stopped

def setWorker (s : BridgeClient) (worker : BridgeWorker) : BridgeClient :=
  { s with worker := worker }

def setEmit (s : BridgeClient) (call : ℕ) (emit : EmitCall) : BridgeClient :=
  { s with emits := Function.update s.emits call emit }

def take (s : BridgeClient) (outbound : ThreadSafeQueue Frame) (frame : Frame) : BridgeClient :=
  { s with
    outbound := outbound
    history := { s.history with taken := s.history.taken ++ [frame] } }

def hand (s : BridgeClient) (frame : Frame) (heartbeat : Bool) : BridgeClient :=
  { s with history := { s.history with handed := s.history.handed ++ [⟨frame, heartbeat⟩] } }

/-- One step of `manual_sender_loop`. -/
def manualStep (s : BridgeClient) : ManualPhase → WorkerAction → Option BridgeClient
  | .checking, .next => some (s.setWorker (if s.going then .manual .popping else .left))
  | .popping, .next =>
    match s.outbound.waitPopFor with
    | (outbound, some frame) => some ((s.take outbound frame).setWorker (.manual (.popped frame)))
    | (_, none) => some (s.setWorker (.manual .checking))
  -- the outer handler
  | .popping, .fail =>
    some ({ s with transportErrors := s.transportErrors + 1 }.setWorker .left)
  | .popped frame, .next => some ((s.hand frame false).setWorker (.manual (.sending frame)))
  | .sending _, .next =>
    some ({ s with framesSent := s.framesSent + 1 }.setWorker (.manual .checking))
  | .sending _, .fail =>
    some ({ s with transportErrors := s.transportErrors + 1 }.setWorker (.manual .checking))
  | _, _ => none

def notice (s : BridgeClient) (options : ReconnectOptions) (connection : ClientConnection)
    (now : ℤ) : BridgeClient :=
  let backoff := if connection.healthyConnection then s.backoff else options.initialBackoff
  { s with backoff := backoff }.setWorker
    (.connected { connection with lastReceive := now, healthyConnection := true } (.heartbeat now))

/-- One step of `client_loop` on a connection. -/
def connectionStep (s : BridgeClient) (options : ReconnectOptions)
    (connection : ClientConnection) : ConnectionPhase → WorkerAction → Option BridgeClient
  | .checking, .next =>
    some (s.setWorker (.connected connection (if s.going then .batching 0 else .closing)))
  -- at most 64 frames go out in a round, so that receiving is not starved
  | .batching sent, .next =>
    if sent < 64 then
      match s.outbound.tryPop with
      | some (outbound, frame) =>
        some ((s.take outbound frame).setWorker (.connected connection (.popped sent frame)))
      | none => some (s.setWorker (.connected connection .receiving))
    else some (s.setWorker (.connected connection .receiving))
  | .popped sent frame, .next =>
    some ((s.hand frame false).setWorker (.connected connection (.sending sent frame)))
  | .sending sent _, .next =>
    some ({ s with framesSent := s.framesSent + 1 }.setWorker
      (.connected connection (.batching (sent + 1))))
  | .receiving, .receive incoming now =>
    if s.now ≤ now then
      match incoming with
      | some incoming =>
        let connection := { connection with received := connection.received ++ [incoming] }
        some ({ s with now := now }.setWorker (.connected connection (.classifying incoming now)))
      | none => some ({ s with now := now }.setWorker (.connected connection (.heartbeat now)))
    else none
  -- a malformed heartbeat or unknown flags end the connection
  | .classifying incoming now, .next =>
    match clientFrame incoming with
    | .ok .heartbeat =>
      some ({ s with heartbeatsReceived := s.heartbeatsReceived + 1 }.setWorker
        (.connected connection (.noticing now)))
    | .ok .deliver => some (s.setWorker (.connected connection (.delivering incoming now)))
    | .error _ => some (s.setWorker (.caught (some connection)))
  -- `receive_frame` has returned, which never throws
  | .delivering _ now, .next => some (s.setWorker (.connected connection (.noticing now)))
  | .noticing now, .next => some (s.notice options connection now)
  | .heartbeat now, .next =>
    if connection.nextHeartbeat ≤ now then none
    else some (s.setWorker (.connected connection (.idle now)))
  | .heartbeat now, .beat sendTimeNs =>
    if connection.nextHeartbeat ≤ now then
      let frame := makeHeartbeatFrame s.publisherId connection.heartbeatSequence sendTimeNs
      let connection :=
        { connection with heartbeatSequence := connection.heartbeatSequence + 1 }
      some ((s.hand frame true).setWorker (.connected connection (.sendingHeartbeat now)))
    else none
  | .sendingHeartbeat now, .next =>
    let nextHeartbeat := now + options.heartbeatInterval.nanoseconds
    some ({ s with heartbeatsSent := s.heartbeatsSent + 1 }.setWorker
      (.connected { connection with nextHeartbeat := nextHeartbeat } (.idle now)))
  -- the timeout is thrown, not returned, so it counts as an error
  | .idle now, .next =>
    some (s.setWorker (if options.idleTimeout.nanoseconds ≤ now - connection.lastReceive
      then .caught (some connection) else .connected connection .checking))
  | .closing, .next => some (s.setWorker (.cleaning (some connection)))
  -- `try_pop`, `send_frame`, `receive_frame` of the connection or `make_heartbeat_frame` throws
  | .batching _, .fail | .sending _ _, .fail | .receiving, .fail | .heartbeat _, .fail
  | .sendingHeartbeat _, .fail => some (s.setWorker (.caught (some connection)))
  | _, _ => none

def workerStep (s : BridgeClient) : BridgeWorker → WorkerAction → Option BridgeClient
  | .manual phase, action => s.manualStep phase action
  | .checking, .next =>
    if s.going then
      some ({ s with connectAttempts := s.connectAttempts + 1 }.setWorker .connecting)
    else some ({ s with isConnected := false }.setWorker .left)
  | .connecting, .connect now =>
    match s.options with
    | some options =>
      if s.now ≤ now then
        let nextHeartbeat := now + options.heartbeatInterval.nanoseconds
        some ({ s with
          now := now
          isConnected := true
          successfulConnections := s.successfulConnections + 1
          reconnects := if s.connectedBefore then s.reconnects + 1 else s.reconnects
          connectedBefore := true }.setWorker
            (.connected { lastReceive := now, nextHeartbeat := nextHeartbeat } .checking))
      else none
    | none => none
  | .connecting, .fail => some (s.setWorker (.caught none))
  | .connected connection phase, action =>
    s.options.bind fun options => s.connectionStep options connection phase action
  -- no error is counted once the worker is to end
  | .caught connection, .next =>
    let transportErrors := if s.going then s.transportErrors + 1 else s.transportErrors
    some ({ s with transportErrors := transportErrors }.setWorker (.cleaning connection))
  | .cleaning connection, .next =>
    let disconnects := if s.isConnected then s.disconnects + 1 else s.disconnects
    some ({ s with isConnected := false, disconnects := disconnects }.setWorker
      (.deciding connection))
  -- locking `connection_mutex` throws, past the loop
  | .cleaning _, .fail =>
    some ({ s with isConnected := false, transportErrors := s.transportErrors + 1 }.setWorker .left)
  -- the wait is skipped once the worker is to end
  | .deciding connection, .next =>
    if s.going then
      let rounds := s.history.rounds ++ [⟨connection, s.backoff⟩]
      some ({ s with history := { s.history with rounds := rounds } }.setWorker .waiting)
    else some (s.setWorker .checking)
  -- `wait_backoff` may return early
  | .waiting, .next =>
    s.options.bind fun options =>
      match doubledBackoff s.backoff options.maximumBackoff with
      | some backoff => some ({ s with backoff := backoff }.setWorker .checking)
      | none => some (s.setWorker .undefined)
  | _, _ => none

def step (s : BridgeClient) : ClientAction → Option BridgeClient
  -- the two ways to start the worker hold `stop_mutex_`, as `stop` does
  | .setFrameSender =>
    if !s.stopped && s.worker = .none then
      some ({ s with running := true }.setWorker (.manual .checking))
    else none
  | .startTcpClient options =>
    match validateReconnectOptions options with
    | .ok () =>
      if !s.stopped && s.worker = .none then
        some ({ s with
          running := true
          options := some options
          backoff := options.initialBackoff }.setWorker .checking)
      else none
    | .error _ => some s
  | .emitFrame frame =>
    some ({ s with emitted := s.emitted + 1 }.setEmit s.emitted (.checking frame))
  | .emitCheck call =>
    match s.emits call with
    | .checking frame =>
      some (s.setEmit call (if s.stopped then .counting false else .pushing frame))
    | _ => none
  | .emitPush call =>
    match s.emits call with
    | .pushing frame =>
      match s.outbound.tryPush frame with
      | some outbound =>
        some ({ s with
          outbound := outbound
          history := { s.history with accepted := s.history.accepted ++ [frame] } }.setEmit call
            (.counting true))
      | none => some (s.setEmit call (.counting false))
    | _ => none
  -- the queue could not allocate, and the frame is counted as dropped
  | .emitThrow call =>
    match s.emits call with
    | .pushing _ => some (s.setEmit call (.counting false))
    | _ => none
  | .emitCount call =>
    match s.emits call with
    | .counting true =>
      some ({ s with
        exported := s.exported + 1
        history := { s.history with exportedBy := s.history.exportedBy ++ [call] } }.setEmit call
          .returned)
    | .counting false =>
      some ({ s with
        outboundDropped := s.outboundDropped + 1
        history := { s.history with droppedBy := s.history.droppedBy ++ [call] } }.setEmit call
          .returned)
    | _ => none
  | .worker action => s.workerStep s.worker action
  | .stop => some { s with stopped := true }
  -- `stop` goes on in this order
  | .stopRunning => if s.stopped then some { s with running := false } else none
  | .close => if s.stopped && !s.running then some { s with outbound := s.outbound.close } else none

end BridgeClient

def clientSystem (options : NetworkBridgeOptions) (defaultPublisherId : BitVec 64) :
    TransitionSystem BridgeClient ClientAction where
  init s := ∃ bridge, BridgeExport.create options defaultPublisherId = .ok bridge ∧
    s = { publisherId := bridge.publisherId, outbound := { capacity := bridge.outboundQueueDepth } }
  step := BridgeClient.step

end RobotMiddleware
