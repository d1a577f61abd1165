import RobotMiddleware.BridgeClientModel
import Mathlib.Data.Finset.Card
import Mathlib.Data.Finset.Filter

/-! `client_loop` between two operations of its own. `BridgeClient` takes the start of a
connection and the end of a round as one step each; here every store, every count and every
change of a reference to the connection is one, and calls of `stop` take their own references
in between. -/
namespace RobotMiddleware

/-- Where `client_loop` is. `following` is where the worker of the client says; `setting` to
`entering` are the start of a connection, `closing` to `countingDisconnect` what comes after
`client_->connection` has been moved out. `abandoned` is the end of the loop by an exception that
the inner handler does not see. -/
inductive RoundPhase
  | following
  | setting
  | storing
  | flagging
  | counting
  | countingReconnect
  | entering
  | closing
  | exchanging
  | countingDisconnect
  | abandoned
  deriving DecidableEq, Repr

/-- Connections are numbered as they are obtained. `connection` is `client_->connection`,
`loopConnection` the reference of the inner `try` block and `connectionToClose` that of the loop
body; `stopConnection` are the references that calls of `stop` took. -/
structure ClientRun (Call : Type) where
  client : BridgeClient
  phase : RoundPhase := .following
  connection : Option ℕ := none
  loopConnection : Option ℕ := none
  connectionToClose : Option ℕ := none
  stopConnection : Call → Option ℕ := fun _ => none
  obtained : ℕ := 0
  openConnections : Finset ℕ := ∅

/-- `obtain` is a return of `TcpClient::connect`. `next` and `fail` are the steps of a phase other
than `following`; `lost` is a connection that closes itself when its peer is gone. -/
inductive RunAction (Call : Type)
  | client (action : ClientAction)
  | obtain
  | next
  | fail
  | enter (now : ℤ)
  | moveOut
  | lost (connection : ℕ)
  | stopCopy (call : Call)
  | stopClose (call : Call)

def BridgeWorker.isSplit : BridgeWorker → WorkerAction → Bool
  | .connecting, .connect _ => true
  | .cleaning _, .next => true
  | _, _ => false

def BridgeWorker.isConnected : BridgeWorker → Bool
  | .connected _ _ => true
  | _ => false

def BridgeWorker.isClosing : BridgeWorker → Bool
  | .connected _ .closing => true
  | _ => false

namespace ClientRun
variable {Call : Type} [DecidableEq Call]

/-- `close`, which does nothing to a connection that is closed already. -/
def close (s : ClientRun Call) (connection : Option ℕ) : ClientRun Call :=
  { s with openConnections := s.openConnections.filter fun id => connection ≠ some id }

/-- The inner `try` block is left and its reference goes away. If it was the last one, the
destructor closes the connection. -/
def release (s : ClientRun Call) : ClientRun Call :=
  let released := if s.connection = s.loopConnection then s else s.close s.loopConnection
  { released with loopConnection := none }

def follow (s : ClientRun Call) (before after : BridgeWorker) : ClientRun Call :=
  let closed := if before.isClosing then s.close s.loopConnection else s
  let left := if before.isConnected && !after.isConnected then closed.release else closed
  -- the loop body ends with its own references
  if after = .checking then { left with connectionToClose := none } else left

def clientStep (s : ClientRun Call) (action : ClientAction) : Option (ClientRun Call) :=
  match action with
  | .worker action =>
    if s.phase = .following && !s.client.worker.isSplit action then
      (s.client.step (.worker action)).map fun client =>
        let followed := { s with client := client }.follow s.client.worker client.worker
        -- locking `connection_mutex` threw after the inner handler
        if s.client.worker matches .cleaning _ then { followed with phase := .abandoned }
        else followed
    else none
  | action => (s.client.step action).map fun client => { s with client := client }

/-- `connected_before` is read, and set right after. -/
def countReconnect (client : BridgeClient) : BridgeClient :=
  { client with
    reconnects := if client.connectedBefore then client.reconnects + 1 else client.reconnects
    connectedBefore := true }

def caught (s : ClientRun Call) : ClientRun Call :=
  { s.release with client := s.client.setWorker (.caught none), phase := .following }

def nextStep (s : ClientRun Call) : RoundPhase → Option (ClientRun Call)
  | .setting => some { s with phase := .storing }
  | .storing => some { s with connection := s.loopConnection, phase := .flagging }
  | .flagging =>
    some { s with client := { s.client with isConnected := true }, phase := .counting }
  | .counting =>
    some { s with
      client := { s.client with successfulConnections := s.client.successfulConnections + 1 }
      phase := .countingReconnect }
  | .countingReconnect => some { s with client := countReconnect s.client, phase := .entering }
  | .closing => some { s.close s.connectionToClose with phase := .exchanging }
  | .exchanging =>
    some { s with
      client := { s.client with isConnected := false }
      phase := if s.client.isConnected then .countingDisconnect else .following }
  | .countingDisconnect =>
    some { s with
      client := { s.client with disconnects := s.client.disconnects + 1 }
      phase := .following }
  | _ => none

def afterCleaning : BridgeWorker → BridgeWorker
  | .cleaning connection => .deciding connection
  | worker => worker

def resume (s : ClientRun Call) : ClientRun Call :=
  if s.phase = .following then
    { s with client := s.client.setWorker (afterCleaning s.client.worker) }
  else s

def step (s : ClientRun Call) : RunAction Call → Option (ClientRun Call)
  | .client action => s.clientStep action
  | .obtain =>
    if s.phase = .following && s.client.worker = .connecting then
      some { s with
        loopConnection := some s.obtained
        obtained := s.obtained + 1
        openConnections := insert s.obtained s.openConnections
        phase := .setting }
    else none
  | .next => (s.nextStep s.phase).map resume
  -- `set_send_timeout` throws, or locking `connection_mutex` does
  | .fail => if s.phase = .setting || s.phase = .storing then some s.caught else none
  | .enter now =>
    match s.phase, s.client.options with
    | .entering, some options =>
      if s.client.now ≤ now then
        let nextHeartbeat := now + options.heartbeatInterval.nanoseconds
        some { s with
          client := { s.client with now := now }.setWorker
            (.connected { lastReceive := now, nextHeartbeat := nextHeartbeat } .checking)
          phase := .following }
      else none
    | _, _ => none
  | .moveOut =>
    match s.phase, s.client.worker with
    | .following, .cleaning _ =>
      some { s with
        connection := none, connectionToClose := s.connection, phase := .closing }
    | _, _ => none
  | .lost connection => some (s.close (some connection))
  | .stopCopy call =>
    some { s with stopConnection := Function.update s.stopConnection call s.connection }
  | .stopClose call => some (s.close (s.stopConnection call))

end ClientRun

def clientRunSystem (Call : Type) [DecidableEq Call] (options : NetworkBridgeOptions)
    (defaultPublisherId : BitVec 64) : TransitionSystem (ClientRun Call) (RunAction Call) where
  init s := ∃ client, (clientSystem options defaultPublisherId).init client ∧ s = { client := client }
  step := ClientRun.step

end RobotMiddleware
