import RobotMiddleware.TransitionSystem
import RobotMiddleware.FrameModel

/-! `TcpConnection`. Receiving is one call at a time under `receive_mutex_`, a function of
what the kernel answers. Sending is a system of threads that meet at `send_mutex_`. -/
namespace RobotMiddleware

/-- What the receiving side of a connection keeps, with the bytes that the peer has sent
and `::recv` has not returned yet. -/
structure TcpConnection (W : SizeT) where
  socketOpen : Bool := true
  limits : FrameLimits W := {}
  receiveBuffer : Bytes := []
  incoming : Bytes := []
  shutDown : Bool := false
  deriving DecidableEq

/-- How one turn of the loop in `read_until` ends. `poll_socket` is folded into it: its own
retries change nothing. -/
inductive SocketEvent
  /-- `::poll` returned 0, or was interrupted after the deadline. -/
  | pollTimeout
  | pollFailed (reason : String)
  | pollInvalid
  /-- `::recv` returned data, `extra + 1` bytes if that many were wanted and there. -/
  | received (extra : ℕ)
  /-- EINTR, EAGAIN or EWOULDBLOCK, before or after the deadline. -/
  | transient (expired : Bool)
  | disconnected
  | receiveFailed (reason : String)
  deriving DecidableEq

/-- The peer is there and its stream is open: data, transient errors and timeouts. -/
def SocketEvent.healthy : SocketEvent → Bool
  | .pollTimeout | .received _ | .transient _ => true
  | _ => false

def SocketEvent.patient : SocketEvent → Bool
  | .received _ | .transient false => true
  | _ => false

def SocketEvent.isData : SocketEvent → Bool
  | .received _ => true
  | _ => false

inductive ReadOutcome
  | filled
  | timedOut
  /-- The call has not returned: the kernel has not answered yet. -/
  | waiting
  | threw (what : String)
  deriving DecidableEq

/-- Where `read_until` stopped, and the answers it has not used. -/
structure ReadResult (W : SizeT) where
  outcome : ReadOutcome
  connection : TcpConnection W
  rest : List SocketEvent

inductive ReceiveResult
  /-- `std::nullopt` -/
  | timedOut
  | waiting
  | returned (frame : Except Fault Frame)
  deriving DecidableEq

/-- What a call that did not return `std::nullopt` returned or threw. -/
def ReceiveResult.answer : ReceiveResult → Option (Except Fault Frame)
  | .returned frame => some frame
  | _ => none

namespace TcpConnection
variable {W : SizeT}

def chunkSize : ℕ := 8192

/-- One successful `::recv`. It never asks for a byte past `targetSize`. -/
def recv (c : TcpConnection W) (targetSize extra : ℕ) : TcpConnection W :=
  let wanted := min chunkSize (targetSize - c.receiveBuffer.length)
  let received := min (extra + 1) wanted
  { c with
    receiveBuffer := c.receiveBuffer ++ c.incoming.take received
    incoming := c.incoming.drop received }

def interrupt (c : TcpConnection W) : TcpConnection W :=
  if c.socketOpen then { c with shutDown := true } else c

def readUntil (targetSize : ℕ) : TcpConnection W → List SocketEvent → ReadResult W
  | c, [] => ⟨if targetSize ≤ c.receiveBuffer.length then .filled else .waiting, c, []⟩
  | c, event :: rest =>
    if targetSize ≤ c.receiveBuffer.length then ⟨.filled, c, event :: rest⟩
    else
      match event with
      -- the bytes so far stay in the buffer for the next call
      | .pollTimeout => ⟨.timedOut, c, rest⟩
      | .pollFailed reason => ⟨.threw ("poll TCP socket: " ++ reason), c, rest⟩
      | .pollInvalid => ⟨.threw "poll reported an invalid TCP socket", c, rest⟩
      | .received extra => readUntil targetSize (c.recv targetSize extra) rest
      | .transient false => readUntil targetSize c rest
      | .transient true => ⟨.timedOut, c, rest⟩
      -- the stream has ended in the middle of a frame or between two
      | .disconnected =>
        ⟨.threw "TCP peer disconnected while receiving a frame", c.interrupt, rest⟩
      | .receiveFailed reason => ⟨.threw ("receive TCP frame: " ++ reason), c.interrupt, rest⟩

def receiveFrame (c : TcpConnection W) (events : List SocketEvent) :
    ReceiveResult × TcpConnection W :=
  if !c.socketOpen then (.returned (.error (.transportError "TCP connection is closed")), c)
  else
    match readUntil Frame.kHeaderSize c events with
    | ⟨.timedOut, c, _⟩ => (.timedOut, c)
    | ⟨.waiting, c, _⟩ => (.waiting, c)
    | ⟨.threw what, c, _⟩ => (.returned (.error (.transportError what)), c)
    | ⟨.filled, c, rest⟩ =>
      match frameSizeFromHeader (some c.receiveBuffer) Frame.kHeaderSize c.limits with
      -- after a bad header the stream cannot be followed any more
      | .error e => (.returned (.error e), { c with receiveBuffer := [] }.interrupt)
      | .ok totalSize =>
        match readUntil totalSize c rest with
        | ⟨.timedOut, c, _⟩ => (.timedOut, c)
        | ⟨.waiting, c, _⟩ => (.waiting, c)
        | ⟨.threw what, c, _⟩ => (.returned (.error (.transportError what)), c)
        | ⟨.filled, c, _⟩ =>
          -- the declared block is consumed whether or not it decodes
          (.returned (decodeBuffer c.receiveBuffer c.limits), { c with receiveBuffer := [] })

/-- Successive calls, each with the kernel's answers to it. A call that is still waiting
holds `receive_mutex_`, so no other call follows it. -/
def receiveCalls : TcpConnection W → List (List SocketEvent) →
    List ReceiveResult × TcpConnection W
  | c, [] => ([], c)
  | c, events :: calls =>
    match c.receiveFrame events with
    | (.waiting, c) => ([.waiting], c)
    | (result, c) => (result :: (receiveCalls c calls).1, (receiveCalls c calls).2)

end TcpConnection

inductive SendCall
  | idle
  /-- Encoded, not yet under `send_mutex_`. -/
  | waiting (encoded : Bytes)
  | sending (encoded : Bytes) (offset : ℕ)
  /-- The call has thrown and its caller has not called `interrupt` yet. -/
  | failed
  deriving DecidableEq

/-- What `::send` returns. A send timeout is an error (EAGAIN). -/
inductive SendResult
  | sent (count : ℕ)
  | zero
  | interrupted
  | error
  deriving DecidableEq

/-- The sending side of a connection. `wire` is what the kernel has accepted; `cut` is what
it had accepted when a call first failed in mid-frame, which the code does not store. -/
structure TcpSender (Tid : Type) where
  socketOpen : Bool := true
  shutDown : Bool := false
  sendMutex : Option Tid := none
  calls : Tid → SendCall := fun _ => .idle
  wire : Bytes := []
  cut : Option Bytes := none

inductive SendAction (Tid : Type)
  | sendFrame (t : Tid) (frame : Frame)
  | lock (t : Tid)
  | send (t : Tid) (result : SendResult)
  | unlock (t : Tid)
  /-- The caller's handler after a failed call, as in `send_to` and `broadcast`. -/
  | interrupt (t : Tid)
  /-- `interrupt` from anywhere else. -/
  | shutdown
  | close
  deriving DecidableEq

namespace TcpSender
variable {Tid : Type} [DecidableEq Tid] {W : SizeT}

def setCall (s : TcpSender Tid) (t : Tid) (call : SendCall) : TcpSender Tid :=
  { s with calls := Function.update s.calls t call }

def fail (s : TcpSender Tid) (t : Tid) (offset : ℕ) : TcpSender Tid :=
  { s.setCall t .failed with
    sendMutex := none
    cut := if 0 < offset then some (s.cut.getD s.wire) else s.cut }

/-- One step of one thread, or a shutdown. A socket that was shut down accepts no byte. -/
def step (limits : FrameLimits W) (s : TcpSender Tid) : SendAction Tid → Option (TcpSender Tid)
  | .sendFrame t frame =>
    match s.calls t, encodeFrame frame limits with
    | .idle, .ok encoded => some (s.setCall t (.waiting encoded))
    | .idle, .error _ => some (s.setCall t .failed)
    | _, _ => none
  -- `send_mutex_` is taken after the frame has been encoded
  | .lock t =>
    match s.calls t, s.sendMutex with
    | .waiting encoded, none =>
      if s.socketOpen then some { s.setCall t (.sending encoded 0) with sendMutex := some t }
      else some (s.setCall t .failed)
    | _, _ => none
  | .send t result =>
    match s.calls t with
    | .sending encoded offset =>
      if offset < encoded.length then
        match result with
        | .sent count =>
          if 0 < count ∧ count ≤ encoded.length - offset ∧ s.shutDown = false then
            some { s.setCall t (.sending encoded (offset + count)) with
              wire := s.wire ++ (encoded.drop offset).take count }
          else none
        -- the lock goes with the call, and the socket is still open
        | .zero => some (s.fail t offset)
        -- `EINTR`: the loop tries again
        | .interrupted => some s
        | .error => some (s.fail t offset)
      else none
    | _ => none
  | .unlock t =>
    match s.calls t with
    | .sending encoded offset =>
      if offset < encoded.length then none
      else some { s.setCall t .idle with sendMutex := none }
    | _ => none
  | .interrupt t =>
    match s.calls t with
    | .failed => some { s.setCall t .idle with shutDown := s.shutDown || s.socketOpen }
    | _ => none
  | .shutdown => some { s with shutDown := s.shutDown || s.socketOpen }
  -- `close` takes both mutexes
  | .close =>
    match s.sendMutex with
    | none => some { s with socketOpen := false }
    | some _ => none

end TcpSender

def sendSystem {W : SizeT} (Tid : Type) [DecidableEq Tid] (limits : FrameLimits W) :
    TransitionSystem (TcpSender Tid) (SendAction Tid) where
  init s := s = {}
  step := TcpSender.step limits

end RobotMiddleware
