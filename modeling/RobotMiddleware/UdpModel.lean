import RobotMiddleware.LossyNetwork
import RobotMiddleware.TcpModel

/-! `UdpSender` and `UdpReceiver`: one frame is one datagram, and nothing is kept between two
calls. -/
namespace RobotMiddleware

structure UdpTransportOptions (W : SizeT) where
  maxDatagramSize : BitVec W.width := 1400
  frameLimits : FrameLimits W := {}
  deriving DecidableEq

namespace UdpTransportOptions
variable {W : SizeT}

def kMaximumUdpPayload : ℕ := 65507

def ssizeMax (W : SizeT) : ℕ := 2 ^ (W.width - 1) - 1

def validateOptions (options : UdpTransportOptions W) : Except Fault Unit := do
  throwIf (options.maxDatagramSize.toNat < Frame.kHeaderSize)
    "UDP maximum datagram size must fit the 56-byte frame header"
  throwIf (kMaximumUdpPayload < options.maxDatagramSize.toNat)
    "UDP maximum datagram size exceeds the IPv4 UDP payload limit"
  throwIf (ssizeMax W < options.maxDatagramSize.toNat) "UDP maximum datagram size exceeds ssize_t"

end UdpTransportOptions

inductive SendtoResult
  | sent (count : ℕ)
  | interrupted
  | failed (reason : String)
  deriving DecidableEq

inductive DatagramSend
  | sent (datagram : Bytes)
  | threw (e : Fault)
  /-- The call has not returned: the kernel has not answered yet. -/
  | waiting
  deriving DecidableEq

structure UdpSender (W : SizeT) where
  socketOpen : Bool := true
  options : UdpTransportOptions W := {}
  deriving DecidableEq

namespace UdpSender
variable {W : SizeT}

/-- The loop around `::sendto`. What it has put on the network is the whole datagram. -/
def sendto (datagram : Bytes) : List SendtoResult → DatagramSend
  | [] => .waiting
  | .interrupted :: results => sendto datagram results
  | .failed reason :: _ => .threw (.transportError ("sendto UDP socket: " ++ reason))
  | .sent count :: _ =>
    if count = datagram.length then .sent datagram
    else .threw (.transportError "sendto performed a partial UDP datagram send")

def sendDatagram (s : UdpSender W) (data : BytePointer) (size : ℕ)
    (results : List SendtoResult) : DatagramSend :=
  if !s.socketOpen then .threw (.transportError "UDP sender is closed")
  else if data = none ∧ size ≠ 0 then .threw (.transportError "UDP datagram data pointer is null")
  else if s.options.maxDatagramSize.toNat < size then
    .threw (.transportError "UDP datagram exceeds configured maximum size")
  else sendto ((data.getD []).take size) results

def sendFrame (s : UdpSender W) (frame : Frame) (results : List SendtoResult) : DatagramSend :=
  match encodeFrame frame s.options.frameLimits with
  | .error e => .threw e
  | .ok encoded => s.sendDatagram (some encoded) encoded.length results

end UdpSender

/-- How one turn of the loop in `receive_frame` ends. `wait_readable` is folded into it. -/
inductive DatagramEvent
  /-- `::poll` returned 0, or was interrupted after the deadline. -/
  | pollTimeout
  /-- `::poll` was interrupted before the deadline, or the socket is not readable. -/
  | pollAgain
  | pollFailed (reason : String)
  | pollInvalid
  /-- `POLLERR`, with the text of `SO_ERROR` if there is one. -/
  | socketError (reason : Option String)
  /-- `::recvmsg` returned the datagram in front. -/
  | received
  /-- EINTR, EAGAIN or EWOULDBLOCK, before or after the deadline. -/
  | transient (expired : Bool)
  | recvFailed (reason : String)
  deriving DecidableEq

/-- The socket is there: datagrams, transient errors and timeouts. -/
def DatagramEvent.healthy : DatagramEvent → Bool
  | .pollTimeout | .pollAgain | .received | .transient _ => true
  | _ => false

structure UdpReceiver (W : SizeT) where
  socketOpen : Bool := true
  options : UdpTransportOptions W := {}
  incoming : List Bytes := []
  deriving DecidableEq

namespace UdpReceiver
variable {W : SizeT}

/-- What `::recvmsg` writes into the buffer of `max_datagram_size` bytes. -/
def fillBuffer (maxDatagramSize : ℕ) (datagram : Bytes) : Bytes :=
  let written := datagram.take maxDatagramSize
  written ++ List.replicate (maxDatagramSize - written.length) 0

/-- The datagram that `::recvmsg` has taken out of the socket. `MSG_TRUNC` says that it did not
fit. -/
def handleDatagram (options : UdpTransportOptions W) (datagram : Bytes) : Except Fault Frame :=
  let maxDatagramSize := options.maxDatagramSize.toNat
  if maxDatagramSize < datagram.length then
    .error (.transportError "received UDP datagram exceeds configured maximum size")
  else
    decodeFrame (some (fillBuffer maxDatagramSize datagram)) datagram.length options.frameLimits

def receiveLoop : UdpReceiver W → List DatagramEvent → ReceiveResult × UdpReceiver W
  | r, [] => (.waiting, r)
  | r, .pollTimeout :: _ => (.timedOut, r)
  | r, .pollAgain :: events => receiveLoop r events
  | r, .pollFailed reason :: _ =>
    (.returned (.error (.transportError ("poll UDP socket: " ++ reason))), r)
  | r, .pollInvalid :: _ =>
    (.returned (.error (.transportError "poll reported an invalid UDP socket")), r)
  | r, .socketError (some reason) :: _ =>
    (.returned (.error (.transportError ("UDP socket error: " ++ reason))), r)
  | r, .socketError none :: _ =>
    (.returned (.error (.transportError "poll reported a UDP socket error")), r)
  | r, .received :: events =>
    match r.incoming with
    -- an empty socket answers EAGAIN
    | [] => receiveLoop r events
    | datagram :: incoming =>
      (.returned (handleDatagram r.options datagram), { r with incoming })
  | r, .transient true :: _ => (.timedOut, r)
  | r, .transient false :: events => receiveLoop r events
  | r, .recvFailed reason :: _ =>
    (.returned (.error (.transportError ("recvmsg UDP socket: " ++ reason))), r)

def receiveFrame (r : UdpReceiver W) (events : List DatagramEvent) :
    ReceiveResult × UdpReceiver W :=
  if !r.socketOpen then (.returned (.error (.transportError "UDP receiver is closed")), r)
  else receiveLoop r events

/-- Successive calls, each with the kernel's answers to it. -/
def receiveCalls : UdpReceiver W → List (List DatagramEvent) → List ReceiveResult × UdpReceiver W
  | r, [] => ([], r)
  | r, events :: calls =>
    match r.receiveFrame events with
    | (.waiting, r) => ([.waiting], r)
    | (result, r) => (result :: (receiveCalls r calls).1, (receiveCalls r calls).2)

end UdpReceiver

/-- Senders, a network that keeps no order, and a receiver. `answers` are what the calls that
took a datagram have returned or thrown. -/
structure UdpLink (W : SizeT) where
  sender : UdpSender W
  receiver : UdpReceiver W
  network : LossyNetwork Bytes := {}
  /-- The frames whose `send_frame` has returned. -/
  sentFrames : List Frame := []
  answers : List (Except Fault Frame) := []
  deriving DecidableEq

inductive UdpLinkAction
  | sendFrame (frame : Frame) (results : List SendtoResult)
  | lose (datagram : Bytes)
  | duplicate (datagram : Bytes)
  /-- The datagram arrives in the receiver's socket. -/
  | deliver (datagram : Bytes)
  | receiveFrame (events : List DatagramEvent)
  deriving DecidableEq

namespace UdpLink
variable {W : SizeT}

def step (s : UdpLink W) : UdpLinkAction → Option (UdpLink W)
  | .sendFrame frame results =>
    match s.sender.sendFrame frame results with
    | .sent datagram =>
      some { s with
        network := s.network.send datagram
        sentFrames := s.sentFrames ++ [frame] }
    | .threw _ => some s
    | .waiting => none
  | .lose datagram => (s.network.lose datagram).map fun network => { s with network }
  | .duplicate datagram => (s.network.duplicate datagram).map fun network => { s with network }
  | .deliver datagram =>
    (s.network.deliver datagram).map fun network => { s with
      network
      receiver := { s.receiver with incoming := s.receiver.incoming ++ [datagram] } }
  | .receiveFrame events =>
    match s.receiver.receiveFrame events with
    | (.returned answer, receiver) =>
      -- a call that fails without a datagram leaves the socket alone
      if receiver.incoming = s.receiver.incoming then some { s with receiver }
      else some { s with receiver, answers := s.answers ++ [answer] }
    | (.timedOut, receiver) => some { s with receiver }
    | (.waiting, _) => none

end UdpLink

def udpLinkSystem {W : SizeT} (options options' : UdpTransportOptions W) :
    TransitionSystem (UdpLink W) UdpLinkAction where
  init s := options.validateOptions = .ok () ∧ options'.validateOptions = .ok () ∧
    s = { sender := { options }, receiver := { options := options' } }
  step := UdpLink.step

end RobotMiddleware
