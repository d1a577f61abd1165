import RobotMiddleware.ScopedLock
import RobotMiddleware.TransitionSystem

/-! The three mutexes and the descriptor of one `TcpConnection`, under calls of any number of
threads. The rest of the process opens and closes files too, and the kernel gives a number that
was closed to the next file. -/
namespace RobotMiddleware

inductive FileOwner
  | connection
  | other
  deriving DecidableEq

/-- The first mutex that `std::scoped_lock` takes in `close`. -/
inductive IoSide
  | send
  | receive
  deriving DecidableEq

def IoSide.other : IoSide → IoSide
  | .send => .receive
  | .receive => .send

inductive DescriptorCall
  | setSendTimeout
  | isOpen
  | nativeHandle
  deriving DecidableEq

inductive ConnectionCall
  | idle
  /-- `send_all` before `send_mutex_`. -/
  | sendLocking
  | sendDescriptor
  | sendReading
  /-- The loop around `::send`, with the number it has read. -/
  | sending (fd : ℕ)
  | receiveLocking
  | receiveDescriptor
  | receiveReading
  /-- The loops around `::poll` and `::recv`. -/
  | receiving (fd : ℕ)
  /-- `interrupt`, from `receive_frame` or on its own. -/
  | interruptLocking (inReceive : Bool)
  | interrupting (inReceive : Bool)
  | receiveEnding
  | descriptorLocking (call : DescriptorCall)
  | descriptorUsing (call : DescriptorCall)
  /-- `close`, which has nothing yet, or the first of the two mutexes. -/
  | closeLocking (first : IoSide)
  | closeTrying (first : IoSide)
  | closeDescriptor
  | closing
  | clearing
  deriving DecidableEq

namespace ConnectionCall

def holdsSend : ConnectionCall → Bool
  | .sendDescriptor | .sendReading | .sending _ => true
  | .closeTrying .send | .closeDescriptor | .closing | .clearing => true
  | _ => false

def holdsReceive : ConnectionCall → Bool
  | .receiveDescriptor | .receiveReading | .receiving _ => true
  | .interruptLocking true | .interrupting true | .receiveEnding => true
  | .closeTrying .receive | .closeDescriptor | .closing | .clearing => true
  | _ => false

def holdsDescriptor : ConnectionCall → Bool
  | .sendReading | .receiveReading | .interrupting _ | .descriptorUsing _ | .closing => true
  | _ => false

def usesBuffer : ConnectionCall → Bool
  | .receiving _ | .receiveEnding | .clearing => true
  | _ => false

/-- The number with which the call does its system calls that may block. -/
def ioFd : ConnectionCall → Option ℕ
  | .sending fd | .receiving fd => some fd
  | _ => none

def isBrief : ConnectionCall → Bool
  | .interruptLocking false | .interrupting false => true
  | .descriptorLocking _ | .descriptorUsing _ => true
  | _ => false

def isFirst : ConnectionCall → Bool
  | .sendLocking | .receiveLocking | .interruptLocking false => true
  | .descriptorLocking _ | .closeLocking _ => true
  | _ => false

end ConnectionCall

inductive ConnectionTurn
  | goOn
  /-- One more turn of a loop; for `close`, the other mutex first, or the second was not free. -/
  | again
  /-- `receive_frame` has seen the end of the stream or a bad header. -/
  | broken
  deriving DecidableEq

structure ConnectionState (Tid : Type) where
  files : ℕ → Option FileOwner
  /-- `socket_fd_`; `none` is -1. -/
  socketFd : Option ℕ
  sendMutex : Option Tid := none
  receiveMutex : Option Tid := none
  descriptorMutex : Option Tid := none
  calls : Tid → ConnectionCall := fun _ => .idle
  /-- What the system calls of the connection have met, which the code does not store. -/
  touched : List (Option FileOwner) := []
  closes : ℕ := 0

inductive ConnectionAction (Tid : Type)
  | begin (t : Tid) (call : ConnectionCall)
  | turn (t : Tid) (turn : ConnectionTurn)
  /-- The rest of the process opens a file, which gets a number that is free, or closes one. -/
  | openFile (fd : ℕ)
  | closeFile (fd : ℕ)
  deriving DecidableEq

def ConnectionCall.next (socketFd : Option ℕ) :
    ConnectionCall → ConnectionTurn → Option ConnectionCall
  | .sendLocking, .goOn => some .sendDescriptor
  | .sendDescriptor, .goOn => some .sendReading
  | .sendReading, .goOn => some (socketFd.elim .idle .sending)
  | .sending fd, .again => some (.sending fd)
  | .sending _, .goOn => some .idle
  | .receiveLocking, .goOn => some .receiveDescriptor
  | .receiveDescriptor, .goOn => some .receiveReading
  | .receiveReading, .goOn => some (socketFd.elim .idle .receiving)
  | .receiving fd, .again => some (.receiving fd)
  | .receiving _, .goOn => some .idle
  | .receiving _, .broken => some (.interruptLocking true)
  | .interruptLocking inReceive, .goOn => some (.interrupting inReceive)
  | .interrupting inReceive, .goOn => some (if inReceive then .receiveEnding else .idle)
  | .receiveEnding, .goOn => some .idle
  | .descriptorLocking call, .goOn => some (.descriptorUsing call)
  | .descriptorUsing _, .goOn => some .idle
  -- `std::lock` takes the two mutexes in either order, and gives the first back
  | .closeLocking first, .goOn => some (.closeTrying first)
  | .closeLocking first, .again => some (.closeLocking first.other)
  | .closeTrying _, .goOn => some .closeDescriptor
  | .closeTrying first, .again => some (.closeLocking first)
  | .closeDescriptor, .goOn => some .closing
  | .closing, .goOn => some .clearing
  | .clearing, .goOn => some .idle
  | _, _ => none

def ConnectionCall.systemCall (socketFd : Option ℕ) :
    ConnectionCall → ConnectionTurn → Option ℕ
  | .sending fd, .again => some fd
  | .receiving fd, .again => some fd
  | .interrupting _, .goOn => socketFd
  | .descriptorUsing .setSendTimeout, .goOn => socketFd
  | .closing, .goOn => socketFd
  | _, _ => none

namespace ConnectionState
variable {Tid : Type} [DecidableEq Tid]

/-- `close_noexcept` under the descriptor mutex. -/
def closeFd (s : ConnectionState Tid) : ConnectionState Tid :=
  match s.socketFd with
  | some fd =>
    { s with
      files := Function.update s.files fd none
      socketFd := none
      closes := s.closes + 1 }
  | none => s

def move (s : ConnectionState Tid) (t : Tid) (call : ConnectionCall) :
    Option (ConnectionState Tid) := do
  let before := s.calls t
  let sendMutex ← ScopedLock.pass s.sendMutex t before.holdsSend call.holdsSend
  let receiveMutex ← ScopedLock.pass s.receiveMutex t before.holdsReceive call.holdsReceive
  let descriptorMutex ←
    ScopedLock.pass s.descriptorMutex t before.holdsDescriptor call.holdsDescriptor
  return { s with
    sendMutex, receiveMutex, descriptorMutex, calls := Function.update s.calls t call }

def perform (s : ConnectionState Tid) (call : ConnectionCall) (turn : ConnectionTurn) :
    ConnectionState Tid :=
  let touched := s.touched ++ ((call.systemCall s.socketFd turn).map s.files).toList
  let s := { s with touched }
  if call = .closing ∧ turn = .goOn then s.closeFd else s

def step (s : ConnectionState Tid) : ConnectionAction Tid → Option (ConnectionState Tid)
  | .begin t call =>
    if s.calls t = .idle ∧ call.isFirst then
      some { s with calls := Function.update s.calls t call }
    else none
  | .turn t turn =>
    ((s.calls t).next s.socketFd turn).bind fun call => (s.perform (s.calls t) turn).move t call
  | .openFile fd =>
    if s.files fd = none then some { s with files := Function.update s.files fd (some .other) }
    else none
  | .closeFile fd =>
    if s.files fd = some .other then some { s with files := Function.update s.files fd none }
    else none

end ConnectionState

def connectionSystem (Tid : Type) [DecidableEq Tid] :
    TransitionSystem (ConnectionState Tid) (ConnectionAction Tid) where
  init s := ∃ (files : ℕ → Option FileOwner) (fd : ℕ),
    (∀ other, files other = some .connection ↔ other = fd) ∧ s = { files, socketFd := some fd }
  step := ConnectionState.step

end RobotMiddleware
