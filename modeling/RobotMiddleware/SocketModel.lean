import RobotMiddleware.TransitionSystem
import Mathlib.Logic.Function.Basic

/-! The sockets of `UdpSender`, `UdpReceiver`, `TcpServer` and `TcpConnection`: how they are
opened, moved from object to object and closed, beside a process that opens and closes files of
its own. -/
namespace RobotMiddleware

inductive OpenFile
  | socket (nonblocking : Bool)
  | other
  deriving DecidableEq

/-- The files behind the descriptors of the process. `closed` is what the library's calls of
`::close` have met, which nothing in the program stores. -/
structure FileTable where
  files : ℕ → Option OpenFile := fun _ => none
  closed : List (Option OpenFile) := []

namespace FileTable

/-- `::socket` and `::accept`: the kernel gives a number that is free. -/
def open_ (t : FileTable) (fd : ℕ) (nonblocking : Bool) : Option FileTable :=
  if t.files fd = none then
    some { t with files := Function.update t.files fd (some (.socket nonblocking)) }
  else none

def setNonblocking (t : FileTable) (fd : ℕ) (nonblocking : Bool) : FileTable :=
  { t with files := Function.update t.files fd (some (.socket nonblocking)) }

def close (t : FileTable) (fd : ℕ) : FileTable :=
  { files := Function.update t.files fd none, closed := t.closed ++ [t.files fd] }

end FileTable

/-- How the body of a loop over the resolved addresses ends. A `threw` carries the descriptor that
it leaves open, if there is one. -/
inductive AddressResult
  | failed (error : ℕ)
  | timedOut
  | threw (what : String) (left : Option ℕ)
  | opened (fd : ℕ)
  deriving DecidableEq

inductive OpenResult
  | threw (what : String) (left : Option ℕ)
  | opened (fd : ℕ)
  /-- `accept` has returned `std::nullopt`. -/
  | nullopt
  deriving DecidableEq

/-- The loop over the addresses: the first that opens is taken. -/
def openFirst {Answers : Type}
    (tryAddress : FileTable → Answers → Option (FileTable × AddressResult)) (timedOut : String)
    (message : ℕ → String) :
    FileTable → ℕ → List Answers → Option (FileTable × OpenResult)
  | t, lastError, [] => some (t, .threw (message lastError) none)
  | t, _, answers :: rest =>
    match tryAddress t answers with
    | some (t, .failed error) => openFirst tryAddress timedOut message t error rest
    | some (t, .timedOut) => some (t, .threw timedOut none)
    | some (t, .threw what left) => some (t, .threw what left)
    | some (t, .opened fd) => some (t, .opened fd)
    | none => none

/-- `getaddrinfo`, and the loop if it has resolved the name. -/
def resolveAndOpen {Answers : Type}
    (tryAddress : FileTable → Answers → Option (FileTable × AddressResult)) (operation : String)
    (timedOut : String) (message : ℕ → String) (t : FileTable) :
    Except String (List Answers) → Option (FileTable × OpenResult)
  | .error reason => some (t, .threw (operation ++ reason) none)
  | .ok addresses => openFirst tryAddress timedOut message t 0 addresses

/-- `errno_message`, or a text of its own where no call has failed. -/
def lastErrorMessage (strerror : ℕ → String) (operation nothing : String) (lastError : ℕ) :
    String :=
  if lastError ≠ 0 then operation ++ ": " ++ strerror lastError else nothing

/-! What the kernel answers for one address. A call that fails has its `errno`. -/

structure SenderAnswers where
  addressFits : Bool := true
  socket : Except ℕ ℕ

structure BindAnswers where
  socket : Except ℕ ℕ
  bind : Except ℕ Unit := .ok ()
  listen : Except ℕ Unit := .ok ()

inductive PollAnswer
  | ready
  | timedOut
  | threw (what : String)
  deriving DecidableEq

structure ConnectAnswers where
  socket : Except ℕ ℕ
  getFlags : Except ℕ Unit := .ok ()
  setFlags : Except ℕ Unit := .ok ()
  connect : Except ℕ Unit := .ok ()
  poll : PollAnswer := .ready
  /-- `SO_ERROR`. -/
  socketError : Except ℕ ℕ := .ok 0
  /-- The deadline is over when `SO_ERROR` has been read. -/
  expired : Bool := false
  restore : Except ℕ Unit := .ok ()

inductive AcceptAnswer
  | pollTimedOut
  | pollThrew (what : String)
  | accepted (fd : ℕ) (closeOnExec : Except ℕ Unit)
  /-- EINTR, EAGAIN or EWOULDBLOCK, before or after the deadline. -/
  | transient (expired : Bool)
  | failed (error : ℕ)

def EINTR : ℕ := 4
def EALREADY : ℕ := 114
def EINPROGRESS : ℕ := 115

namespace UdpSender

def tryAddress (t : FileTable) (answers : SenderAnswers) : Option (FileTable × AddressResult) :=
  if !answers.addressFits then some (t, .failed 0)
  else
    match answers.socket with
    | .error error => some (t, .failed error)
    | .ok fd => (t.open_ fd false).map fun t => (t, .opened fd)

def open_ : FileTable → Except String (List SenderAnswers) → Option (FileTable × OpenResult) :=
  resolveAndOpen tryAddress "getaddrinfo for UDP destination: " ""
    fun _ => "could not create a UDP sender socket"

end UdpSender

namespace UdpReceiver

def tryAddress (t : FileTable) (answers : BindAnswers) : Option (FileTable × AddressResult) :=
  match answers.socket with
  | .error error => some (t, .failed error)
  | .ok fd => (t.open_ fd false).map fun t =>
    match answers.bind with
    | .ok () => (t, .opened fd)
    | .error error => (t.close fd, .failed error)

def open_ (strerror : ℕ → String) :
    FileTable → Except String (List BindAnswers) → Option (FileTable × OpenResult) :=
  resolveAndOpen tryAddress "getaddrinfo for UDP bind: " ""
    (lastErrorMessage strerror "bind UDP socket" "could not create a UDP receiver socket")

end UdpReceiver

namespace TcpServer

def tryAddress (t : FileTable) (answers : BindAnswers) : Option (FileTable × AddressResult) :=
  match answers.socket with
  | .error error => some (t, .failed error)
  | .ok fd => (t.open_ fd true).map fun t =>
    match answers.bind with
    | .error error => (t.close fd, .failed error)
    | .ok () =>
      match answers.listen with
      | .error error => (t.close fd, .failed error)
      | .ok () => (t, .opened fd)

def open_ (strerror : ℕ → String) (backlog : ℤ) (t : FileTable)
    (resolved : Except String (List BindAnswers)) : Option (FileTable × OpenResult) :=
  if backlog ≤ 0 then some (t, .threw "TCP listen backlog must be positive" none)
  else
    resolveAndOpen tryAddress "getaddrinfo for TCP bind: " ""
      (lastErrorMessage strerror "bind/listen TCP socket" "could not create a TCP server socket")
      t resolved

/-- `accept` of a server whose socket is open; an empty list is a call that has not returned. -/
def accept (strerror : ℕ → String) (t : FileTable) :
    List AcceptAnswer → Option (FileTable × OpenResult)
  | [] => none
  | .pollTimedOut :: _ => some (t, .nullopt)
  | .pollThrew what :: _ => some (t, .threw what none)
  | .accepted fd closeOnExec :: _ => (t.open_ fd false).map fun t =>
    match closeOnExec with
    | .ok () => (t, .opened fd)
    | .error error => (t.close fd, .threw ("set FD_CLOEXEC: " ++ strerror error) none)
  | .transient true :: _ => some (t, .nullopt)
  | .transient false :: answers => accept strerror t answers
  | .failed error :: _ => some (t, .threw ("accept TCP connection: " ++ strerror error) none)

end TcpServer

namespace TcpClient

def restoreBlocking (strerror : ℕ → String) (t : FileTable) (fd : ℕ)
    (restore : Except ℕ Unit) : FileTable × AddressResult :=
  match restore with
  | .ok () => (t.setNonblocking fd false, .opened fd)
  | .error error =>
    (t.close fd, .threw ("restore TCP socket blocking mode: " ++ strerror error) none)

/-- The connection is being made: `poll_socket` and `SO_ERROR`. -/
def awaitConnection (strerror : ℕ → String) (t : FileTable) (fd : ℕ) (answers : ConnectAnswers) :
    FileTable × AddressResult :=
  match answers.poll with
  -- nothing closes the socket when `poll_socket` throws
  | .threw what => (t, .threw what (some fd))
  | .timedOut => (t.close fd, .timedOut)
  | .ready =>
    match answers.socketError with
    | .error error => (t.close fd, .failed error)
    | .ok 0 => restoreBlocking strerror t fd answers.restore
    | .ok error => (t.close fd, if answers.expired then .timedOut else .failed error)

def tryAddress (strerror : ℕ → String) (t : FileTable) (answers : ConnectAnswers) :
    Option (FileTable × AddressResult) :=
  match answers.socket with
  | .error error => some (t, .failed error)
  | .ok fd => (t.open_ fd false).map fun t =>
    match answers.getFlags, answers.setFlags with
    | .error error, _ => (t.close fd, .failed error)
    | .ok (), .error error => (t.close fd, .failed error)
    | .ok (), .ok () =>
      let t := t.setNonblocking fd true
      match answers.connect with
      | .ok () => restoreBlocking strerror t fd answers.restore
      | .error error =>
        if error ≠ EINPROGRESS ∧ error ≠ EALREADY ∧ error ≠ EINTR then
          (t.close fd, .failed error)
        else awaitConnection strerror t fd answers

def connect (strerror : ℕ → String) :
    FileTable → Except String (List ConnectAnswers) → Option (FileTable × OpenResult) :=
  resolveAndOpen (tryAddress strerror) "getaddrinfo for TCP destination: " "TCP connect timed out"
    (lastErrorMessage strerror "connect TCP socket" "could not create a TCP client socket")

end TcpClient

/-! The objects. All four classes move and close their descriptor in the same way. -/

inductive SocketKind
  | udpSender
  | udpReceiver
  | tcpServer
  | tcpConnection
  deriving DecidableEq

/-- `fd` is `socket_fd_`; `none` is -1. -/
structure SocketObject where
  kind : SocketKind
  fd : Option ℕ
  deriving DecidableEq

/-- `objects` are alive; `left` are descriptors that a `connect` has left open. -/
structure SocketProcess where
  table : FileTable := {}
  objects : ℕ → Option SocketObject := fun _ => none
  left : List ℕ := []

inductive SocketOpen
  | udpSender (resolved : Except String (List SenderAnswers))
  | udpReceiver (resolved : Except String (List BindAnswers))
  | tcpServer (backlog : ℤ) (resolved : Except String (List BindAnswers))
  | connect (resolved : Except String (List ConnectAnswers))
  | accept (server : ℕ) (answers : List AcceptAnswer)

inductive SocketAction
  | create (i : ℕ) (call : SocketOpen)
  | moveConstruct (i source : ℕ)
  | moveAssign (i source : ℕ)
  /-- `TcpConnection::close`. -/
  | close (i : ℕ)
  | destroy (i : ℕ)
  /-- The rest of the process. -/
  | openFile (fd : ℕ)
  | closeFile (fd : ℕ)

def SocketOpen.kind : SocketOpen → SocketKind
  | .udpSender _ => .udpSender
  | .udpReceiver _ => .udpReceiver
  | .tcpServer _ _ => .tcpServer
  | .connect _ | .accept _ _ => .tcpConnection

namespace SocketProcess

def fdOf (s : SocketProcess) (i : ℕ) : Option ℕ :=
  (s.objects i).bind SocketObject.fd

def open_ (strerror : ℕ → String) (s : SocketProcess) :
    SocketOpen → Option (FileTable × OpenResult)
  | .udpSender resolved => UdpSender.open_ s.table resolved
  | .udpReceiver resolved => UdpReceiver.open_ strerror s.table resolved
  | .tcpServer backlog resolved => TcpServer.open_ strerror backlog s.table resolved
  | .connect resolved => TcpClient.connect strerror s.table resolved
  | .accept server answers =>
    match s.objects server with
    | some ⟨.tcpServer, some _⟩ => TcpServer.accept strerror s.table answers
    | some ⟨.tcpServer, none⟩ => some (s.table, .threw "TCP server is closed" none)
    | _ => none

def closeNoexcept (s : SocketProcess) (i : ℕ) : SocketProcess :=
  match s.objects i with
  | some ⟨kind, some fd⟩ =>
    { s with
      table := s.table.close fd
      objects := Function.update s.objects i (some ⟨kind, none⟩) }
  | _ => s

/-- `std::exchange(other.socket_fd_, -1)`, for the object `i`. -/
def take (s : SocketProcess) (i source : ℕ) (object : SocketObject) : SocketProcess :=
  { s with
    objects := Function.update (Function.update s.objects source (some ⟨object.kind, none⟩)) i
      (some object) }

def step (strerror : ℕ → String) (s : SocketProcess) : SocketAction → Option SocketProcess
  | .create i call =>
    if s.objects i ≠ none then none
    else
      match s.open_ strerror call with
      | some (table, .opened fd) =>
        some { s with
          table
          objects := Function.update s.objects i (some ⟨call.kind, some fd⟩) }
      | some (table, .threw _ left) => some { s with table, left := s.left ++ left.toList }
      | some (table, .nullopt) => some { s with table }
      | none => none
  | .moveConstruct i source =>
    match s.objects i, s.objects source with
    | none, some object => some (s.take i source object)
    | _, _ => none
  | .moveAssign i source =>
    match s.objects i, s.objects source with
    | some target, some object =>
      if target.kind ≠ object.kind then none
      else if i = source then some s
      else some ((s.closeNoexcept i).take i source object)
    | _, _ => none
  | .close i =>
    match s.objects i with
    | some ⟨.tcpConnection, _⟩ => some (s.closeNoexcept i)
    | _ => none
  | .destroy i =>
    if s.objects i = none then none
    else
      let s := s.closeNoexcept i
      some { s with objects := Function.update s.objects i none }
  | .openFile fd =>
    if s.table.files fd = none then
      some { s with
        table := { s.table with files := Function.update s.table.files fd (some .other) } }
    else none
  | .closeFile fd =>
    if s.table.files fd = some .other then
      some { s with table := { s.table with files := Function.update s.table.files fd none } }
    else none

end SocketProcess

/-- A process without sockets, whatever other files it has open. -/
def socketSystem (strerror : ℕ → String) : TransitionSystem SocketProcess SocketAction where
  init s := ∃ files : ℕ → Option OpenFile,
    (∀ fd nonblocking, files fd ≠ some (.socket nonblocking)) ∧ s = { table := { files } }
  step := SocketProcess.step strerror

end RobotMiddleware
