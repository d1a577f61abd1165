import RobotMiddleware.BridgeClientModel
import RobotMiddleware.BridgeNodeModel
import RobotMiddleware.ScopedLock

/-! The transport of a `NetworkBridge`: calls of `set_frame_sender`, `start_tcp_client`, `stop` and
of the registration of exports by any number of threads, beside the worker and the export
callbacks. -/
namespace RobotMiddleware

inductive TransportMode
  | unconfigured
  | manual
  | tcpClient
  | stopped
  deriving DecidableEq, Repr

/-- What a configuring call may throw: its own errors, those of the transport, and those of
allocating memory or of starting a thread. -/
inductive ConfigureFault
  | middleware (error : MiddlewareError)
  | transport (fault : Fault)
  | system
  deriving DecidableEq

/-- A call of `set_frame_sender`, where `none` is an empty function, or of `start_tcp_client`. -/
inductive TransportSetup (Sender : Type)
  | manual (sender : Option Sender)
  | tcpClient (host : String) (options : ReconnectOptions)

namespace TransportSetup
variable {Sender : Type}

def mode : TransportSetup Sender → TransportMode
  | .manual _ => .manual
  | .tcpClient _ _ => .tcpClient

def validate : TransportSetup Sender → Except ConfigureFault Unit
  | .manual sender =>
    if sender.isNone then .error (.middleware ⟨"bridge frame sender must not be empty"⟩) else .ok ()
  | .tcpClient host options =>
    if host = "" then .error (.transport (.transportError "bridge TCP host must not be empty"))
    else match validateReconnectOptions options with
      | .ok () => .ok ()
      | .error fault => .error (.transport fault)

end TransportSetup

/-- Where a call of `set_frame_sender` or `start_tcp_client` is. From `rechecking` on it has
`stop_mutex_`, at `setting` and at `restoring` also `configuration_mutex_`. -/
inductive SetupPhase
  | checking
  | locking
  | rechecking
  | lockingConfiguration
  | setting
  | creating
  | stoppingRunning
  | relocking
  | restoring
  | unlocking (fault : Option ConfigureFault)
  deriving DecidableEq

inductive ExportPhase
  | checking
  | subscribing
  | locking (subscription : ℕ)
  | rechecking (subscription : ℕ)
  | inserting (subscription : ℕ)
  deriving DecidableEq

/-- Where a call of `stop` is. The first one goes through `lockingConfiguration` to `closing`. -/
inductive StopPhase
  | locking
  | exchanging
  | lockingConfiguration
  | swapping
  | cancelling (exports : List ℕ)
  | waitingExport (subscription : ℕ) (exports : List ℕ)
  | closing
  | connecting
  | joining
  | unlocking
  deriving DecidableEq

/-- Where a thread is. `changed` says whether the call has changed mode, sender or worker. -/
inductive TransportCall (Sender : Type)
  | none
  | exporting (remoteTopic : Bytes) (phase : ExportPhase)
  | setup (setup : TransportSetup Sender) (phase : SetupPhase) (changed : Bool)
  | stopping (phase : StopPhase)

namespace TransportCall
variable {Sender : Type}

def holdsStop : TransportCall Sender → Bool
  | .setup _ phase _ =>
    match phase with
    | .checking | .locking => false
    | _ => true
  | .stopping phase => phase ≠ .locking
  | _ => false

def holdsConfiguration : TransportCall Sender → Bool
  | .exporting _ phase =>
    match phase with
    | .rechecking _ | .inserting _ => true
    | _ => false
  | .setup _ phase _ => phase = .setting || phase = .restoring
  | .stopping phase => phase = .swapping
  | .none => false

end TransportCall

/-- An export subscription: whether it is active, and whether its callback runs. -/
structure TransportExport where
  active : Bool := true
  running : Bool := false
  deriving DecidableEq

structure SetupOutcome where
  fault : Option ConfigureFault
  changed : Bool
  deriving DecidableEq

/-- The members of a `NetworkBridge` that its transport uses; `client` has `stopped_`, `running`
and the worker. `started` workers have been started, `terminated` is a call of `std::terminate`
by the assignment to a joinable thread. `subscribed` export subscriptions have been made, of which
`registered` were added to the bridge; `stopsReturned` calls of `stop` have returned. -/
structure TransportMembers (Sender : Type) where
  client : BridgeClient
  mode : TransportMode := .unconfigured
  manualSender : Option Sender := none
  joinable : Bool := false
  started : ℕ := 0
  terminated : Bool := false
  subscribed : ℕ := 0
  exports : ℕ → TransportExport := fun _ => {}
  exportTopics : List Bytes := []
  exportCancellers : List ℕ := []
  registered : List ℕ := []
  outcomes : List SetupOutcome := []
  stopsReturned : ℕ := 0

namespace TransportMembers
variable {Sender : Type}

def setExport (m : TransportMembers Sender) (subscription : ℕ) (state : TransportExport) :
    TransportMembers Sender :=
  { m with exports := Function.update m.exports subscription state }

def setRunning (m : TransportMembers Sender) (running : Bool) : TransportMembers Sender :=
  { m with client := { m.client with running := running } }

/-- What a configuring call that throws has to leave alone. -/
def transport (m : TransportMembers Sender) : TransportMode × Option Sender × Bool × ℕ :=
  (m.mode, m.manualSender, m.joinable, m.started)

def configure (m : TransportMembers Sender) (setup : TransportSetup Sender) :
    TransportMembers Sender :=
  { m.setRunning true with
    mode := setup.mode
    manualSender := match setup with
      | .manual sender => sender
      | .tcpClient _ _ => m.manualSender }

/-- `client_->worker = std::thread(...)`, once the thread has been created. -/
def startWorker (m : TransportMembers Sender) (setup : TransportSetup Sender) :
    TransportMembers Sender :=
  let client := match setup with
    | .manual _ => m.client.setWorker (.manual .checking)
    | .tcpClient _ options =>
      { m.client with options := some options, backoff := options.initialBackoff }.setWorker
        .checking
  { m with
    client := client
    joinable := true
    started := m.started + 1
    terminated := m.terminated || m.joinable }

def restore (m : TransportMembers Sender) (setup : TransportSetup Sender) :
    TransportMembers Sender :=
  { m with
    mode := .unconfigured
    manualSender := match setup with
      | .manual _ => none
      | .tcpClient _ _ => m.manualSender }

def stoppedFault : ConfigureFault := .middleware NetworkBridge.stoppedError

def configuredFault : ConfigureFault :=
  .middleware ⟨"bridge transport mode is already configured"⟩

/-- One step of a configuring call, to a phase or to its end; `failed` is an exception. -/
def setupStep (m : TransportMembers Sender) (setup : TransportSetup Sender) :
    SetupPhase → Bool → Option (TransportMembers Sender × (SetupPhase ⊕ Option ConfigureFault))
  | .checking, false =>
    if m.client.stopped then some (m, .inr (some stoppedFault))
    else match setup.validate with
      | .ok () => some (m, .inl .locking)
      | .error fault => some (m, .inr (some fault))
  | .locking, false => some (m, .inl .rechecking)
  | .rechecking, false =>
    some (m, .inl (if m.client.stopped then .unlocking (some stoppedFault)
      else .lockingConfiguration))
  | .lockingConfiguration, false => some (m, .inl .setting)
  | .setting, failed =>
    if m.mode ≠ .unconfigured then
      if failed then none else some (m, .inl (.unlocking (some configuredFault)))
    -- the copy of the sender throws, before anything is set
    else if failed then
      if setup.mode = .manual then some (m, .inl (.unlocking (some .system))) else none
    else some (m.configure setup, .inl .creating)
  | .creating, false => some (m.startWorker setup, .inl (.unlocking none))
  | .creating, true => some (m, .inl .stoppingRunning)
  | .stoppingRunning, false => some (m.setRunning false, .inl .relocking)
  | .relocking, false => some (m, .inl .restoring)
  | .restoring, false => some (m.restore setup, .inl (.unlocking (some .system)))
  | .unlocking fault, false => some (m, .inr fault)
  | _, true => none

def dropExport (m : TransportMembers Sender) (subscription : ℕ) : TransportMembers Sender :=
  m.setExport subscription { m.exports subscription with active := false }

/-- One step of `export_topic`; `none` as a phase is its end. -/
def exportStep (m : TransportMembers Sender) (remoteTopic : Bytes) :
    ExportPhase → Bool → Option (TransportMembers Sender × Option ExportPhase)
  | .checking, false => some (m, if m.client.stopped then none else some .subscribing)
  | .subscribing, false =>
    some ({ m with subscribed := m.subscribed + 1 }, some (.locking m.subscribed))
  -- `node_.create_subscription` throws
  | .subscribing, true => some (m, none)
  | .locking subscription, false => some (m, some (.rechecking subscription))
  | .rechecking subscription, false =>
    if m.client.stopped then some (m.dropExport subscription, none)
    else some (m, some (.inserting subscription))
  | .inserting subscription, failed =>
    if remoteTopic ∈ m.exportTopics ∨ failed then some (m.dropExport subscription, none)
    else
      some ({ m with
        exportTopics := m.exportTopics ++ [remoteTopic]
        exportCancellers := m.exportCancellers ++ [subscription]
        registered := m.registered ++ [subscription] }, none)
  | _, true => none

def stopStep (m : TransportMembers Sender) :
    StopPhase → Option (TransportMembers Sender × Option StopPhase)
  | .locking => some (m, some .exchanging)
  | .exchanging =>
    some ({ m with client := { m.client with stopped := true } },
      some (if m.client.stopped then .connecting else .lockingConfiguration))
  | .lockingConfiguration => some (m, some .swapping)
  | .swapping =>
    some ({ m with
      mode := .stopped
      manualSender := none
      exportTopics := []
      exportCancellers := [] }, some (.cancelling m.exportCancellers))
  | .cancelling (subscription :: exports) =>
    some (m.setExport subscription { m.exports subscription with active := false },
      some (.waitingExport subscription exports))
  -- `cancel_and_wait` waits for a callback that is running
  | .waitingExport subscription exports =>
    if (m.exports subscription).running then none else some (m, some (.cancelling exports))
  | .cancelling [] => some (m.setRunning false, some .closing)
  | .closing =>
    some ({ m with client := { m.client with outbound := m.client.outbound.close } },
      some .connecting)
  -- the connection is interrupted, which the worker sees as a failure of its next operation
  | .connecting => some (m, some (if m.joinable then .joining else .unlocking))
  | .joining =>
    if m.client.worker = .left then some ({ m with joinable := false }, some .unlocking) else none
  | .unlocking => some ({ m with stopsReturned := m.stopsReturned + 1 }, none)

variable [DecidableEq Sender]

def callStep (m : TransportMembers Sender) :
    TransportCall Sender → Bool → Option (TransportMembers Sender × TransportCall Sender)
  | .none, _ => none
  | .exporting remoteTopic phase, failed =>
    (m.exportStep remoteTopic phase failed).map fun (m, phase) =>
      (m, phase.elim .none (.exporting remoteTopic))
  | .setup setup phase changed, failed =>
    (m.setupStep setup phase failed).map fun (m', status) =>
      let changed := changed || m'.transport ≠ m.transport
      match status with
      | .inl phase => (m', .setup setup phase changed)
      | .inr fault => ({ m' with outcomes := m'.outcomes ++ [⟨fault, changed⟩] }, .none)
  | .stopping phase, false =>
    (m.stopStep phase).map fun (m, phase) => (m, phase.elim .none .stopping)
  | .stopping _, true => none

end TransportMembers

/-- The steps of `BridgeClient` that are taken here as they are: those of the worker and of
`emit_frame`. -/
def ClientAction.isThread : ClientAction → Bool
  | .worker _ | .emitFrame _ | .emitCheck _ | .emitPush _ | .emitThrow _ | .emitCount _ => true
  | _ => false

structure BridgeTransport (Tid Sender : Type) where
  members : TransportMembers Sender
  stopMutex : Option Tid := none
  configurationMutex : Option Tid := none
  calls : Tid → TransportCall Sender := fun _ => .none

inductive TransportAction (Tid Sender : Type)
  | client (action : ClientAction)
  | callbackBegin (subscription : ℕ)
  | callbackEnd (subscription : ℕ)
  | exportTopic (t : Tid) (remoteTopic : Bytes)
  | setup (t : Tid) (setup : TransportSetup Sender)
  | stop (t : Tid)
  | next (t : Tid) (failed : Bool)

namespace BridgeTransport
variable {Tid Sender : Type} [DecidableEq Tid] [DecidableEq Sender]

def move (s : BridgeTransport Tid Sender) (t : Tid) (members : TransportMembers Sender)
    (call : TransportCall Sender) : Option (BridgeTransport Tid Sender) := do
  let stopMutex ← ScopedLock.pass s.stopMutex t (s.calls t).holdsStop call.holdsStop
  let configurationMutex ← ScopedLock.pass s.configurationMutex t (s.calls t).holdsConfiguration
    call.holdsConfiguration
  some { members, stopMutex, configurationMutex, calls := Function.update s.calls t call }

def begin (s : BridgeTransport Tid Sender) (t : Tid) (call : TransportCall Sender) :
    Option (BridgeTransport Tid Sender) :=
  match s.calls t with
  | .none => some { s with calls := Function.update s.calls t call }
  | _ => none

def step (s : BridgeTransport Tid Sender) :
    TransportAction Tid Sender → Option (BridgeTransport Tid Sender)
  | .client action =>
    if action.isThread then
      (s.members.client.step action).map fun client =>
        { s with members := { s.members with client := client } }
    else none
  | .callbackBegin subscription =>
    let state := s.members.exports subscription
    if subscription < s.members.subscribed && state.active && !state.running then
      some { s with members := s.members.setExport subscription { state with running := true } }
    else none
  | .callbackEnd subscription =>
    let state := s.members.exports subscription
    if state.running then
      some { s with members := s.members.setExport subscription { state with running := false } }
    else none
  | .exportTopic t remoteTopic => s.begin t (.exporting remoteTopic .checking)
  | .setup t setup => s.begin t (.setup setup .checking false)
  | .stop t => s.begin t (.stopping .locking)
  | .next t failed =>
    (s.members.callStep (s.calls t) failed).bind fun (members, call) => s.move t members call

end BridgeTransport

/-- A fresh bridge and any number of threads; none of its own user callbacks calls `stop`. -/
def transportSystem (Tid Sender : Type) [DecidableEq Tid] [DecidableEq Sender]
    (options : NetworkBridgeOptions) (defaultPublisherId : BitVec 64) :
    TransitionSystem (BridgeTransport Tid Sender) (TransportAction Tid Sender) where
  init s := ∃ client, (clientSystem options defaultPublisherId).init client ∧
    s = { members := { client := client } }
  step := BridgeTransport.step

end RobotMiddleware
